import Eventual.Proofs.JoinLaw

/-!
# Timers and their join

Promises that are settled after given delays are made one after the other and joined, and then the
clock is driven until no task waits.  Their timers leave the queue in the order of the delays, those
of one delay in the order of the inputs, and the deliveries follow in the order of the timers.  So
at every turn of the drive the inputs are split into those that have been told, those whose delivery
waits and those whose timer waits, in one order that never changes (`World.Underway`), and what has
become of the result can be read off the first part (`TimedJoin.Verdict`).  Here the drive begins.
-/

namespace Eventual

variable {P : Payload}

/-! ## The scripts -/

/-- A promise that is to be settled after a delay. -/
structure Timed (P : Payload) where
  /-- The delay. -/
  delay : Duration
  /-- What it is settled with. -/
  result : Except P.Error P.Value

/-- The settlement with a value or, on its own, with an error. -/
def Settlement.ofResult {V E : Type} : Except E V → Settlement V E
  | .ok v => .fulfilled v
  | .error e => .failed e none

namespace Script

variable {α : Type}

/-- A promise that is settled after its delay. -/
def settleAfter (t : Timed P) : Script P PromiseId :=
  match t.result with
  | .ok v => fulfillAfter v t.delay
  | .error e => failAfter e t.delay

/-- Promises that are settled after their delays, made in the order of the list. -/
def settleEachAfter : List (Timed P) → Script P (List PromiseId)
  | [] => pure []
  | t :: ts => do
    let p ← settleAfter t
    let ps ← settleEachAfter ts
    return p :: ps

/-- Joins promises that are settled after their delays, and runs tasks until none waits; the
promises and the result. -/
def joinTimed (ts : List (Timed P)) : Script P (List PromiseId × PromiseId) := do
  let ps ← settleEachAfter ts
  let r ← join ps
  discard runAll
  return (ps, r)

lemma settleWith_eq (p : PromiseId) (x : Except P.Error P.Value) :
    settleWith p x = .op (.settle p (.ofResult x)) fun _ => .pure () := by
  cases x <;> rfl

lemma settleAfter_bind (t : Timed P) (f : PromiseId → Script P α) :
    (settleAfter t).bind f = .op .create fun p => .op (.emit (.scheduling t.delay)) fun _ =>
      .op (.schedule t.delay (settleWith p t.result)) fun _ => f p := by
  obtain ⟨delay, v | e⟩ := t <;> rfl

lemma settleEachAfter_cons_bind (t : Timed P) (ts : List (Timed P))
    (f : List PromiseId → Script P α) :
    (settleEachAfter (t :: ts)).bind f =
      (settleAfter t).bind fun p => (settleEachAfter ts).bind fun ps => f (p :: ps) := by
  refine (bind_assoc _ f (settleAfter t)).trans (congrArg _ (funext fun p => ?_))
  exact bind_assoc _ f (settleEachAfter ts)

lemma joinTimed_bind (ts : List (Timed P)) (f : List PromiseId × PromiseId → Script P α) :
    (joinTimed ts).bind f = (settleEachAfter ts).bind fun ps => (join ps).bind fun r =>
      .drive .all fun _ => f (ps, r) := by
  refine (bind_assoc _ f (settleEachAfter ts)).trans (congrArg _ (funext fun ps => ?_))
  exact bind_assoc _ f (join ps)

end Script

/-! ## The timers are set -/

/-- A task settles the `i`-th input; the inputs are counted from promise `n`, and the turns of their
timers from `turn`. -/
structure Task.Times (ts : List (Timed P)) (start : Duration) (n turn i : Nat)
    (task : Task (Work P)) : Prop where
  /-- The input. -/
  exists_timed : ∃ t, ts[i]? = some t ∧ start.add? t.delay = some task.due ∧
    task.body = .script (Script.settleWith ⟨n + i⟩ t.result)
  turn_eq : task.turn = turn + i

lemma exists_of_forall₂ {α β : Type*} {R : α → β → Prop} {xs : List α} {ys : List β} {y : β}
    (h : List.Forall₂ R xs ys) (hy : y ∈ ys) : ∃ x ∈ xs, R x y := by
  induction h with
  | nil => cases hy
  | @cons x y' xs ys hxy h ih =>
    rcases List.mem_cons.mp hy with rfl | hy
    · exact ⟨x, .head xs, hxy⟩
    · obtain ⟨x', hx', hxy'⟩ := ih hy
      exact ⟨x', .tail x hx', hxy'⟩

lemma exists_right_of_forall₂ {α β : Type*} {R : α → β → Prop} {xs : List α} {ys : List β} {x : α}
    (h : List.Forall₂ R xs ys) (hx : x ∈ xs) : ∃ y ∈ ys, R x y :=
  exists_of_forall₂ (List.Forall₂.flip (R := flip R) h) hx

lemma pairwise_of_forall₂ {α β : Type*} {R : α → β → Prop} {S : β → β → Prop} {T : α → α → Prop}
    {xs : List α} {ys : List β} (h : List.Forall₂ R xs ys) (hys : ys.Pairwise S)
    (hT : ∀ x x' y y', R x y → R x' y' → S y y' → T x x') : xs.Pairwise T := by
  induction h with
  | nil => exact .nil
  | cons hxy h ih =>
    obtain ⟨hy, hys⟩ := List.pairwise_cons.mp hys
    refine List.pairwise_cons.mpr ⟨fun x' hx' => ?_, ih hys⟩
    obtain ⟨y', hy', hxy'⟩ := exists_right_of_forall₂ h hx'
    exact hT _ _ _ _ hxy hxy' (hy y' hy')

namespace Queue

variable {β : Type*} {R : Nat → Task β → Prop} {i : Nat} {t : Task β}

/-- A task that goes into a queue takes its index to the same place. -/
lemma exists_forall₂_insertTask {is : List Nat} {us : List (Task β)} (h : List.Forall₂ R is us)
    (ht : R i t) : ∃ is', is'.Perm (i :: is) ∧ List.Forall₂ R is' (insertTask t us) := by
  induction h with
  | nil => exact ⟨[i], .refl _, .cons ht .nil⟩
  | @cons j u is us hju h ih =>
    unfold insertTask
    split
    · exact ⟨i :: j :: is, .refl _, .cons ht (.cons hju h)⟩
    · obtain ⟨is', hperm, hall⟩ := ih
      exact ⟨j :: is', (hperm.cons j).trans (.swap i j is), .cons hju hall⟩

end Queue

namespace World

variable {w w₀ : World P} {ts : List (Timed P)} {order : List Nat} {i j : Nat}

/-- The first inputs have been made, and their timers wait in an order. -/
structure Timing (w₀ : World P) (ts : List (Timed P)) (i : Nat) (order : List Nat) (w : World P) :
    Prop where
  clock : w.clock = w₀.clock
  size : w.promises.size = w₀.promises.size + i
  scheduled : w.queue.scheduled = w₀.queue.scheduled + i
  ordered : w.queue.Ordered
  perm : order.Perm (List.range i)
  timers : List.Forall₂ (Task.Times ts w₀.clock w₀.promises.size w₀.queue.scheduled) order
    w.queue.waiting
  fresh : ∀ j < i, ∃ segment?,
    w.promises[w₀.promises.size + j]? = some ⟨segment?, 0, .unresolved []⟩

/-- One more input is made. -/
lemma Timing.next (h : w₀.Timing ts i order w) {t : Timed P} (ht : ts[i]? = some t)
    {due : Duration} (hdue : w₀.clock.add? t.delay = some due) (k : PromiseId → Script P Unit)
    (rest : List (Activity P)) :
    ∃ w' order', Machine.Reaches ⟨w, .script ((Script.settleAfter t).bind k) :: rest⟩
        ⟨w', .script (k ⟨w₀.promises.size + i⟩) :: rest⟩ ∧ w₀.Timing ts (i + 1) order' w' := by
  obtain ⟨w₁, segment?, performed, promises, clock, queue, -⟩ := perform_create w
  rw [h.size] at performed
  have hclock : (w₁.emit (.scheduling t.delay)).clock.add? t.delay = some due := by
    rw [← hdue, ← h.clock, ← clock]
    rfl
  have htimes : Task.Times ts w₀.clock w₀.promises.size w₀.queue.scheduled i
      ⟨due, w₁.queue.scheduled, .script (Script.settleWith ⟨w₀.promises.size + i⟩ t.result)⟩ :=
    ⟨⟨t, ht, hdue, rfl⟩, by rw [queue, h.scheduled]⟩
  obtain ⟨order', hperm, htimers⟩ := Queue.exists_forall₂_insertTask h.timers htimes
  have hschedule := perform_schedule hclock
    (Script.settleWith ⟨w₀.promises.size + i⟩ t.result)
  rw [Script.settleAfter_bind]
  have hcreate : Machine.Reaches ⟨w, .script (.op .create fun p =>
      .op (.emit (.scheduling t.delay)) fun _ =>
        .op (.schedule t.delay (Script.settleWith p t.result)) fun _ => k p) :: rest⟩ _ :=
    (Machine.Step.operate performed).reaches
  have hreach := hcreate.trans
    ((Machine.Step.operate rfl).reaches.trans (Machine.Step.operate hschedule).reaches)
  refine ⟨_, order', hreach, clock.trans h.clock, ?_, ?_, ?_, ?_, ?_, fun j hj => ?_⟩
  · change w₁.promises.size = _
    rw [promises, Array.size_push, h.size, Nat.add_assoc]
  · change w₁.queue.scheduled + 1 = _
    rw [queue, h.scheduled, Nat.add_assoc]
  · exact (queue ▸ h.ordered : w₁.queue.Ordered).add _ _
  · rw [List.range_succ]
    exact (hperm.trans (h.perm.cons i)).trans (List.perm_append_singleton i _).symm
  · rw [← queue] at htimers
    exact htimers
  · change ∃ segment?, w₁.promises[_]? = _
    rw [promises, Array.getElem?_push, h.size]
    by_cases hji : j = i
    · exact ⟨segment?, if_pos (by rw [hji])⟩
    · rw [if_neg (by omega)]
      exact h.fresh j (by omega)

/-- The inputs of a join are named one after the other. -/
def names (w₀ : World P) (n : Nat) : List PromiseId :=
  (List.range n).map fun i => ⟨w₀.promises.size + i⟩

/-- All inputs are made. -/
lemma exists_timing (hempty : w₀.queue.waiting = [])
    (hdelays : ∀ t ∈ ts, ∃ due, w₀.clock.add? t.delay = some due)
    (k : List PromiseId → Script P Unit) (rest : List (Activity P)) :
    ∃ w order, Machine.Reaches ⟨w₀, .script ((Script.settleEachAfter ts).bind k) :: rest⟩
        ⟨w, .script (k (w₀.names ts.length)) :: rest⟩ ∧ w₀.Timing ts ts.length order w := by
  -- after `i` inputs the rest of the list is to be done
  have hstage : ∀ i ≤ ts.length, ∃ w order,
      Machine.Reaches ⟨w₀, .script ((Script.settleEachAfter ts).bind k) :: rest⟩
        ⟨w, .script ((Script.settleEachAfter (ts.drop i)).bind fun ps =>
          k (w₀.names i ++ ps)) :: rest⟩ ∧
      w₀.Timing ts i order w := by
    intro i
    induction i with
    | zero =>
      intro _
      refine ⟨w₀, [], .refl _, rfl, rfl, rfl, ⟨?_, ?_, ?_⟩, .refl _, ?_, by simp⟩ <;>
        simp [hempty]
    | succ i ih =>
      intro hi
      obtain ⟨w, order, hreach, h⟩ := ih (Nat.le_of_succ_le hi)
      have ht : ts[i]? = some ts[i] := List.getElem?_eq_getElem hi
      obtain ⟨due, hdue⟩ := hdelays ts[i] (List.getElem_mem hi)
      rw [List.drop_eq_getElem_cons hi, Script.settleEachAfter_cons_bind] at hreach
      obtain ⟨w', order', hreach', h'⟩ := h.next ht hdue _ rest
      refine ⟨w', order', ?_, h'⟩
      simpa [names, List.range_succ] using hreach.trans hreach'
  obtain ⟨w, order, hreach, h⟩ := hstage ts.length (Nat.le_refl _)
  rw [List.drop_length] at hreach
  refine ⟨w, order, ?_, h⟩
  simpa [Script.settleEachAfter] using hreach

end World

/-! ## The turns of the drive -/

/-- A join of promises that are settled after their delays. -/
structure TimedJoin (P : Payload) where
  /-- The inputs. -/
  inputs : List (Timed P)
  /-- The instant at which their timers were set. -/
  start : Duration
  /-- The number of promises made before them. -/
  first : Nat
  /-- The number of tasks that were handed over before their timers. -/
  turn : Nat
  /-- The gathering of the join. -/
  gathering : GatheringId

namespace TimedJoin

/-- The promise at a place. -/
def input (J : TimedJoin P) (i : Nat) : PromiseId := ⟨J.first + i⟩

/-- The result, which is made after the inputs. -/
def result (J : TimedJoin P) : PromiseId := ⟨J.first + J.inputs.length⟩

/-- The observer of the input at a place. -/
def registration (J : TimedJoin P) (i : Nat) : Registration P :=
  ⟨0, Script.gatherer J.result J.gathering i⟩

/-- A value has been put into a place, if the callbacks of some inputs have run. -/
def Filled (J : TimedJoin P) (told : List Nat) (i : Nat) (v : P.Value) : Prop :=
  i ∈ told ∧ ∃ delay, J.inputs[i]? = some ⟨delay, .ok v⟩

/-- What the result holds when the callbacks of some inputs have run in an order, by the traces of
the inputs that have failed. -/
inductive Verdict (J : TimedJoin P) (trace? : Nat → Option (Trace P.Error)) (told : List Nat) :
    Slot P → Prop
  /-- Nothing, as long as no input has failed and one is missing. -/
  | unresolved (succeeded : ∀ i ∈ told, ∃ v, J.Filled told i v)
      (missing : ∃ i < J.inputs.length, ∀ v, ¬ J.Filled told i v) :
      Verdict J trace? told (.unresolved [])
  /-- The error of the first one that has failed. -/
  | failed {before after : List Nat} {i : Nat} {t : Trace P.Error}
      (split : told = before ++ i :: after) (succeeded : ∀ j ∈ before, ∃ v, J.Filled told j v)
      (failed : trace? i = some t) : Verdict J trace? told (.settled (.failed t.error (some t)))
  /-- All values. -/
  | fulfilled {vs : List P.Value} (values : J.inputs.map Timed.result = vs.map .ok) :
      Verdict J trace? told (.settled (.fulfilled (P.list vs)))

lemma Verdict.mono {J : TimedJoin P} {trace? trace?' : Nat → Option (Trace P.Error)}
    {told : List Nat} {slot : Slot P} (h : J.Verdict trace? told slot)
    (htrace : ∀ i t, trace? i = some t → trace?' i = some t) : J.Verdict trace?' told slot := by
  cases h with
  | unresolved succeeded missing => exact .unresolved succeeded missing
  | failed split succeeded failed => exact .failed split succeeded (htrace _ _ failed)
  | fulfilled values => exact .fulfilled values

lemma Verdict.waiting_eq {J : TimedJoin P} {trace? : Nat → Option (Trace P.Error)}
    {told : List Nat} {slot : Slot P} (h : J.Verdict trace? told slot) : slot.waiting = [] := by
  cases h <;> rfl

end TimedJoin

/-- Whether a task runs a script, and not the callbacks of a promise. -/
def Task.isScript (task : Task (Work P)) : Bool :=
  match task.body with
  | .script _ => true
  | .delivery _ _ _ => false

/-- The tasks that wait at a turn of the drive: the callbacks of the inputs `told` have run, the
deliveries of `pending` wait, and then the timers of `left`. -/
structure World.Waits (J : TimedJoin P) (told pending left : List Nat) (w : World P) : Prop where
  timely : w.Timely
  timers : List.Forall₂ (Task.Times J.inputs J.start J.first J.turn) left
    (w.queue.waiting.filter Task.isScript)
  deliveries : List.Forall₂ (fun i t => t.due ≤ w.clock ∧
    ∃ o, (w.view (J.input i)).outcome? = some o ∧
      t.body = .delivery (J.input i) o [J.registration i]) pending
    (w.queue.waiting.filter fun t => !t.isScript)
  unresolved : ∀ i ∈ left, ∃ segment?,
    w.promises[J.first + i]? = some ⟨segment?, 1, .unresolved [J.registration i]⟩
  settled : ∀ i ∈ told ++ pending, ∃ t, J.inputs[i]? = some t ∧
    (w.view (J.input i)).settlement? = some (.ofResult t.result)

/-- The gathering holds the values of the inputs that have been told, as long as one is missing. -/
def World.HoldsOf (J : TimedJoin P) (told : List Nat) (w : World P) : Prop :=
  (∃ i < J.inputs.length, ∀ v, ¬ J.Filled told i v) →
    ∃ γ, w.gatherings[J.gathering.index]? = some γ ∧ γ.Holds J.inputs.length (J.Filled told)

/-- The result is as the inputs that have been told decide. -/
def World.Decided (J : TimedJoin P) (told : List Nat) (w : World P) : Prop :=
  ∃ segment? slot, w.promises[J.first + J.inputs.length]? = some ⟨segment?, 0, slot⟩ ∧
    J.Verdict (fun i => (w.view (J.input i)).trace?) told slot

/-- A turn of the drive. -/
structure World.Underway (J : TimedJoin P) (told pending left : List Nat) (w : World P) : Prop
    extends World.Waits J told pending left w where
  holds : w.HoldsOf J told
  decided : w.Decided J told

namespace World

variable {w w₀ : World P} {ts : List (Timed P)} {order : List Nat} {i j : Nat}

/-- The observers of a join are registered on inputs that are being timed. -/
structure Registering (J : TimedJoin P) (w₁ : World P) (i : Nat) (w : World P) : Prop where
  clock : w.clock = w₁.clock
  queue : w.queue = w₁.queue
  gathering : w.gatherings[J.gathering.index]? = some (.empty J.inputs.length)
  result : ∃ segment?,
    w.promises[J.first + J.inputs.length]? = some ⟨segment?, 0, .unresolved []⟩
  observed : ∀ j < i, ∃ segment?,
    w.promises[J.first + j]? = some ⟨segment?, 1, .unresolved [J.registration j]⟩
  fresh : ∀ j < J.inputs.length, i ≤ j → ∃ segment?,
    w.promises[J.first + j]? = some ⟨segment?, 0, .unresolved []⟩

/-- One more observer is registered. -/
lemma Registering.next {J : TimedJoin P} {w₁ : World P} (h : Registering J w₁ i w)
    (hi : i < J.inputs.length) :
    Registering J w₁ (i + 1)
      (w.observe (J.input i) (Script.gatherer J.result J.gathering i)) := by
  obtain ⟨segment?, hfresh⟩ := h.fresh i hi (Nat.le_refl i)
  have hput := getElem?_putPromise (p := J.input i)
    ⟨segment?, 1, .unresolved [J.registration i]⟩ hfresh
  rw [observe_unresolved (p := J.input i) hfresh]
  refine ⟨h.clock, h.queue, h.gathering, ?_, fun j hj => ?_, fun j hj hij => ?_⟩
  · obtain ⟨segment?, hr⟩ := h.result
    refine ⟨segment?, (hput _).trans ?_⟩
    rw [if_neg (by simp only [TimedJoin.input]; omega), hr]
  · by_cases hji : j = i
    · subst hji
      exact ⟨segment?, (hput _).trans (if_pos rfl)⟩
    · obtain ⟨segment?, hobserved⟩ := h.observed j (by omega)
      refine ⟨segment?, (hput _).trans ?_⟩
      rw [if_neg (by simp only [TimedJoin.input]; omega), hobserved]
  · obtain ⟨segment?, hj'⟩ := h.fresh j hj (by omega)
    refine ⟨segment?, (hput _).trans ?_⟩
    rw [if_neg (by simp only [TimedJoin.input]; omega), hj']

lemma Timing.timely (h : w₀.Timing ts i order w) : w.Timely := by
  refine ⟨h.ordered, fun t ht => ?_⟩
  obtain ⟨j, -, ⟨_, -, hdue, -⟩, -⟩ := exists_of_forall₂ h.timers ht
  rw [h.clock]
  exact Duration.le_of_add?_eq_some hdue

lemma Timing.isScript (h : w₀.Timing ts i order w) : ∀ t ∈ w.queue.waiting, t.isScript = true := by
  intro t ht
  obtain ⟨j, -, ⟨_, -, -, hbody⟩, -⟩ := exists_of_forall₂ h.timers ht
  rw [Task.isScript, hbody]

/-- The drive begins when the join has been called. -/
lemma Timing.underway {J : TimedJoin P} (h : w₀.Timing J.inputs J.inputs.length order w)
    (hstart : J.start = w₀.clock) (hfirst : J.first = w₀.promises.size)
    (hturn : J.turn = w₀.queue.scheduled) {w' : World P} (hclock : w'.clock = w.clock)
    (hqueue : w'.queue = w.queue)
    (observed : ∀ j < J.inputs.length, ∃ segment?,
      w'.promises[J.first + j]? = some ⟨segment?, 1, .unresolved [J.registration j]⟩)
    (gathering : (∃ i < J.inputs.length, ∀ v, ¬ J.Filled [] i v) →
      w'.gatherings[J.gathering.index]? = some (.empty J.inputs.length))
    (decided : w'.Decided J []) : w'.Underway J [] [] order := by
  have hscripts := h.isScript
  rw [← hqueue] at hscripts
  refine ⟨⟨⟨?_, ?_⟩, ?_, ?_, fun j hj => ?_, by simp⟩, fun hmissing => ?_, decided⟩
  · rw [hqueue]
    exact h.ordered
  · rw [hqueue, hclock]
    exact h.timely.clock_le
  · rw [List.filter_eq_self.mpr hscripts, hqueue, hstart, hfirst, hturn]
    exact h.timers
  · rw [List.filter_eq_nil_iff.mpr fun t ht => by simp [hscripts t ht]]
    exact .nil
  · exact observed j (List.mem_range.mp (h.perm.mem_iff.mp hj))
  · exact ⟨_, gathering hmissing, Gathering.holds_empty _ (by simp [TimedJoin.Filled])⟩

/-- The timers wait in the order of their delays, those of one delay in that of their inputs. -/
lemma Timing.pairwise (h : w₀.Timing ts i order w) : order.Pairwise fun i j =>
    ∀ t u, ts[i]? = some t → ts[j]? = some u →
      t.delay.nanos < u.delay.nanos ∨ t.delay.nanos = u.delay.nanos ∧ i < j := by
  refine pairwise_of_forall₂ h.timers h.ordered.sorted ?_
  rintro i j x y ⟨⟨t, ht, hx, -⟩, hturn⟩ ⟨⟨u, hu, hy, -⟩, hturn'⟩ hprecedes t' u' ht' hu'
  cases ht.symm.trans ht'
  cases hu.symm.trans hu'
  have hx := Duration.add?_eq_some_iff.mp hx
  have hy := Duration.add?_eq_some_iff.mp hy
  have hlt := Task.precedes_iff.mp hprecedes
  omega

/-- A join of no inputs is over when it is called. -/
lemma exists_underway_nil (h : w₀.Timing ([] : List (Timed P)) 0 order w)
    (k : PromiseId → Script P Unit) (rest : List (Activity P)) :
    ∃ w' : World P, Machine.Reaches ⟨w, .script ((Script.join []).bind k) :: rest⟩
        ⟨w', .script (k ⟨w₀.promises.size⟩) :: rest⟩ ∧
      w'.Underway ⟨[], w₀.clock, w₀.promises.size, w₀.queue.scheduled, ⟨0⟩⟩ [] [] order := by
  obtain ⟨w₁, segment?, performed, promises, clock, queue, -⟩ := perform_create w
  have hsize : w.promises.size = w₀.promises.size := h.size
  rw [hsize] at performed
  have hnew : w₁.promises[w₀.promises.size]? = some ⟨segment?, 0, .unresolved []⟩ := by
    rw [promises, ← hsize, Array.getElem?_push_size]
  rw [Script.join_nil_bind]
  refine ⟨(w₁.settle ⟨w₀.promises.size⟩ (.fulfilled (P.list []))).2,
    (Machine.Step.operate performed).reaches.trans (Machine.Step.operate rfl).reaches, ?_⟩
  rw [settle_unresolved (p := ⟨w₀.promises.size⟩) hnew]
  refine h.underway rfl rfl rfl ?_ ?_ (by simp) (by simp)
    ⟨segment?, .settled (.fulfilled (P.list [])), ?_, .fulfilled rfl⟩
  · rw [clock_deliver]
    exact clock
  · rw [queue_deliver, Queue.deliver_of_forall_not (by simp)]
    exact queue
  · rw [promises_deliver, putPromise, getElem?_putPromise (p := ⟨w₀.promises.size⟩) _ hnew]
    exact if_pos rfl

/-- The observers of a join are registered one after the other. -/
lemma exists_registering (h : w₀.Timing ts ts.length order w) (hne : ts ≠ [])
    (k : PromiseId → Script P Unit) (rest : List (Activity P)) :
    ∃ (w' : World P) (J : TimedJoin P), Machine.Reaches
        ⟨w, .script ((Script.join (w₀.names ts.length)).bind k) :: rest⟩
        ⟨w', .script (k J.result) :: rest⟩ ∧
      J.inputs = ts ∧ J.start = w₀.clock ∧ J.first = w₀.promises.size ∧
        J.turn = w₀.queue.scheduled ∧ Registering J w ts.length w' := by
  obtain ⟨w₁, segment?, performed, promises, clock, queue, unfilled⟩ := perform_create w
  have hsize := h.size
  rw [hsize] at performed
  have hnames : w₀.names ts.length ≠ [] := by simpa [names] using hne
  have hlength : (w₀.names ts.length).length = ts.length := by simp [names]
  rw [Script.join_bind_of_ne_nil hnames, hlength]
  let J : TimedJoin P :=
    ⟨ts, w₀.clock, w₀.promises.size, w₀.queue.scheduled, ⟨w₁.gatherings.size⟩⟩
  -- the gathering is made, and nobody has been registered
  have hbegin : Registering J w 0
      { w₁ with gatherings := w₁.gatherings.push (.empty ts.length) } := by
    refine ⟨clock, queue, Array.getElem?_push_size, ⟨segment?, ?_⟩, by simp, fun j hj _ => ?_⟩
    · change w₁.promises[w₀.promises.size + ts.length]? = _
      rw [promises, ← hsize, Array.getElem?_push_size]
    · obtain ⟨segment?, hfresh⟩ := h.fresh j hj
      refine ⟨segment?, ?_⟩
      change w₁.promises[w₀.promises.size + j]? = _
      rw [promises, Array.getElem?_push, if_neg (by have : j < ts.length := hj; omega), hfresh]
  have hstage : ∀ i ≤ ts.length, ∃ w', Machine.Reaches
      ⟨{ w₁ with gatherings := w₁.gatherings.push (.empty ts.length) },
        .script ((Script.gatherEach J.result J.gathering 0 (w₀.names ts.length)).bind
          fun _ => k J.result) :: rest⟩
      ⟨w', .script ((Script.gatherEach J.result J.gathering i ((w₀.names ts.length).drop i)).bind
          fun _ => k J.result) :: rest⟩ ∧ Registering J w i w' := by
    intro i
    induction i with
    | zero => exact fun _ => ⟨_, .refl _, hbegin⟩
    | succ i ih =>
      intro hi
      obtain ⟨w', hreach, hw'⟩ := ih (Nat.le_of_succ_le hi)
      have hi' : i < (w₀.names ts.length).length := by
        rw [hlength]
        exact hi
      have hget : (w₀.names ts.length)[i] = J.input i := by simp [names, J, TimedJoin.input]
      rw [List.drop_eq_getElem_cons hi', hget, Script.gatherEach_cons_bind] at hreach
      exact ⟨_, hreach.trans (Machine.Step.operate rfl).reaches, hw'.next hi⟩
  obtain ⟨w', hreach, hw'⟩ := hstage ts.length (Nat.le_refl _)
  rw [List.drop_of_length_le (by rw [hlength])] at hreach
  refine ⟨w', J, ?_, rfl, rfl, rfl, rfl, hw'⟩
  exact (Machine.Step.operate performed).reaches.trans
    ((Machine.Step.operate rfl).reaches.trans hreach)

/-- The join of the inputs is called. -/
lemma exists_underway (h : w₀.Timing ts ts.length order w) (k : PromiseId → Script P Unit)
    (rest : List (Activity P)) :
    ∃ (w' : World P) (J : TimedJoin P), Machine.Reaches
        ⟨w, .script ((Script.join (w₀.names ts.length)).bind k) :: rest⟩
        ⟨w', .script (k J.result) :: rest⟩ ∧
      J.inputs = ts ∧ J.start = w₀.clock ∧ J.first = w₀.promises.size ∧
        w'.Underway J [] [] order := by
  by_cases hne : ts = []
  · subst hne
    obtain ⟨w', hreach, hw'⟩ := exists_underway_nil h k rest
    exact ⟨w', ⟨[], _, _, _, _⟩, hreach, rfl, rfl, rfl, hw'⟩
  · obtain ⟨w', J, hreach, rfl, hstart, hfirst, hturn, hw'⟩ := exists_registering h hne k rest
    obtain ⟨segment?, hr⟩ := hw'.result
    have hpos := List.length_pos_iff.mpr hne
    refine ⟨w', J, hreach, rfl, hstart, hfirst, h.underway hstart hfirst hturn hw'.clock hw'.queue
      hw'.observed (fun _ => hw'.gathering) ⟨segment?, _, hr, .unresolved (by simp) ⟨0, hpos, ?_⟩⟩⟩
    simp [TimedJoin.Filled]

end World

end Eventual
