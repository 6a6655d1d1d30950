import Eventual.Proofs.Schedule
import Eventual.Proofs.Settlement
import Mathlib.Algebra.Order.Group.Multiset

/-!
# Who is still to be told

An observer that was registered on a promise is in one of three places until its callback is run: on
the list of the promise, in a task that waits, or in a delivery that is under way.  Together they
are the outstanding observers of the promise, and `Machine.Fate` lists what a step can do to them:
an observer comes in, or comes too late, or is called, or is dropped since the promise did not end
the way it waits for.  Their numbers are all different (`Machine.Numbered`), and every delivery
carries what its promise ended with, for observers that wait for it (`Machine.Truthful`).
-/

namespace Eventual

variable {P : Payload}

/-! ## The outcome of a promise -/

namespace View

variable {V E : Type} {v : View V E}

/-- What those who wait for the promise receive, once it is settled. -/
def outcome? (v : View V E) : Option (Outcome V E) := v.settlement?.map (·.outcome v.segment?)

lemma outcome?_eq_succeeded_iff {x : V} :
    v.outcome? = some (.succeeded x) ↔ v.result? = some (.ok x) := by
  obtain ⟨segment?, _ | _ | _⟩ := v <;> simp [outcome?, result?, Settlement.outcome]

lemma outcome?_eq_failed_iff {t : Trace E} :
    v.outcome? = some (.failed t) ↔ v.trace? = some t := by
  obtain ⟨segment?, _ | _ | _⟩ := v <;> simp [outcome?, trace?, Settlement.outcome]

lemma outcome?_of_settlement? {s : Settlement V E} (h : v.settlement? = some s) :
    v.outcome? = some (s.outcome v.segment?) := by
  rw [outcome?, h, Option.map_some]

lemma state_eq_unresolved_iff : v.state = .unresolved ↔ v.settlement? = none := by
  obtain ⟨segment?, _ | _ | _⟩ := v <;> simp [state, Settlement.state]

lemma state_eq_succeeded_iff : v.state = .succeeded ↔ ∃ x, v.outcome? = some (.succeeded x) := by
  obtain ⟨segment?, _ | _ | _⟩ := v <;>
    simp [state, Settlement.state, outcome?, Settlement.outcome]

lemma state_eq_failed_iff : v.state = .failed ↔ ∃ t, v.outcome? = some (.failed t) := by
  obtain ⟨segment?, _ | _ | _⟩ := v <;>
    simp [state, Settlement.state, outcome?, Settlement.outcome]

lemma state_of_settlement? {s : Settlement V E} (h : v.settlement? = some s) :
    v.state = s.state := by
  rw [state, h]

lemma state_of_result?_ok {x : V} (h : v.result? = some (.ok x)) : v.state = .succeeded :=
  state_eq_succeeded_iff.mpr ⟨x, outcome?_eq_succeeded_iff.mpr h⟩

lemma state_of_trace? {t : Trace E} (h : v.trace? = some t) : v.state = .failed :=
  state_eq_failed_iff.mpr ⟨t, outcome?_eq_failed_iff.mpr h⟩

lemma result?_of_unresolved (h : v.state = .unresolved) : v.result? = none := by
  rw [result?, state_eq_unresolved_iff.mp h]

lemma result?_of_trace? {t : Trace E} (h : v.trace? = some t) :
    v.result? = some (.error t.error) := by
  obtain ⟨segment?, _ | _ | ⟨e, cause?⟩⟩ := v
  · cases h
  · cases h
  · cases h
    exact congrArg (some ∘ Except.error) (Trace.error_ofFailure e segment? cause?).symm

end View

/-! ## Outstanding observers -/

/-- Those who wait on the list of a promise. -/
def Slot.waiting : Slot P → List (Registration P)
  | .unresolved rs => rs
  | .settled _ => []

@[simp] lemma Slot.waiting_unresolved (rs : List (Registration P)) :
    (unresolved rs).waiting = rs :=
  rfl

@[simp] lemma Slot.waiting_settled (s : Settlement P.Value P.Error) :
    (settled s : Slot P).waiting = [] :=
  rfl

/-- The observers of a promise that a task is to tell. -/
def Work.toTell (p : PromiseId) : Work P → List (Registration P)
  | .script _ => []
  | .delivery q _ rs => if q = p then rs else []

/-- The observers of a promise that a delivery has yet to tell. -/
def Activity.toTell (p : PromiseId) : Activity P → List (Registration P)
  | .delivery q _ rs => if q = p then rs else []
  | _ => []

@[simp] lemma Activity.toTell_script (p : PromiseId) (s : Script P Unit) :
    (script s).toTell p = [] :=
  rfl

@[simp] lemma Activity.toTell_drive (p : PromiseId) (h : Horizon) (ran : Nat)
    (k : Nat → Script P Unit) : (drive h ran k).toTell p = [] :=
  rfl

@[simp] lemma Activity.toTell_ofWork (p : PromiseId) (work : Work P) :
    (ofWork work).toTell p = work.toTell p := by
  cases work <;> rfl

/-- The observers of a promise in the tasks that wait. -/
def Queue.toTell (q : Queue (Work P)) (p : PromiseId) : Multiset (Registration P) :=
  ↑(q.waiting.flatMap fun t => t.body.toTell p)

namespace World

/-- The number of observers registered on a promise so far. -/
def observed (w : World P) (p : PromiseId) : Nat := (w.promises[p.index]?).elim 0 Promise.observed

/-- Those who wait on the list of a promise, in the order of their registration. -/
def waitingFor (w : World P) (p : PromiseId) : List (Registration P) :=
  (w.promises[p.index]?).elim [] fun promise => promise.slot.waiting

/-- The observers of a promise that wait on its list or in a task. -/
def outstanding (w : World P) (p : PromiseId) : Multiset (Registration P) :=
  ↑(w.waitingFor p) + w.queue.toTell p

end World

/-- Whether an operation is the registration of an observer. -/
def Op.isObserve : {ρ : Type} → Op P ρ → Bool
  | _, observe _ _ => true
  | _, _ => false

namespace Machine

/-- The observers of a promise whose callbacks have not been run and may have to be. -/
def outstanding (m : Machine P) (p : PromiseId) : Multiset (Registration P) :=
  m.world.outstanding p + ↑(m.stack.flatMap (·.toTell p))

/-- An observer is about to be registered on an existing promise. -/
def Observes (m : Machine P) (p : PromiseId) (ob : Observer P) : Prop :=
  p.index < m.world.promises.size ∧ ∃ k rest, m.stack = .script (.op (.observe p ob) k) :: rest

lemma Observes.isObserve {w : World P} {p : PromiseId} {ob : Observer P} {ρ : Type} {o : Op P ρ}
    {k : ρ → Script P Unit} {rest : List (Activity P)}
    (h : Observes ⟨w, .script (.op o k) :: rest⟩ p ob) : o.isObserve = true := by
  obtain ⟨-, k', rest', hstack⟩ := h
  cases hstack
  rfl

/-- The callback of the `n`-th observer of a promise is about to be run; with what it is given it is
the script `body`. -/
def Calls (m : Machine P) (p : PromiseId) (n : Nat) (body : Script P Unit) : Prop :=
  ∃ o r rs rest, m.stack = .delivery p o (r :: rs) :: rest ∧ r.number = n ∧
    r.observer.handler? o = some body

/-- A delivery waits or is under way. -/
def Delivers (m : Machine P) (p : PromiseId) (o : Outcome P.Value P.Error)
    (rs : List (Registration P)) : Prop :=
  (∃ t ∈ m.world.queue.waiting, t.body = .delivery p o rs) ∨ .delivery p o rs ∈ m.stack

/-- What goes out about a promise is what it ended with, and it goes out to those who wait for
that. -/
def Truthful (m : Machine P) : Prop :=
  ∀ p o rs, m.Delivers p o rs →
    (m.world.view p).outcome? = some o ∧ ∀ r ∈ rs, r.observer.awaits o = true

/-- The outstanding observers of a promise have different numbers, which have been given out. -/
structure Numbered (m : Machine P) (p : PromiseId) : Prop where
  nodup : ((m.outstanding p).map Registration.number).Nodup
  lt_observed : ∀ r ∈ m.outstanding p, r.number < m.world.observed p

/-- What a step does to the outstanding observers of a promise. -/
inductive Fate (m m' : Machine P) (p : PromiseId) : Prop
  /-- Nothing, but some may be dropped that do not wait for what the promise ended with. -/
  | keep (dropped : Multiset (Registration P)) (silent : ∀ ob, ¬ m.Observes p ob)
      (outstanding : m.outstanding p = dropped + m'.outstanding p)
      (observed : m'.world.observed p = m.world.observed p)
      (unmatched : ∀ r ∈ dropped, ∃ o, (m'.world.view p).outcome? = some o ∧
        ¬ r.observer.awaits o = true)
  /-- An observer comes in. -/
  | register (ob : Observer P) (observes : m.Observes p ob)
      (outstanding : m'.outstanding p = ⟨m.world.observed p, ob⟩ ::ₘ m.outstanding p)
      (observed : m'.world.observed p = m.world.observed p + 1)
  /-- An observer comes that waits for something else than what the promise ended with. -/
  | miss (ob : Observer P) (observes : m.Observes p ob)
      (unmatched : ∃ o, (m'.world.view p).outcome? = some o ∧ ¬ ob.awaits o = true)
      (outstanding : m'.outstanding p = m.outstanding p)
      (observed : m'.world.observed p = m.world.observed p + 1)
  /-- The callback of an observer is run. -/
  | call (r : Registration P) (body : Script P Unit) (calls : m.Calls p r.number body)
      (outstanding : m.outstanding p = r ::ₘ m'.outstanding p)
      (observed : m'.world.observed p = m.world.observed p)

end Machine

/-! ## How the places change -/

namespace Queue

variable {q : Queue (Work P)}

lemma toTell_add (q : Queue (Work P)) (due : Duration) (body : Work P) (p : PromiseId) :
    (q.add due body).toTell p = ↑(body.toTell p) + q.toTell p := by
  rw [toTell, toTell, Multiset.coe_add, Multiset.coe_eq_coe]
  exact (insertTask_perm ⟨due, q.scheduled, body⟩ q.waiting).flatMap_right _

lemma toTell_deliver (q : Queue (Work P)) (clock : Duration) (p : PromiseId)
    (o : Outcome P.Value P.Error) (rs : List (Registration P)) :
    (q.deliver clock p o rs).toTell p = ↑(rs.filter (·.observer.awaits o)) + q.toTell p := by
  by_cases h : ∃ r ∈ rs, r.observer.awaits o = true
  · rw [deliver_of_exists h, toTell_add, Work.toTell, if_pos rfl]
  · have hnil : rs.filter (·.observer.awaits o) = [] :=
      List.filter_eq_nil_iff.mpr fun r hr ho => h ⟨r, hr, ho⟩
    rw [deliver_of_forall_not fun r hr ho => h ⟨r, hr, ho⟩, hnil, Multiset.coe_nil, zero_add]

lemma toTell_deliver_of_ne {p p' : PromiseId} (hne : p' ≠ p) (q : Queue (Work P))
    (clock : Duration) (o : Outcome P.Value P.Error) (rs : List (Registration P)) :
    (q.deliver clock p' o rs).toTell p = q.toTell p := by
  by_cases h : ∃ r ∈ rs, r.observer.awaits o = true
  · rw [deliver_of_exists h, toTell_add, Work.toTell, if_neg hne, Multiset.coe_nil, zero_add]
  · rw [deliver_of_forall_not fun r hr ho => h ⟨r, hr, ho⟩]

lemma toTell_eq_cons {t : Task (Work P)} {q' : Queue (Work P)} {h : Horizon}
    (taken : q.next? h = some (t, q')) (p : PromiseId) :
    q.toTell p = ↑(t.body.toTell p) + q'.toTell p := by
  rw [toTell, (next?_eq_some_iff.mp taken).1, List.flatMap_cons, ← Multiset.coe_add]
  rfl

end Queue

namespace World

variable {w w' : World P} {p : PromiseId}

lemma waitingFor_of_eq_some {a : Promise P} (h : w.promises[p.index]? = some a) :
    w.waitingFor p = a.slot.waiting := by
  rw [waitingFor, h, Option.elim_some]

lemma outstanding_of_eq_some {a : Promise P} (h : w.promises[p.index]? = some a) :
    w.outstanding p = ↑a.slot.waiting + w.queue.toTell p := by
  rw [outstanding, waitingFor_of_eq_some h]

lemma observed_of_eq_some {a : Promise P} (h : w.promises[p.index]? = some a) :
    w.observed p = a.observed := by
  rw [observed, h, Option.elim_some]

lemma outcome?_view_of_settled {segment? : Option Segment} {observed : Nat}
    {s : Settlement P.Value P.Error}
    (h : w.promises[p.index]? = some ⟨segment?, observed, .settled s⟩) :
    (w.view p).outcome? = some (s.outcome segment?) := by
  rw [view_of_eq_some h]
  rfl

end World

namespace Machine

variable {m m' : Machine P} {w w' : World P} {p : PromiseId} {rest : List (Activity P)}

lemma outstanding_script (w : World P) (s : Script P Unit) (rest : List (Activity P))
    (p : PromiseId) :
    outstanding ⟨w, .script s :: rest⟩ p = outstanding ⟨w, rest⟩ p := by
  rw [outstanding, outstanding, List.flatMap_cons, Activity.toTell_script, List.nil_append]

lemma outstanding_drive (w : World P) (h : Horizon) (ran : Nat) (k : Nat → Script P Unit)
    (rest : List (Activity P)) (p : PromiseId) :
    outstanding ⟨w, .drive h ran k :: rest⟩ p = outstanding ⟨w, rest⟩ p := by
  rw [outstanding, outstanding, List.flatMap_cons, Activity.toTell_drive, List.nil_append]

lemma outstanding_delivery (w : World P) (o : Outcome P.Value P.Error)
    (rs : List (Registration P)) (rest : List (Activity P)) (p : PromiseId) :
    outstanding ⟨w, .delivery p o rs :: rest⟩ p = ↑rs + outstanding ⟨w, rest⟩ p := by
  rw [outstanding, outstanding, List.flatMap_cons, Activity.toTell, if_pos rfl,
    ← Multiset.coe_add, add_left_comm]

lemma outstanding_delivery_of_ne {q : PromiseId} (hne : q ≠ p) (w : World P)
    (o : Outcome P.Value P.Error) (rs : List (Registration P)) (rest : List (Activity P)) :
    outstanding ⟨w, .delivery q o rs :: rest⟩ p = outstanding ⟨w, rest⟩ p := by
  rw [outstanding, outstanding, List.flatMap_cons, Activity.toTell, if_neg hne, List.nil_append]

lemma outstanding_call (w : World P) (o : Outcome P.Value P.Error) (r : Registration P)
    (rs : List (Registration P)) (body : Script P Unit) (rest : List (Activity P))
    (p : PromiseId) :
    outstanding ⟨w, .delivery p o (r :: rs) :: rest⟩ p =
      r ::ₘ outstanding ⟨w, .script body :: .delivery p o rs :: rest⟩ p := by
  rw [outstanding_script, outstanding_delivery, outstanding_delivery, ← Multiset.cons_coe,
    Multiset.cons_add]

lemma outstanding_of_world {rs : Multiset (Registration P)} (rest : List (Activity P))
    (h : w'.outstanding p = rs + w.outstanding p) :
    outstanding ⟨w', rest⟩ p = rs + outstanding ⟨w, rest⟩ p := by
  rw [outstanding, outstanding, h, add_assoc]

/-- An observer that is registered comes in or has missed what it waits for. -/
lemma fate_of_observes {ob : Observer P} {k : Unit → Script P Unit}
    (hp : p.index < w.promises.size) :
    Fate ⟨w, .script (.op (.observe p ob) k) :: rest⟩
      ⟨w.observe p ob, .script (k ()) :: rest⟩ p := by
  have hobserves : Observes ⟨w, .script (.op (.observe p ob) k) :: rest⟩ p ob :=
    ⟨hp, k, rest, rfl⟩
  obtain ⟨⟨segment?, observed, waiting | s⟩, ha⟩ : ∃ a, w.promises[p.index]? = some a :=
    ⟨_, Array.getElem?_eq_getElem hp⟩
  · have hb : (w.observe p ob).promises[p.index]? =
        some ⟨segment?, observed + 1, .unresolved (waiting ++ [⟨observed, ob⟩])⟩ := by
      rw [World.observe_unresolved ha, World.putPromise, World.getElem?_putPromise _ ha, if_pos rfl]
    have hq : (w.observe p ob).queue = w.queue := by
      rw [World.observe_unresolved ha, World.putPromise]
    refine .register ob hobserves ?_ ?_
    · rw [outstanding_script, outstanding_script, ← Multiset.singleton_add]
      refine outstanding_of_world rest ?_
      rw [World.outstanding_of_eq_some ha, World.outstanding_of_eq_some hb, hq,
        World.observed_of_eq_some ha, Slot.waiting_unresolved, Slot.waiting_unresolved,
        ← Multiset.coe_add, add_comm (waiting : Multiset (Registration P)), add_assoc]
      rfl
    · rw [World.observed_of_eq_some ha, World.observed_of_eq_some hb]
  · have hb : (w.observe p ob).promises[p.index]? = some ⟨segment?, observed + 1, .settled s⟩ := by
      rw [World.observe_settled ha, World.promises_deliver, World.putPromise,
        World.getElem?_putPromise _ ha, if_pos rfl]
    have hq : (w.observe p ob).queue.toTell p =
        ↑(if ob.awaits (s.outcome segment?) = true then [(⟨observed, ob⟩ : Registration P)]
            else []) +
          w.queue.toTell p := by
      rw [World.observe_settled ha, World.queue_deliver, Queue.toTell_deliver, List.filter_cons,
        List.filter_nil, World.putPromise]
    have hcount : (w.observe p ob).observed p = w.observed p + 1 := by
      rw [World.observed_of_eq_some ha, World.observed_of_eq_some hb]
    by_cases hawaits : ob.awaits (s.outcome segment?) = true
    · refine .register ob hobserves ?_ hcount
      rw [outstanding_script, outstanding_script, ← Multiset.singleton_add]
      refine outstanding_of_world rest ?_
      rw [World.outstanding_of_eq_some ha, World.outstanding_of_eq_some hb, hq,
        World.observed_of_eq_some ha, if_pos hawaits, add_left_comm]
      rfl
    · refine .miss ob hobserves ⟨_, World.outcome?_view_of_settled hb, hawaits⟩ ?_ hcount
      rw [outstanding_script, outstanding_script, outstanding, outstanding,
        World.outstanding_of_eq_some ha, World.outstanding_of_eq_some hb, hq,
        if_neg hawaits, Multiset.coe_nil, zero_add]

/-- Nothing changes for a promise that is as before or has just been made. -/
lemma fate_of_untouched {ρ : Type} {o : Op P ρ} {r : ρ} {k : ρ → Script P Unit}
    (silent : ∀ ob, ¬ Observes ⟨w, .script (.op o k) :: rest⟩ p ob)
    (hp : w'.promises[p.index]? = w.promises[p.index]? ∨ w.promises[p.index]? = none ∧
      ∃ segment?, w'.promises[p.index]? = some ⟨segment?, 0, .unresolved []⟩)
    (hqueue : w'.queue.toTell p = w.queue.toTell p) :
    Fate ⟨w, .script (.op o k) :: rest⟩ ⟨w', .script (k r) :: rest⟩ p := by
  have hsame : w'.waitingFor p = w.waitingFor p ∧ w'.observed p = w.observed p := by
    unfold World.waitingFor World.observed
    rcases hp with hp | ⟨hnone, segment?, hp⟩
    · rw [hp]
      exact ⟨rfl, rfl⟩
    · rw [hp, hnone]
      exact ⟨rfl, rfl⟩
  refine .keep 0 silent ?_ hsame.2 (by simp)
  rw [outstanding_script, outstanding_script, zero_add, outstanding, outstanding,
    World.outstanding, World.outstanding, hsame.1, hqueue]

/-- A settlement moves those who wait for it into a task, and drops the others. -/
lemma outstanding_of_settle {segment? : Option Segment} {observed : Nat}
    {waiting : List (Registration P)} {s : Settlement P.Value P.Error}
    (before : w.promises[p.index]? = some ⟨segment?, observed, .unresolved waiting⟩)
    (after : w'.promises[p.index]? = some ⟨segment?, observed, .settled s⟩)
    (queue : w'.queue = w.queue.deliver w.clock p (s.outcome segment?) waiting) :
    w.outstanding p =
      ↑(waiting.filter fun r => !r.observer.awaits (s.outcome segment?)) + w'.outstanding p := by
  have hparts : (waiting : Multiset (Registration P)) =
      ↑(waiting.filter fun r => !r.observer.awaits (s.outcome segment?)) +
        ↑(waiting.filter (·.observer.awaits (s.outcome segment?))) := by
    rw [add_comm, Multiset.coe_add, Multiset.coe_eq_coe]
    exact (List.filter_append_perm _ waiting).symm
  rw [World.outstanding_of_eq_some before, World.outstanding_of_eq_some after, queue,
    Queue.toTell_deliver, Slot.waiting_unresolved, Slot.waiting_settled, hparts,
    Multiset.coe_nil, zero_add, add_assoc]

/-- An operation that registers no observer of a promise adds none, and drops at most some who wait
for something else than what the promise has ended with. -/
lemma fate_of_effect {ρ : Type} {o : Op P ρ} {r : ρ} {k : ρ → Script P Unit}
    (h : World.Effect w w' o)
    (silent : ∀ ob, ¬ Observes ⟨w, .script (.op o k) :: rest⟩ p ob) :
    Fate ⟨w, .script (.op o k) :: rest⟩ ⟨w', .script (k r) :: rest⟩ p := by
  have other : ∀ {q : PromiseId} {b : Promise P}, q ≠ p →
      w'.promises = w.promises.setIfInBounds q.index b → w'.queue.toTell p = w.queue.toTell p →
      Fate ⟨w, .script (.op o k) :: rest⟩ ⟨w', .script (k r) :: rest⟩ p := by
    intro q b hne hpromises hqueue
    refine fate_of_untouched silent (Or.inl ?_) hqueue
    rw [hpromises, Array.getElem?_setIfInBounds, if_neg fun hi => hne (congrArg PromiseId.mk hi)]
  cases h with
  | still promises queue =>
    exact fate_of_untouched silent (Or.inl (by rw [promises])) (by rw [queue])
  | make segment? promises queue =>
    refine fate_of_untouched silent ?_ (by rw [queue])
    rw [promises, Array.getElem?_push]
    split
    · rename_i hi
      exact Or.inr ⟨Array.getElem?_eq_none (Nat.le_of_eq hi.symm), segment?, rfl⟩
    · exact Or.inl rfl
  | schedule instant promises queue =>
    refine fate_of_untouched silent (Or.inl (by rw [promises])) ?_
    rw [queue, Queue.toTell_add, Work.toTell, Multiset.coe_nil, zero_add]
  | @settle q segment? observed waiting s before promises queue =>
    by_cases hq : q = p
    · subst hq
      have after : w'.promises[q.index]? = some ⟨segment?, observed, .settled s⟩ := by
        rw [promises, World.getElem?_putPromise _ before, if_pos rfl]
      refine .keep ↑(waiting.filter fun r => !r.observer.awaits (s.outcome segment?)) silent
        ?_ ?_ ?_
      · rw [outstanding_script, outstanding_script]
        exact outstanding_of_world rest (outstanding_of_settle before after queue)
      · rw [World.observed_of_eq_some before, World.observed_of_eq_some after]
      · intro r hr
        refine ⟨_, World.outcome?_view_of_settled after, ?_⟩
        simpa using (List.mem_filter.mp hr).2
    · refine other hq promises ?_
      rw [queue, Queue.toTell_deliver_of_ne hq]
  -- an observer is registered, but not one of this promise
  | @enlist q _ _ _ ob before promises queue =>
    by_cases hq : q = p
    · subst hq
      exact absurd ⟨(Array.getElem?_eq_some_iff.mp before).1, k, rest, rfl⟩ (silent ob)
    · exact other hq promises (by rw [queue])
  | @inform q _ _ _ ob before promises queue =>
    by_cases hq : q = p
    · subst hq
      exact absurd ⟨(Array.getElem?_eq_some_iff.mp before).1, k, rest, rfl⟩ (silent ob)
    · refine other hq promises ?_
      rw [queue, Queue.toTell_deliver_of_ne hq]

/-- **Every step keeps the outstanding observers, or adds, calls or drops some.** -/
theorem Step.fate (h : m.Step m') (hm : m.Truthful) (p : PromiseId) : Fate m m' p := by
  have keep : (∀ ob, ¬ m.Observes p ob) → m'.outstanding p = m.outstanding p →
      m'.world.observed p = m.world.observed p → Fate m m' p := by
    intro silent houtstanding hobserved
    exact .keep 0 silent (by rw [houtstanding, zero_add]) hobserved (by simp)
  cases h with
  | @operate w w' _ o k r rest performed =>
    by_cases hobserves : ∃ ob, Observes ⟨w, .script (.op o k) :: rest⟩ p ob
    · obtain ⟨ob, hp, k', rest', hstack⟩ := hobserves
      cases hstack
      cases performed
      exact fate_of_observes hp
    · exact fate_of_effect (World.effect_of_perform performed).2 fun ob h => hobserves ⟨ob, h⟩
  | finish => exact keep (by simp [Observes]) (outstanding_script ..).symm rfl
  | drive =>
    refine keep (by simp [Observes]) ?_ rfl
    rw [outstanding_script, outstanding_drive]
  | attempt =>
    refine keep (by simp [Observes]) ?_ rfl
    rw [outstanding_script, outstanding_script, outstanding_script]
  | @delivered w q o rest =>
    refine keep (by simp [Observes]) ?_ rfl
    by_cases hq : q = p
    · subst hq
      rw [outstanding_delivery, Multiset.coe_nil, zero_add]
    · rw [outstanding_delivery_of_ne hq]
  | @call w q o r rs body rest handler =>
    by_cases hq : q = p
    · subst hq
      exact .call r body ⟨o, r, rs, rest, rfl, rfl, handler⟩ (outstanding_call ..) rfl
    · refine keep (by simp [Observes]) ?_ rfl
      rw [outstanding_script, outstanding_delivery_of_ne hq, outstanding_delivery_of_ne hq]
  | @leaveOut w q o r rs rest handler =>
    have hawaits := (hm q o (r :: rs) (Or.inr (.head rest))).2 r (.head rs)
    rw [Observer.awaits, handler] at hawaits
    cases hawaits
  | @start w hor ran k t q rest taken =>
    refine keep (by simp [Observes]) ?_ rfl
    change ↑(w.waitingFor p) + q.toTell p + ↑((Activity.ofWork t.body).toTell p ++
      rest.flatMap (·.toTell p)) =
        ↑(w.waitingFor p) + w.queue.toTell p + ↑(rest.flatMap (·.toTell p))
    rw [Queue.toTell_eq_cons taken, Activity.toTell_ofWork, ← Multiset.coe_add]
    ac_rfl
  | driven =>
    refine keep (by simp [Observes]) ?_ rfl
    rw [outstanding_drive, outstanding_script]
    rfl

end Machine

/-! ## What goes out -/

lemma Activity.ofWork_eq_delivery_iff {work : Work P} {p : PromiseId}
    {o : Outcome P.Value P.Error} {rs : List (Registration P)} :
    Activity.ofWork work = .delivery p o rs ↔ work = .delivery p o rs := by
  cases work <;> simp [Activity.ofWork]

lemma Queue.mem_deliver {q : Queue (Work P)} {clock : Duration} {p : PromiseId}
    {o : Outcome P.Value P.Error} {rs : List (Registration P)} {t : Task (Work P)}
    (h : t ∈ (q.deliver clock p o rs).waiting) :
    t ∈ q.waiting ∨ t.body = .delivery p o (rs.filter (·.observer.awaits o)) := by
  by_cases hex : ∃ r ∈ rs, r.observer.awaits o = true
  · rw [deliver_of_exists hex] at h
    rcases mem_insertTask.mp h with rfl | h
    · exact Or.inr rfl
    · exact Or.inl h
  · rw [deliver_of_forall_not fun r hr ho => hex ⟨r, hr, ho⟩] at h
    exact Or.inl h

/-- A delivery that an operation hands over is truthful. -/
lemma World.Effect.delivery {w w' : World P} {ρ : Type} {op : Op P ρ} (h : Effect w w' op)
    {t : Task (Work P)} {p : PromiseId} {o : Outcome P.Value P.Error} {rs : List (Registration P)}
    (ht : t ∈ w'.queue.waiting) (hbody : t.body = .delivery p o rs) :
    t ∈ w.queue.waiting ∨
      (w'.view p).outcome? = some o ∧ ∀ r ∈ rs, r.observer.awaits o = true := by
  -- a delivery for a promise that is now settled
  have sent : ∀ {q : PromiseId} {a : Promise P} {segment? : Option Segment} {observed : Nat}
      {s : Settlement P.Value P.Error} {all : List (Registration P)},
      w.promises[q.index]? = some a →
      w'.promises = w.promises.setIfInBounds q.index ⟨segment?, observed, .settled s⟩ →
      w'.queue = w.queue.deliver w.clock q (s.outcome segment?) all →
      t ∈ w.queue.waiting ∨
        (w'.view p).outcome? = some o ∧ ∀ r ∈ rs, r.observer.awaits o = true := by
    intro q a segment? observed s all before promises queue
    rw [queue] at ht
    rcases Queue.mem_deliver ht with ht | heq
    · exact Or.inl ht
    · obtain ⟨rfl, rfl, rfl⟩ : q = p ∧ s.outcome segment? = o ∧ _ = rs :=
        Work.delivery.inj (heq.symm.trans hbody)
      refine Or.inr ⟨?_, fun r hr => (List.mem_filter.mp hr).2⟩
      apply outcome?_view_of_settled
      rw [promises, getElem?_putPromise _ before, if_pos rfl]
  cases h with
  | still _ queue | make _ _ queue | enlist _ _ queue => exact Or.inl (queue ▸ ht)
  | schedule _ _ queue =>
    rw [queue] at ht
    rcases Queue.mem_insertTask.mp ht with rfl | ht
    · cases hbody
    · exact Or.inl ht
  | settle before promises queue => exact sent before promises queue
  | inform before promises queue => exact sent before promises queue

namespace Machine

variable {m m' : Machine P}

lemma split_of_cons {x d : Activity P} {s above below : List (Activity P)}
    (h : x :: s = above ++ d :: below) :
    x = d ∧ s = below ∨ ∃ above', s = above' ++ d :: below := by
  rcases List.cons_eq_append_iff.mp h with ⟨-, h⟩ | ⟨above', -, h⟩
  · cases h
    exact Or.inl ⟨rfl, rfl⟩
  · exact Or.inr ⟨above', h⟩

/-- A delivery on the stack was there before, with no fewer observers, or it is a task that a drive
has just started. -/
lemma Step.delivery (h : m.Step m') {p : PromiseId} {o : Outcome P.Value P.Error}
    {rs : List (Registration P)} {above below : List (Activity P)}
    (hstack : m'.stack = above ++ .delivery p o rs :: below) :
    (∃ above₀ rs₀, m.stack = above₀ ++ .delivery p o rs₀ :: below ∧ ∀ r ∈ rs, r ∈ rs₀) ∨
      ∃ hor ran k rest t, m.stack = .drive hor ran k :: rest ∧ m.Starts t ∧
        t.body = .delivery p o rs ∧ below = .drive hor (ran + 1) k :: rest := by
  -- a delivery below the innermost activity stays where it is
  have stays : ∀ {x s above'}, m.stack = x :: s → s = above' ++ .delivery p o rs :: below →
      ∃ above₀ rs₀, m.stack = above₀ ++ .delivery p o rs₀ :: below ∧ ∀ r ∈ rs, r ∈ rs₀ := by
    intro x s above' hx hs
    exact ⟨x :: above', rs, by rw [hx, hs]; rfl, fun _ hr => hr⟩
  cases h with
  | finish | delivered => exact Or.inl (stays rfl hstack)
  | operate | drive | driven =>
    rcases split_of_cons hstack with ⟨heq, -⟩ | ⟨above', hs⟩
    · cases heq
    · exact Or.inl (stays rfl hs)
  | attempt =>
    rcases split_of_cons hstack with ⟨heq, -⟩ | ⟨above', hs⟩
    · cases heq
    · rcases split_of_cons hs with ⟨heq, -⟩ | ⟨above', hs⟩
      · cases heq
      · exact Or.inl (stays rfl hs)
  | call =>
    rcases split_of_cons hstack with ⟨heq, -⟩ | ⟨above', hs⟩
    · cases heq
    · rcases split_of_cons hs with ⟨heq, rfl⟩ | ⟨above', hs⟩
      · cases heq
        exact Or.inl ⟨[], _, rfl, fun _ hr => .tail _ hr⟩
      · exact Or.inl (stays rfl hs)
  | leaveOut =>
    rcases split_of_cons hstack with ⟨heq, rfl⟩ | ⟨above', hs⟩
    · cases heq
      exact Or.inl ⟨[], _, rfl, fun _ hr => .tail _ hr⟩
    · exact Or.inl (stays rfl hs)
  | @start w hor ran k t q rest taken =>
    rcases split_of_cons hstack with ⟨heq, rfl⟩ | ⟨above', hs⟩
    · exact Or.inr ⟨hor, ran, k, rest, t, rfl, ⟨_, _, _, _, _, rfl, taken⟩,
        Activity.ofWork_eq_delivery_iff.mp heq, rfl⟩
    · rcases split_of_cons hs with ⟨heq, -⟩ | ⟨above', hs⟩
      · cases heq
      · exact Or.inl (stays rfl hs)

/-- A delivery has been there before, or is truthful. -/
lemma Step.delivers (h : m.Step m') {p : PromiseId} {o : Outcome P.Value P.Error}
    {rs : List (Registration P)} (hd : m'.Delivers p o rs) :
    (∃ rs₀, m.Delivers p o rs₀ ∧ ∀ r ∈ rs, r ∈ rs₀) ∨
      (m'.world.view p).outcome? = some o ∧ ∀ r ∈ rs, r.observer.awaits o = true := by
  rcases hd with ⟨t, ht, hbody⟩ | hmem
  · have before : t ∈ m.world.queue.waiting → ∃ rs₀, m.Delivers p o rs₀ ∧ ∀ r ∈ rs, r ∈ rs₀ :=
      fun ht => ⟨rs, Or.inl ⟨t, ht, hbody⟩, fun _ hr => hr⟩
    cases h with
    | operate performed =>
      exact ((World.effect_of_perform performed).2.delivery ht hbody).imp_left before
    | start taken =>
      refine Or.inl (before ?_)
      rw [(Queue.next?_eq_some_iff.mp taken).1]
      exact .tail _ ht
    | finish | drive | attempt | delivered | call | leaveOut | driven =>
      exact Or.inl (before ht)
  · obtain ⟨above, below, hstack⟩ := List.append_of_mem hmem
    rcases h.delivery hstack with ⟨above₀, rs₀, hbefore, hsub⟩ | ⟨_, _, _, _, t, -, ht, hbody, -⟩
    · exact Or.inl ⟨rs₀, Or.inr (hbefore ▸ List.mem_append_right _ (.head _)), hsub⟩
    · exact Or.inl ⟨rs, Or.inl ⟨t, ht.mem_waiting, hbody⟩, fun _ hr => hr⟩

lemma Step.outcome?_eq (h : m.Step m') {p : PromiseId} {o : Outcome P.Value P.Error}
    (ho : (m.world.view p).outcome? = some o) : (m'.world.view p).outcome? = some o := by
  obtain ⟨s, hs, -⟩ := Option.map_eq_some_iff.mp ho
  rw [h.view_eq hs, ho]

lemma Step.truthful (h : m.Step m') (hm : m.Truthful) : m'.Truthful := by
  intro p o rs hd
  rcases h.delivers hd with ⟨rs₀, hd₀, hsub⟩ | htrue
  · obtain ⟨ho, hawait⟩ := hm p o rs₀ hd₀
    exact ⟨h.outcome?_eq ho, fun r hr => hawait r (hsub r hr)⟩
  · exact htrue

/-! ## Numbers -/

variable {p : PromiseId} {r : Registration P}

namespace Fate

lemma observed_le (h : Fate m m' p) : m.world.observed p ≤ m'.world.observed p := by
  cases h with
  | keep _ _ _ observed _ | call _ _ _ _ observed => exact Nat.le_of_eq observed.symm
  | register _ _ _ observed | miss _ _ _ _ observed =>
    rw [observed]
    exact Nat.le_succ _

/-- An outstanding observer was outstanding before, or comes in with the next number. -/
lemma mem_before (h : Fate m m' p) (hr : r ∈ m'.outstanding p) :
    r ∈ m.outstanding p ∨ r.number = m.world.observed p ∧ m.Observes p r.observer ∧
      m'.world.observed p = m.world.observed p + 1 := by
  cases h with
  | keep _ _ outstanding =>
    rw [outstanding]
    exact Or.inl (Multiset.mem_add.mpr (Or.inr hr))
  | register ob observes outstanding observed =>
    rw [outstanding] at hr
    rcases Multiset.mem_cons.mp hr with rfl | hr
    · exact Or.inr ⟨rfl, observes, observed⟩
    · exact Or.inl hr
  | miss _ _ _ outstanding => exact Or.inl (outstanding ▸ hr)
  | call _ _ _ outstanding =>
    rw [outstanding]
    exact Or.inl (Multiset.mem_cons_of_mem hr)

/-- An outstanding observer stays outstanding unless it is called or the promise has ended in
another way than it waits for. -/
lemma mem_after (h : Fate m m' p) (hr : r ∈ m.outstanding p) :
    r ∈ m'.outstanding p ∨ (∃ body, m.Calls p r.number body) ∨
      ∃ o, (m'.world.view p).outcome? = some o ∧ ¬ r.observer.awaits o = true := by
  cases h with
  | keep _ _ outstanding _ unmatched =>
    rw [outstanding] at hr
    rcases Multiset.mem_add.mp hr with hr | hr
    · exact Or.inr (Or.inr (unmatched r hr))
    · exact Or.inl hr
  | register _ _ outstanding =>
    rw [outstanding]
    exact Or.inl (Multiset.mem_cons_of_mem hr)
  | miss _ _ _ outstanding => exact Or.inl (outstanding ▸ hr)
  | call r' body calls outstanding =>
    rw [outstanding] at hr
    rcases Multiset.mem_cons.mp hr with rfl | hr
    · exact Or.inr (Or.inl ⟨body, calls⟩)
    · exact Or.inl hr

lemma numbered (h : Fate m m' p) (hm : m.Numbered p) : m'.Numbered p := by
  refine ⟨?_, fun r hr => ?_⟩
  · have hnodup := hm.nodup
    cases h with
    | keep _ _ outstanding =>
      rw [outstanding] at hnodup
      exact Multiset.nodup_of_le (Multiset.map_le_map (Multiset.le_add_left _ _)) hnodup
    | register ob _ outstanding =>
      rw [outstanding, Multiset.map_cons, Multiset.nodup_cons]
      refine ⟨fun hmem => ?_, hnodup⟩
      obtain ⟨r, hr, heq⟩ := Multiset.mem_map.mp hmem
      exact absurd (hm.lt_observed r hr) (heq ▸ Nat.lt_irrefl _)
    | miss _ _ _ outstanding => exact outstanding ▸ hnodup
    | call r _ _ outstanding =>
      rw [outstanding, Multiset.map_cons, Multiset.nodup_cons] at hnodup
      exact hnodup.2
  · rcases h.mem_before hr with hr | ⟨heq, -, hobserved⟩
    · exact Nat.lt_of_lt_of_le (hm.lt_observed r hr) h.observed_le
    · rw [hobserved, heq]
      exact Nat.lt_succ_self _

end Fate

/-- Once its callback is run, an observer is outstanding no more. -/
lemma Step.outstanding_of_calls (h : m.Step m') {n : Nat} {body : Script P Unit}
    (hcalls : m.Calls p n body) :
    ∃ r, r.number = n ∧ m.outstanding p = r ::ₘ m'.outstanding p := by
  obtain ⟨w, stack⟩ := m
  obtain ⟨o, r, rs, rest, rfl, hn, handler⟩ := hcalls
  cases h.unique (.call handler)
  exact ⟨r, hn, outstanding_call ..⟩

/-- What a callback is given is what the promise ended with. -/
lemma Calls.truthful {n : Nat} {body : Script P Unit} (hcalls : m.Calls p n body)
    (hm : m.Truthful) :
    ∃ o, (m.world.view p).outcome? = some o ∧
      ∃ r ∈ m.outstanding p, r.number = n ∧ r.observer.handler? o = some body := by
  obtain ⟨w, stack⟩ := m
  obtain ⟨o, r, rs, rest, rfl, hn, handler⟩ := hcalls
  refine ⟨o, (hm p o (r :: rs) (Or.inr (.head rest))).1, r, ?_, hn, handler⟩
  rw [outstanding_delivery, ← Multiset.cons_coe, Multiset.cons_add]
  exact Multiset.mem_cons_self _ _

end Machine

end Eventual
