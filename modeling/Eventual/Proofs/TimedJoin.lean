import Eventual.Proofs.Turns

/-!
# What joined timers come to

The drive through the timers of a join comes to its end, since every turn moves one input on.  Then
all inputs have been told in the order of their timers, and the first one that has failed decides
what the result is, or all of them do.
-/

namespace Eventual

variable {P : Payload}

namespace Machine

variable {w : World P} {J : TimedJoin P} {told pending left order : List Nat} {ran : Nat}
  (k : Nat → Script P Unit) (rest : List (Activity P))

/-- The drive comes to its end. -/
lemma reaches_of_underway (h : w.Underway J told pending left)
    (horder : told ++ pending ++ left = order) (hnodup : order.Nodup) :
    ∃ w' ran', Reaches ⟨w, .drive .unbounded ran k :: rest⟩ ⟨w', .script (k ran') :: rest⟩ ∧
      w'.Underway J order [] [] := by
  -- every turn moves one input on
  induction hmeasure : 2 * left.length + pending.length using Nat.strong_induction_on
    generalizing w told pending left ran with
  | _ measure ih =>
    subst hmeasure
    rcases hnext : w.queue.next? .unbounded with _ | ⟨t, q⟩
    · have hwaiting := Queue.waiting_eq_nil_of_next?_unbounded hnext
      have htimers := h.timers
      have hdeliveries := h.deliveries
      rw [hwaiting, List.filter_nil] at htimers hdeliveries
      obtain rfl := List.forall₂_nil_right_iff.mp htimers
      obtain rfl := List.forall₂_nil_right_iff.mp hdeliveries
      rw [List.append_nil, List.append_nil] at horder
      exact ⟨_, ran, (Step.driven hnext).reaches, horder ▸ h⟩
    · rw [← horder] at hnodup
      rcases ht : t.isScript with _ | _
      · obtain ⟨w₁, i, pending', rfl, hreach, h₁⟩ :=
          reaches_of_delivery_taken ran k rest h hnodup hnext ht
        obtain ⟨w', ran', hreach', h'⟩ := ih (2 * left.length + pending'.length)
          (by simp) h₁ (by rw [← horder]; simp) rfl
        exact ⟨w', ran', hreach.trans hreach', h'⟩
      · obtain ⟨w₁, i, left', rfl, hreach, h₁⟩ :=
          reaches_of_timer ran k rest h hnodup hnext ht
        obtain ⟨w', ran', hreach', h'⟩ := ih (2 * left'.length + (pending ++ [i]).length)
          (by simp; omega) h₁ (by rw [← horder]; simp) rfl
        exact ⟨w', ran', hreach.trans hreach', h'⟩

end Machine

namespace World

variable {w : World P} {J : TimedJoin P} {order : List Nat}

/-- If all inputs have succeeded, so has the result. -/
lemma Underway.result?_eq (h : w.Underway J order [] [])
    (horder : order.Perm (List.range J.inputs.length))
    {vs : List P.Value} (hvs : J.inputs.map Timed.result = vs.map .ok) :
    (w.view J.result).result? = some (.ok (P.list vs)) := by
  obtain ⟨segment?, slot, hr, hslot⟩ := h.decided
  have hview := view_of_eq_some (p := J.result) hr
  have hok : ∀ i < J.inputs.length, ∃ delay v, J.inputs[i]? = some ⟨delay, .ok v⟩ := by
    intro i hi
    have hmem : J.inputs[i].result ∈ vs.map Except.ok :=
      hvs ▸ List.mem_map_of_mem (List.getElem_mem hi)
    obtain ⟨v, -, hv⟩ := List.mem_map.mp hmem
    exact ⟨J.inputs[i].delay, v, by rw [List.getElem?_eq_getElem hi, hv]⟩
  cases hslot with
  | unresolved succeeded missing =>
    obtain ⟨i, hi, hno⟩ := missing
    obtain ⟨delay, v, hinput⟩ := hok i hi
    exact absurd ⟨horder.mem_iff.mpr (List.mem_range.mpr hi), delay, hinput⟩ (hno v)
  | @failed before after i t split succeeded failed =>
    have hi : i ∈ order := by rw [split]; simp
    obtain ⟨timed, htimed, hs⟩ := h.settled i (by simpa using hi)
    obtain ⟨delay, v, hinput⟩ := hok i (List.mem_range.mp (horder.mem_iff.mp hi))
    cases htimed.symm.trans hinput
    rw [View.trace?, hs] at failed
    cases failed
  | fulfilled values =>
    obtain rfl : _ = vs :=
      List.map_injective_iff.mpr (fun _ _ h => Except.ok.inj h) (values.symm.trans hvs)
    rw [hview]
    rfl

/-- If an input has failed, the result has failed because of the first one that did. -/
lemma Underway.trace?_eq (h : w.Underway J order [] [])
    (horder : order.Perm (List.range J.inputs.length))
    (hsorted : order.Pairwise fun i j => ∀ t u, J.inputs[i]? = some t → J.inputs[j]? = some u →
      t.delay.nanos < u.delay.nanos ∨ t.delay.nanos = u.delay.nanos ∧ i < j)
    {i : Nat} {delay : Duration} {e : P.Error} (hi : J.inputs[i]? = some ⟨delay, .error e⟩)
    (hfirst : ∀ i' delay' e', J.inputs[i']? = some ⟨delay', .error e'⟩ →
      delay < delay' ∨ delay = delay' ∧ i ≤ i') :
    ∃ t, (w.view J.result).trace? = some t ∧ t.error = e ∧
      t.parent? = (w.view (J.input i)).trace? := by
  obtain ⟨hlt, -⟩ := List.getElem?_eq_some_iff.mp hi
  have hmem : i ∈ order := horder.mem_iff.mpr (List.mem_range.mpr hlt)
  obtain ⟨segment?, slot, hr, hslot⟩ := h.decided
  have hview := view_of_eq_some (p := J.result) hr
  have hnot : ∀ v, ¬ J.Filled order i v := by
    rintro v ⟨-, delay', hv⟩
    cases hi.symm.trans hv
  cases hslot with
  | unresolved succeeded missing =>
    obtain ⟨v, hv⟩ := succeeded i hmem
    exact absurd hv (hnot v)
  | @failed before after i₀ t split succeeded failed =>
    have hi₀ : i₀ ∈ order := by rw [split]; simp
    obtain ⟨timed, htimed, hs⟩ := h.settled i₀ (by simpa using hi₀)
    -- the input that decided has failed itself, and all that came before it have succeeded
    have hfailed : ∃ delay₀ e₀, J.inputs[i₀]? = some ⟨delay₀, .error e₀⟩ ∧ t.error = e₀ := by
      obtain ⟨delay₀, e₀ | v⟩ := timed
      · refine ⟨delay₀, e₀, htimed, ?_⟩
        rw [View.trace?, hs] at failed
        cases failed
        exact Trace.error_ofFailure _ _ _
      · rw [View.trace?, hs] at failed
        cases failed
    obtain ⟨delay₀, e₀, hinput, rfl⟩ := hfailed
    obtain rfl : i = i₀ := by
      rw [split] at hmem hsorted
      rcases List.mem_append.mp hmem with hbefore | hmem
      · obtain ⟨v, hv⟩ := succeeded i hbefore
        exact absurd hv (hnot v)
      · rcases List.mem_cons.mp hmem with heq | hafter
        · exact heq
        · have hpairs := (List.pairwise_cons.mp (List.pairwise_append.mp hsorted).2.1).1
          have hlt₀ := hpairs i hafter _ _ hinput hi
          have hle := hfirst i₀ delay₀ _ hinput
          rw [Duration.lt_iff, Duration.ext_iff] at hle
          dsimp only at hlt₀
          omega
    cases hi.symm.trans hinput
    refine ⟨Trace.ofFailure t.error segment? (some t), ?_, Trace.error_ofFailure _ _ _, ?_⟩
    · rw [hview]
      rfl
    · rw [Trace.parent?_ofFailure]
      exact failed.symm
  | fulfilled values =>
    have herror : Except.error e ∈ J.inputs.map Timed.result :=
      List.mem_map.mpr ⟨_, List.mem_of_getElem? hi, rfl⟩
    rw [values] at herror
    obtain ⟨v, -, hv⟩ := List.mem_map.mp herror
    cases hv

/-- **Joined timers.**  Promises that are settled after delays are made and joined in a world in
which no task waits, and tasks are run until none waits.  Then the result is fulfilled with all
values, in the order of the list, if all inputs succeed; and otherwise it has failed because of the
one with the least delay among those that fail, and of those with one delay because of the first in
the list. -/
theorem outcome_of_joinTimed (ts : List (Timed P)) (hempty : w.queue.waiting = [])
    (hdelays : ∀ t ∈ ts, ∃ due, w.clock.add? t.delay = some due)
    (k : List PromiseId × PromiseId → Script P Unit) (rest : List (Activity P)) :
    ∃ w' ps r, Machine.Reaches ⟨w, .script ((Script.joinTimed ts).bind k) :: rest⟩
        ⟨w', .script (k (ps, r)) :: rest⟩ ∧ ps.length = ts.length ∧
      (∀ vs, ts.map Timed.result = vs.map .ok →
        (w'.view r).result? = some (.ok (P.list vs))) ∧
      ∀ (i : Nat) delay e, ts[i]? = some ⟨delay, .error e⟩ →
        (∀ (i' : Nat) delay' e', ts[i']? = some ⟨delay', .error e'⟩ →
          delay < delay' ∨ delay = delay' ∧ i ≤ i') →
        ∃ p t, ps[i]? = some p ∧ (w'.view r).trace? = some t ∧ t.error = e ∧
          t.parent? = (w'.view p).trace? := by
  rw [Script.joinTimed_bind]
  obtain ⟨w₁, order, hmake, h₁⟩ := exists_timing hempty hdelays
    (fun ps => (Script.join ps).bind fun r => .drive .all fun _ => k (ps, r)) rest
  obtain ⟨w₂, J, hjoin, rfl, -, hfirst, h₂⟩ := exists_underway h₁
    (fun r => .drive .all fun _ => k (w.names ts.length, r)) rest
  have hnodup : order.Nodup := h₁.perm.nodup_iff.mpr List.nodup_range
  obtain ⟨w₃, ran, hdrive, h₃⟩ := Machine.reaches_of_underway
    (fun _ => k (w.names J.inputs.length, J.result)) rest h₂ (by simp) hnodup
  have hbegin : Machine.Reaches ⟨w₂, .script (.drive .all fun _ =>
      k (w.names J.inputs.length, J.result)) :: rest⟩ _ := (Machine.Step.drive rfl).reaches
  refine ⟨w₃, w.names J.inputs.length, J.result,
    hmake.trans (hjoin.trans (hbegin.trans hdrive)), by simp [names],
    fun vs hvs => h₃.result?_eq h₁.perm hvs, fun i delay e hi hmin => ?_⟩
  obtain ⟨t, ht, herror, hparent⟩ := h₃.trace?_eq h₁.perm h₁.pairwise hi hmin
  refine ⟨J.input i, t, ?_, ht, herror, hparent⟩
  simp [names, TimedJoin.input, hfirst, (List.getElem?_eq_some_iff.mp hi).1]

end World

/-! ## The law -/

/-- **What becomes of a join.**  In every run of a composed program in which no drive call is made
while another one is in progress:

* a join returns its result after a known number of steps, and if it has no inputs its result is
  fulfilled by then;
* unless somebody else has attempted to settle the result, at every later moment at which no task is
  due or under way the result is as the law of joins says (`Program.JoinLaw`): it has failed exactly
  if an input has, with the error and because of the first one, and it has succeeded exactly if all
  have, with their values, at the instant of the deciding settlement or of the call.

If the inputs are promises that are settled after delays, made in a world in which no task waits,
and tasks are then run until none waits, the result is fulfilled with all values in the order of the
list if all inputs succeed; and otherwise it has failed because of the one with the least delay
among those that fail, and of those with one delay because of the first in the list. -/
theorem join_outcome :
    (∀ (prog : Program P) (a : Nat) (w : World P) (inputs : List PromiseId)
        (k : PromiseId → Script P Unit) (rest : List (Activity P)),
      prog.main.Composed True → prog.Flat →
      prog.moment a = some ⟨w, .script ((Script.join inputs).bind k) :: rest⟩ →
      (∀ p ∈ inputs, p.index < w.promises.size) →
      (prog.At (a + 2 + inputs.length) fun m => m.stack = .script (k ⟨w.promises.size⟩) :: rest ∧
        (inputs = [] → (m.world.view ⟨w.promises.size⟩).result? = some (.ok (P.list [])))) ∧
      ∀ j m, a + 2 + inputs.length ≤ j → prog.moment j = some m → m.Calm →
        (∀ c < j, prog.At c (fun m => m.Attempts ⟨w.promises.size⟩) →
          prog.DoneBy a (a + 2 + inputs.length) c) →
        prog.JoinLaw a inputs ⟨w.promises.size⟩ w.clock j m) ∧
    ∀ (w : World P) (ts : List (Timed P)) (k : List PromiseId × PromiseId → Script P Unit)
        (rest : List (Activity P)),
      w.queue.waiting = [] → (∀ t ∈ ts, ∃ due, w.clock.add? t.delay = some due) →
      ∃ w' ps r, Machine.Reaches ⟨w, .script ((Script.joinTimed ts).bind k) :: rest⟩
          ⟨w', .script (k (ps, r)) :: rest⟩ ∧ ps.length = ts.length ∧
        (∀ vs, ts.map Timed.result = vs.map .ok →
          (w'.view r).result? = some (.ok (P.list vs))) ∧
        ∀ (i : Nat) delay e, ts[i]? = some ⟨delay, .error e⟩ →
          (∀ (i' : Nat) delay' e', ts[i']? = some ⟨delay', .error e'⟩ →
            delay < delay' ∨ delay = delay' ∧ i ≤ i') →
          ∃ p t, ps[i]? = some p ∧ (w'.view r).trace? = some t ∧ t.error = e ∧
            t.parent? = (w'.view p).trace? := by
  refine ⟨fun prog a w inputs k rest composed flat ha exist => ?_,
    fun _ ts k rest hempty hdelays => World.outcome_of_joinTimed ts hempty hdelays k rest⟩
  obtain ⟨hreturned, hlaw⟩ := Program.law_of_call composed flat.passive ha exist
  exact ⟨hreturned, fun j m hj hm hcalm owned =>
    hlaw j m hj hm (Program.quiet_of_calm hm hcalm) owned⟩

/-- A program that joins a promise, which then fails. -/
def joiningOne : Program Session.Play where
  settings := .withoutTraces
  walks _ := []
  internal := []
  store := {}
  main := do
    let p ← Script.create
    let _ ← Script.join [p]
    discard (Script.fail p (.failed "lost"))
    discard Script.runUntilIdle

namespace joiningOne

lemma composed : joiningOne.main.Composed True := by
  refine .bind (.once trivial) fun p => .bind (.join [p]) fun _ => ?_
  refine .bind (.bind (.once trivial) fun _ => .pure ()) fun _ => ?_
  exact .bind (.drive .idle fun n => .pure n) fun _ => .pure ()

lemma flat : joiningOne.Flat := by
  refine Program.flat_of_ends (n := 15) rfl ?_
  decide +kernel

/-- Only the callback of the input attempts to settle the result. -/
lemma doneBy {c : Nat} (hc : c < 12) (hat : joiningOne.At c fun m => m.Attempts ⟨1⟩) :
    joiningOne.DoneBy 1 4 c := by
  obtain rfl : c = 8 := Program.of_attempted (Q := (· = 8)) (by decide +kernel) hc hat
  exact Program.doneBy_of_called (c := 3) (by decide) (by decide)
    ⟨_, rfl, ⟨_, by decide, _, _, rfl⟩, rfl⟩ ⟨_, rfl, rfl⟩ ⟨_, rfl, [_], by simp, rfl⟩

end joiningOne

/-- Two timers that fail their promises, the second one before the first. -/
def twoTimers : List (Timed Session.Play) :=
  [⟨.millis 2, .error (.failed "late")⟩, ⟨.millis 1, .error (.failed "soon")⟩]

/-- In `joiningOne` the result has failed because of its input when the drive is over.  Of
`twoTimers` the second one decides. -/
theorem join_outcome_joiningOne :
    (∃ m, joiningOne.moment 12 = some m ∧ (m.world.view ⟨1⟩).state = .failed ∧
      joiningOne.JoinLaw 1 [⟨0⟩] ⟨1⟩ .zero 12 m) ∧
    ∃ (w' : World Session.Play) (ps : List PromiseId) (r p : PromiseId) (t : Trace Failure),
      Machine.Reaches
        ⟨joiningOne.start.world, [.script ((Script.joinTimed twoTimers).bind fun _ => .pure ())]⟩
        ⟨w', [.script (.pure ())]⟩ ∧
      ps[1]? = some p ∧ (w'.view r).trace? = some t ∧ t.error = .failed "soon" ∧
        t.parent? = (w'.view p).trace? := by
  obtain ⟨hlaw, htimed⟩ := join_outcome (P := Session.Play)
  constructor
  · obtain ⟨w, k, rest, ha, hsize, hclock⟩ : ∃ w k rest,
        joiningOne.moment 1 = some ⟨w, .script ((Script.join [⟨0⟩]).bind k) :: rest⟩ ∧
          w.promises.size = 1 ∧ w.clock = .zero := ⟨_, _, _, rfl, rfl, rfl⟩
    obtain ⟨m, hm, hfailed, hstack, hwaiting⟩ : ∃ m, joiningOne.moment 12 = some m ∧
        (m.world.view ⟨1⟩).state = .failed ∧ m.stack = [.script (.pure ())] ∧
          m.world.queue.waiting = [] := ⟨_, rfl, rfl, rfl, rfl⟩
    have hcalm : m.Calm := Machine.calm_of_idle hwaiting hstack
    obtain ⟨-, hafter⟩ := hlaw joiningOne 1 w [⟨0⟩] k rest joiningOne.composed joiningOne.flat ha
      (by simp [hsize])
    rw [hsize, hclock] at hafter
    exact ⟨m, hm, hfailed,
      hafter 12 m (by decide) hm hcalm fun c hc hat => joiningOne.doneBy hc hat⟩
  · obtain ⟨w', ps, r, hreach, -, -, hfails⟩ := htimed joiningOne.start.world twoTimers
      (fun _ => .pure ()) [] rfl
      fun t _ => ⟨t.delay, Duration.add?_eq_some_iff.mpr (Nat.zero_add _).symm⟩
    obtain ⟨p, t, hp, ht, herror, hparent⟩ := hfails 1 _ _ rfl fun i' delay' e' hi' => by
      match i' with
      | 0 =>
        cases hi'
        exact Or.inl (by decide)
      | 1 => exact Or.inr ⟨by cases hi'; rfl, Nat.le_refl 1⟩
      | i' + 2 => cases hi'
    exact ⟨w', ps, r, p, t, hreach, hp, ht, herror, hparent⟩

end Eventual
