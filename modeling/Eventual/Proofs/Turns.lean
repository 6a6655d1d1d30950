import Eventual.Proofs.Timers

/-!
# The turns of a drive through timers

At a turn of the drive either a timer is taken out of the queue, its input is settled and the
delivery goes behind all deliveries that wait; or a delivery is taken and the callback of its input
runs, which fails the result or puts a value into the gathering.  Either way one input moves on, and
the order of the inputs stays as it is.
-/

namespace Eventual

variable {P : Payload}

/-! ## One turn -/

namespace Queue

variable {β : Type*} {p : Task β → Bool} {t : Task β} {us : List (Task β)}

lemma filter_insertTask_of_neg (ht : p t = false) : (insertTask t us).filter p = us.filter p := by
  induction us with
  | nil => simp [insertTask, ht]
  | cons u us ih =>
    unfold insertTask
    split
    · rw [List.filter_cons_of_neg (by simp [ht])]
    · rw [List.filter_cons, List.filter_cons, ih]

/-- A task goes behind all tasks of a kind that are due no later. -/
lemma filter_insertTask_of_pos (hsorted : us.Pairwise Task.Precedes) (ht : p t = true)
    (hdue : ∀ u ∈ us, p u = true → u.due ≤ t.due) :
    (insertTask t us).filter p = us.filter p ++ [t] := by
  induction us with
  | nil => simp [insertTask, ht]
  | cons u us ih =>
    obtain ⟨hu, hus⟩ := List.pairwise_cons.mp hsorted
    unfold insertTask
    split
    · rename_i hlt
      -- what comes after the task is due later
      have hnil : (u :: us).filter p = [] := by
        refine List.filter_eq_nil_iff.mpr fun x hx hp => ?_
        have hle : x.due.nanos ≤ t.due.nanos := hdue x hx hp
        have hlt : t.due.nanos < u.due.nanos := hlt
        rcases List.mem_cons.mp hx with rfl | hx
        · omega
        · exact absurd (Nat.le_trans (hu x hx).due_le hle) (Nat.not_le.mpr hlt)
      rw [List.filter_cons_of_pos ht, hnil, List.nil_append]
    · rw [List.filter_cons, List.filter_cons, ih hus fun x hx => hdue x (.tail u hx)]
      split <;> rfl

end Queue

/-- What a promise holds after an attempt to settle it. -/
def Slot.settle (s : Settlement P.Value P.Error) : Slot P → Slot P
  | .unresolved _ => .settled s
  | .settled s₀ => .settled s₀

namespace World

variable {w w' : World P} {J : TimedJoin P} {told pending left : List Nat} {i : Nat}

lemma settle_awaited {q : PromiseId} {segment? : Option Segment} {observed : Nat}
    {rs : List (Registration P)}
    (h : w.promises[q.index]? = some ⟨segment?, observed, .unresolved rs⟩)
    (s : Settlement P.Value P.Error) :
    (w.settle q s).2.clock = w.clock ∧
      (w.settle q s).2.queue = w.queue.deliver w.clock q (s.outcome segment?) rs ∧
      (w.settle q s).2.gatherings = w.gatherings ∧
      ∀ j, (w.settle q s).2.promises[j]? =
        if j = q.index then some ⟨segment?, observed, .settled s⟩ else w.promises[j]? := by
  have hgatherings := (unfilled_settle w q s).gatherings
  rw [settle_unresolved h] at hgatherings ⊢
  refine ⟨clock_deliver .., queue_deliver .., hgatherings, fun j => ?_⟩
  rw [promises_deliver, putPromise, getElem?_putPromise _ h]

/-- An attempt to settle a promise for which nobody waits. -/
lemma settle_unobserved {q : PromiseId} {segment? : Option Segment} {observed : Nat} {slot : Slot P}
    (h : w.promises[q.index]? = some ⟨segment?, observed, slot⟩) (hslot : slot.waiting = [])
    (s : Settlement P.Value P.Error) :
    (w.settle q s).2.clock = w.clock ∧ (w.settle q s).2.queue = w.queue ∧
      (w.settle q s).2.gatherings = w.gatherings ∧
      ∀ j, (w.settle q s).2.promises[j]? =
        if j = q.index then some ⟨segment?, observed, slot.settle s⟩ else w.promises[j]? := by
  rcases slot with rs | s₀
  · obtain rfl : rs = [] := hslot
    obtain ⟨clock, queue, gatherings, promises⟩ := settle_awaited h s
    rw [Queue.deliver_of_forall_not (by simp)] at queue
    exact ⟨clock, queue, gatherings, promises⟩
  · rw [settle_settled h]
    refine ⟨rfl, rfl, rfl, fun j => ?_⟩
    change w.promises[j]? = _
    split
    · rename_i hj
      rw [hj, h, Slot.settle]
    · rfl

/-- What a settled promise shows does not change. -/
lemma view_settle {p q : PromiseId} {o : Outcome P.Value P.Error} (s : Settlement P.Value P.Error)
    (h : (w.view p).outcome? = some o) : (w.settle q s).2.view p = w.view p := by
  have hstep : Machine.Step ⟨w, [.script (.op (.settle q s) fun _ => .pure ())]⟩
      ⟨(w.settle q s).2, [.script (.pure ())]⟩ := .operate rfl
  obtain ⟨s₀, hs₀, -⟩ := Option.map_eq_some_iff.mp h
  exact hstep.view_eq hs₀

variable {t : Task (Work P)} {q : Queue (Work P)}

namespace Waits

lemma lt_of_mem_left (h : w.Waits J told pending left) (hi : i ∈ left) : i < J.inputs.length := by
  obtain ⟨_, -, ⟨_, ht, -⟩, -⟩ := exists_right_of_forall₂ h.timers hi
  exact (List.getElem?_eq_some_iff.mp ht).1

/-- The input of a delivery that was taken has been told. -/
lemma tell (h : w.Waits J told pending left) {timed : Timed P} (htimed : J.inputs[i]? = some timed)
    (hi : (w.view (J.input i)).settlement? = some (.ofResult timed.result)) :
    w.Waits J (told ++ [i]) pending left := by
  refine ⟨h.timely, h.timers, h.deliveries, h.unresolved, fun j hj => ?_⟩
  rcases List.mem_append.mp hj with hj | hj
  · rcases List.mem_append.mp hj with hj | hj
    · exact h.settled j (List.mem_append_left _ hj)
    · obtain rfl := List.mem_singleton.mp hj
      exact ⟨timed, htimed, hi⟩
  · exact h.settled j (List.mem_append_right _ hj)

/-- Settling the result lets the inputs as they are. -/
lemma settle_result (h : w.Waits J told pending left) {segment? : Option Segment} {slot : Slot P}
    (hr : w.promises[J.first + J.inputs.length]? = some ⟨segment?, 0, slot⟩)
    (hslot : slot.waiting = []) (s : Settlement P.Value P.Error) :
    (w.settle J.result s).2.Waits J told pending left := by
  obtain ⟨clock, queue, -, promises⟩ := settle_unobserved (q := J.result) hr hslot s
  have htimely := ((effect_settle w J.result s).2.ticks clock).timely h.timely
  refine ⟨htimely, ?_, ?_, fun j hj => ?_, fun j hj => ?_⟩
  · rw [queue]
    exact h.timers
  · rw [queue]
    refine h.deliveries.imp ?_
    rintro j u ⟨hle, o, ho, hbody⟩
    exact ⟨clock ▸ hle, o, by rw [view_settle s ho, ho], hbody⟩
  · have hlt := h.lt_of_mem_left hj
    rw [promises, if_neg (by simp only [TimedJoin.result]; omega)]
    exact h.unresolved j hj
  · obtain ⟨timed, htimed, hs⟩ := h.settled j hj
    refine ⟨timed, htimed, ?_⟩
    rw [view_settle s (congrArg (Option.map _) hs), hs]

end Waits

namespace Underway

/-- A timer is taken. -/
lemma take_timer (h : w.Underway J told pending left)
    (hnext : w.queue.next? .unbounded = some (t, q)) (ht : t.isScript = true) :
    ∃ i left' timed, left = i :: left' ∧ J.inputs[i]? = some timed ∧
      t.body = .script (Script.settleWith (J.input i) timed.result) ∧
      (taken w t q).Underway J told pending left' := by
  obtain ⟨hwaiting, -, -⟩ := Queue.next?_eq_some_iff.mp hnext
  have htimers := h.timers
  have hdeliveries := h.deliveries
  rw [hwaiting, List.filter_cons_of_pos ht] at htimers
  rw [hwaiting, List.filter_cons_of_neg (by simp [ht])] at hdeliveries
  obtain ⟨i, left', ⟨⟨timed, htimed, -, hbody⟩, -⟩, hleft, rfl⟩ :=
    List.forall₂_cons_right_iff.mp htimers
  have htick : Ticks w (taken w t q) := .take _ t hnext rfl
  refine ⟨i, left', timed, rfl, htimed, hbody, ⟨htick.timely h.timely, hleft, ?_,
    fun j hj => h.unresolved j (.tail i hj), h.settled⟩, h.holds, h.decided⟩
  exact hdeliveries.imp fun j u hu => ⟨Nat.le_trans hu.1 htick.clock_le, hu.2⟩

/-- A delivery is taken. -/
lemma take_delivery (h : w.Underway J told pending left)
    (hnext : w.queue.next? .unbounded = some (t, q)) (ht : t.isScript = false) :
    ∃ i pending' o, pending = i :: pending' ∧ (w.view (J.input i)).outcome? = some o ∧
      t.body = .delivery (J.input i) o [J.registration i] ∧
      (taken w t q).Underway J told pending' left := by
  obtain ⟨hwaiting, -, -⟩ := Queue.next?_eq_some_iff.mp hnext
  have htimers := h.timers
  have hdeliveries := h.deliveries
  rw [hwaiting, List.filter_cons_of_neg (by simp [ht])] at htimers
  rw [hwaiting, List.filter_cons_of_pos (by simp [ht])] at hdeliveries
  obtain ⟨i, pending', ⟨-, o, ho, hbody⟩, hpending, rfl⟩ :=
    List.forall₂_cons_right_iff.mp hdeliveries
  have htick : Ticks w (taken w t q) := .take _ t hnext rfl
  refine ⟨i, pending', o, rfl, ho, hbody, ⟨htick.timely h.timely, htimers, ?_, h.unresolved,
    fun j hj => h.settled j ?_⟩, h.holds, h.decided⟩
  · exact hpending.imp fun j u hu => ⟨Nat.le_trans hu.1 htick.clock_le, hu.2⟩
  · rcases List.mem_append.mp hj with hj | hj
    · exact List.mem_append_left _ hj
    · exact List.mem_append_right _ (.tail i hj)

/-- An input is settled by its timer, and its delivery is handed over. -/
lemma fire (h : w.Underway J told pending left) (hnew : i ∉ left) {timed : Timed P}
    (htimed : J.inputs[i]? = some timed) {segment? : Option Segment}
    (hi : w.promises[J.first + i]? = some ⟨segment?, 1, .unresolved [J.registration i]⟩) :
    (w.settle (J.input i) (.ofResult timed.result)).2.Underway J told (pending ++ [i]) left := by
  have hview := fun p o => view_settle (w := w) (p := p) (q := J.input i) (o := o)
    (.ofResult timed.result)
  obtain ⟨clock, queue, gatherings, promises⟩ :=
    settle_awaited (q := J.input i) hi (.ofResult timed.result)
  have htimely := ((effect_settle w (J.input i) (.ofResult timed.result)).2.ticks clock).timely
    h.timely
  have hawaits : (J.registration i).observer.awaits
      ((Settlement.ofResult timed.result).outcome segment?) = true :=
    Script.awaits_gatherer J.result J.gathering i _
  rw [Queue.deliver_of_exists ⟨J.registration i, .head _, hawaits⟩,
    List.filter_eq_self.mpr (by simpa using hawaits)] at queue
  generalize (w.settle (J.input i) (.ofResult timed.result)).2 = w' at *
  have hself : w'.view (J.input i) = ⟨segment?, some (.ofResult timed.result)⟩ :=
    view_of_eq_some ((promises _).trans (if_pos rfl))
  have hwaiting : w'.queue.waiting = Queue.insertTask ⟨w.clock, w.queue.scheduled,
      .delivery (J.input i) ((Settlement.ofResult timed.result).outcome segment?)
        [J.registration i]⟩ w.queue.waiting := by
    rw [queue]
    rfl
  obtain ⟨hlt, -⟩ := List.getElem?_eq_some_iff.mp htimed
  refine ⟨⟨htimely, ?_, ?_, fun j hj => ?_, fun j hj => ?_⟩, ?_, ?_⟩
  · rw [hwaiting, Queue.filter_insertTask_of_neg rfl]
    exact h.timers
  · have hdue : ∀ u ∈ w.queue.waiting, (!u.isScript) = true → u.due ≤ w.clock := by
      intro u hu hscript
      obtain ⟨_, -, hle, -⟩ := exists_of_forall₂ h.deliveries (List.mem_filter.mpr ⟨hu, hscript⟩)
      exact hle
    rw [hwaiting, Queue.filter_insertTask_of_pos h.timely.ordered.sorted rfl hdue]
    refine List.rel_append (h.deliveries.imp ?_) (.cons ⟨?_, _, ?_, rfl⟩ .nil)
    · rintro j u ⟨hle, o, ho, hbody⟩
      exact ⟨clock ▸ hle, o, by rw [hview _ o ho, ho], hbody⟩
    · rw [clock]
      exact Nat.le_refl _
    · rw [hself]
      rfl
  · obtain ⟨s?, hj'⟩ := h.unresolved j hj
    refine ⟨s?, (promises _).trans ?_⟩
    rw [if_neg, hj']
    intro heq
    obtain rfl : j = i := by simpa [TimedJoin.input] using heq
    exact hnew hj
  · rw [← List.append_assoc] at hj
    rcases List.mem_append.mp hj with hj | hj
    · obtain ⟨timed', htimed', hs⟩ := h.settled j hj
      exact ⟨timed', htimed', by rw [hview _ _ (congrArg (Option.map _) hs), hs]⟩
    · obtain rfl := List.mem_singleton.mp hj
      exact ⟨timed, htimed, by rw [hself]⟩
  · rw [HoldsOf, gatherings]
    exact h.holds
  · obtain ⟨s?, slot, hr, hverdict⟩ := h.decided
    refine ⟨s?, slot, ?_, hverdict.mono fun j t' ht' => ?_⟩
    · rw [promises, if_neg (by simp only [TimedJoin.input]; omega), hr]
    · rw [hview _ _ (View.outcome?_eq_failed_iff.mpr ht'), ht']

end Underway

end World

namespace TimedJoin

variable {J : TimedJoin P} {told : List Nat} {i j : Nat} {v v' : P.Value} {slot : Slot P}
  {trace? : Nat → Option (Trace P.Error)}

lemma filled_append_ok {delay : Duration} (hi : J.inputs[i]? = some ⟨delay, .ok v⟩) :
    J.Filled (told ++ [i]) j v' ↔ J.Filled told j v' ∨ i = j ∧ v = v' := by
  constructor
  · rintro ⟨hj, delay', hv'⟩
    rcases List.mem_append.mp hj with hj | hj
    · exact Or.inl ⟨hj, delay', hv'⟩
    · obtain rfl := List.mem_singleton.mp hj
      cases hi.symm.trans hv'
      exact Or.inr ⟨rfl, rfl⟩
  · rintro (⟨hj, hv'⟩ | ⟨rfl, rfl⟩)
    · exact ⟨List.mem_append_left _ hj, hv'⟩
    · exact ⟨by simp, delay, hi⟩

lemma filled_append_error {delay : Duration} {e : P.Error}
    (hi : J.inputs[i]? = some ⟨delay, .error e⟩) :
    J.Filled (told ++ [i]) j v' ↔ J.Filled told j v' := by
  constructor
  · rintro ⟨hj, delay', hv'⟩
    rcases List.mem_append.mp hj with hj | hj
    · exact ⟨hj, delay', hv'⟩
    · obtain rfl := List.mem_singleton.mp hj
      cases hi.symm.trans hv'
  · rintro ⟨hj, hv'⟩
    exact ⟨List.mem_append_left _ hj, hv'⟩

lemma Filled.append (h : J.Filled told j v') (i : Nat) : J.Filled (told ++ [i]) j v' :=
  ⟨List.mem_append_left _ h.1, h.2⟩

namespace Verdict

/-- What has been decided stays decided. -/
lemma append_settled {s : Settlement P.Value P.Error} (h : J.Verdict trace? told (.settled s))
    (i : Nat) : J.Verdict trace? (told ++ [i]) (.settled s) := by
  cases h with
  | @failed before after j t split succeeded failed =>
    have hsplit : told ++ [i] = before ++ j :: (after ++ [i]) := by
      rw [split, List.append_assoc, List.cons_append]
    refine .failed hsplit (fun j hj => ?_) failed
    obtain ⟨v, hv⟩ := succeeded j hj
    exact ⟨v, hv.append i⟩
  | fulfilled values => exact .fulfilled values

/-- An input that has failed is told. -/
lemma append_failed (h : J.Verdict trace? told slot) {t : Trace P.Error} (ht : trace? i = some t) :
    J.Verdict trace? (told ++ [i]) (slot.settle (.failed t.error (some t))) := by
  rcases slot with rs | s
  · cases h with
    | unresolved succeeded missing =>
      have hsplit : told ++ [i] = told ++ i :: [] := rfl
      refine .failed hsplit (fun j hj => ?_) ht
      obtain ⟨v, hv⟩ := succeeded j hj
      exact ⟨v, hv.append i⟩
  · exact h.append_settled i

/-- An input that has succeeded is told, and one is missing still. -/
lemma append_succeeded (h : J.Verdict trace? told slot) (hv : J.Filled (told ++ [i]) i v)
    (hmissing : ∃ j < J.inputs.length, ∀ v, ¬ J.Filled (told ++ [i]) j v) :
    J.Verdict trace? (told ++ [i]) slot := by
  rcases slot with rs | s
  · cases h with
    | unresolved succeeded missing =>
      refine .unresolved (fun j hj => ?_) hmissing
      rcases List.mem_append.mp hj with hj | hj
      · obtain ⟨v', hv'⟩ := succeeded j hj
        exact ⟨v', hv'.append i⟩
      · obtain rfl := List.mem_singleton.mp hj
        exact ⟨v, hv⟩
  · exact h.append_settled i

/-- The last input is told. -/
lemma append_last (h : J.Verdict trace? told slot) {vs : List P.Value}
    (hvs : J.inputs.map Timed.result = vs.map .ok) :
    J.Verdict trace? (told ++ [i]) (slot.settle (.fulfilled (P.list vs))) := by
  rcases slot with rs | s
  · exact .fulfilled hvs
  · exact h.append_settled i

end Verdict

end TimedJoin

namespace World

variable {w w' : World P} {J : TimedJoin P} {told pending left : List Nat} {i : Nat}

/-- An attempt is made on the result. -/
lemma Decided.settle_result (h : w.Decided J told) (s : Settlement P.Value P.Error)
    {told' : List Nat}
    (hverdict : ∀ slot, J.Verdict (fun i => (w.view (J.input i)).trace?) told slot →
      J.Verdict (fun i => (w.view (J.input i)).trace?) told' (slot.settle s)) :
    (w.settle J.result s).2.Decided J told' := by
  obtain ⟨segment?, slot, hr, hslot⟩ := h
  obtain ⟨-, -, -, promises⟩ := settle_unobserved (q := J.result) hr hslot.waiting_eq s
  refine ⟨segment?, slot.settle s, (promises _).trans (if_pos rfl), (hverdict slot hslot).mono ?_⟩
  intro j t ht
  rw [view_settle s (View.outcome?_eq_failed_iff.mpr ht), ht]

namespace Underway

/-- The callback of an input that has failed runs. -/
lemma tell_failure (h : w.Underway J told pending left) {delay : Duration} {e : P.Error}
    (hinput : J.inputs[i]? = some ⟨delay, .error e⟩)
    (hi : (w.view (J.input i)).settlement? = some (.failed e none)) {t : Trace P.Error}
    (ht : (w.view (J.input i)).trace? = some t) :
    (w.settle J.result (.failed t.error (some t))).2.Underway J (told ++ [i]) pending left := by
  obtain ⟨segment?, slot, hr, hslot⟩ := h.decided
  refine ⟨(h.toWaits.tell hinput hi).settle_result hr hslot.waiting_eq _, ?_, ?_⟩
  · obtain ⟨-, -, gatherings, -⟩ := settle_unobserved (q := J.result) hr hslot.waiting_eq
      (.failed t.error (some t))
    have hfilled : J.Filled (told ++ [i]) = J.Filled told :=
      funext fun j => funext fun v => propext (TimedJoin.filled_append_error hinput)
    rw [HoldsOf, hfilled, gatherings]
    exact h.holds
  · exact h.decided.settle_result _ fun slot hslot => hslot.append_failed ht

/-- The callback of an input that has succeeded runs. -/
lemma tell_value (h : w.Underway J told pending left) (hnew : i ∉ told) {delay : Duration}
    {v : P.Value} (hinput : J.inputs[i]? = some ⟨delay, .ok v⟩)
    (hi : (w.view (J.input i)).settlement? = some (.fulfilled v)) :
    ∃ complete w₁, w.perform (.gather J.gathering i v) = .answer complete w₁ ∧
      ((complete = none ∧ w₁.Underway J (told ++ [i]) pending left) ∨
        ∃ vs, complete = some vs ∧
          (w₁.settle J.result (.fulfilled (P.list vs))).2.Underway J (told ++ [i]) pending
            left) := by
  obtain ⟨hlt, -⟩ := List.getElem?_eq_some_iff.mp hinput
  have hempty : ∀ v, ¬ J.Filled told i v := fun v hv => hnew hv.1
  obtain ⟨γ, hγ, hholds⟩ := h.holds ⟨i, hlt, hempty⟩
  have hF : ∀ j v', J.Filled (told ++ [i]) j v' ↔ J.Filled told j v' ∨ i = j ∧ v = v' :=
    fun j v' => TimedJoin.filled_append_ok hinput
  have hself : J.Filled (told ++ [i]) i v := (hF i v).mpr (Or.inr ⟨rfl, rfl⟩)
  obtain ⟨γ', complete, hinsert, hcases⟩ := hholds.insert hlt hempty hF
  have hperform : w.perform (.gather J.gathering i v) = .answer complete
      { w with gatherings := w.gatherings.setIfInBounds J.gathering.index γ' } := by
    simp only [perform, gather, hγ, hinsert]
  have hwaits : Waits J (told ++ [i]) pending left
      { w with gatherings := w.gatherings.setIfInBounds J.gathering.index γ' } := by
    obtain ⟨timely, timers, deliveries, unresolved, settled⟩ := h.toWaits.tell hinput hi
    exact ⟨⟨timely.ordered, timely.clock_le⟩, timers, deliveries, unresolved, settled⟩
  have hdecided : Decided J told
      { w with gatherings := w.gatherings.setIfInBounds J.gathering.index γ' } := h.decided
  have hget : (w.gatherings.setIfInBounds J.gathering.index γ')[J.gathering.index]? = some γ' := by
    rw [Array.getElem?_setIfInBounds_self, if_pos (Array.getElem?_eq_some_iff.mp hγ).1]
  obtain ⟨segment?, slot, hr, hslot⟩ := h.decided
  refine ⟨complete, _, hperform, ?_⟩
  rcases hcases with ⟨rfl, hmissing, hholds'⟩ | ⟨vs, rfl, hlength, hvs⟩
  · exact Or.inl ⟨rfl, hwaits, fun _ => ⟨γ', hget, hholds'⟩,
      segment?, slot, hr, hslot.append_succeeded hself hmissing⟩
  · refine Or.inr ⟨vs, rfl, hwaits.settle_result hr hslot.waiting_eq _, ?_, ?_⟩
    · rintro ⟨j, hj, hmissing⟩
      exact absurd ((hvs j _).mp (List.getElem?_eq_getElem (hlength ▸ hj))) (hmissing _)
    · have hvalues : J.inputs.map Timed.result = vs.map .ok := by
        refine List.ext_getElem (by simp [hlength]) fun j hj hj' => ?_
        rw [List.length_map] at hj hj'
        obtain ⟨-, delay', hj⟩ := (hvs j vs[j]).mp (List.getElem?_eq_getElem hj')
        rw [List.getElem_map, List.getElem_map, (List.getElem?_eq_some_iff.mp hj).2]
      exact hdecided.settle_result _ fun slot hslot => hslot.append_last hvalues

end Underway

end World

/-! ## What the machine does in a turn -/

namespace Machine

variable {w : World P} {J : TimedJoin P} {told pending left : List Nat} {t : Task (Work P)}
  {q : Queue (Work P)} (ran : Nat) (k : Nat → Script P Unit) (rest : List (Activity P))

/-- A turn in which a timer is taken. -/
lemma reaches_of_timer (h : w.Underway J told pending left)
    (hnodup : (told ++ pending ++ left).Nodup)
    (hnext : w.queue.next? .unbounded = some (t, q)) (ht : t.isScript = true) :
    ∃ w' i left', left = i :: left' ∧
      Reaches ⟨w, .drive .unbounded ran k :: rest⟩ ⟨w', .drive .unbounded (ran + 1) k :: rest⟩ ∧
      w'.Underway J told (pending ++ [i]) left' := by
  obtain ⟨i, left', timed, rfl, htimed, hbody, h₁⟩ := h.take_timer hnext ht
  obtain ⟨segment?, hi⟩ := h.unresolved i (.head left')
  have hnew : i ∉ left' := (List.nodup_cons.mp (List.nodup_append.mp hnodup).2.1).1
  have hstart : Reaches ⟨w, .drive .unbounded ran k :: rest⟩
      ⟨World.taken w t q, .ofWork t.body :: .drive .unbounded (ran + 1) k :: rest⟩ :=
    (Step.start hnext).reaches
  rw [hbody, Script.settleWith_eq] at hstart
  exact ⟨_, i, left', rfl, hstart.trans ((Step.operate rfl).reaches.trans Step.finish.reaches),
    h₁.fire hnew htimed hi⟩

/-- A turn in which a delivery is taken. -/
lemma reaches_of_delivery_taken (h : w.Underway J told pending left)
    (hnodup : (told ++ pending ++ left).Nodup) (hnext : w.queue.next? .unbounded = some (t, q))
    (ht : t.isScript = false) :
    ∃ w' i pending', pending = i :: pending' ∧
      Reaches ⟨w, .drive .unbounded ran k :: rest⟩ ⟨w', .drive .unbounded (ran + 1) k :: rest⟩ ∧
      w'.Underway J (told ++ [i]) pending' left := by
  obtain ⟨i, pending', o, rfl, ho, hbody, h₁⟩ := h.take_delivery hnext ht
  obtain ⟨timed, htimed, hs⟩ := h.settled i (List.mem_append_right _ (.head pending'))
  have hstart : Reaches ⟨w, .drive .unbounded ran k :: rest⟩
      ⟨World.taken w t q, .ofWork t.body :: .drive .unbounded (ran + 1) k :: rest⟩ :=
    (Step.start hnext).reaches
  rw [hbody] at hstart
  obtain ⟨delay, e | v⟩ := timed
  · obtain ⟨t', rfl⟩ : ∃ t', o = .failed t' := by
      rw [View.outcome?, hs] at ho
      exact ⟨_, (Option.some.inj ho).symm⟩
    have hcall : Reaches ⟨w, .drive .unbounded ran k :: rest⟩ _ :=
      hstart.trans (Step.call (r := J.registration i) rfl).reaches
    exact ⟨_, i, pending', rfl, hcall.trans ((Step.operate rfl).reaches.trans
        (Step.finish.reaches.trans Step.delivered.reaches)),
      h₁.tell_failure htimed hs (View.outcome?_eq_failed_iff.mp ho)⟩
  · obtain rfl : o = .succeeded v := by
      rw [View.outcome?, hs] at ho
      exact (Option.some.inj ho).symm
    have hnew : i ∉ told := by
      intro hi
      have hdisjoint := (List.nodup_append.mp (List.nodup_append.mp hnodup).1).2.2
      exact hdisjoint i hi i (.head pending') rfl
    have hcall : Reaches ⟨w, .drive .unbounded ran k :: rest⟩ _ :=
      hstart.trans (Step.call (r := J.registration i) rfl).reaches
    rw [Script.gatherInto_eq] at hcall
    obtain ⟨complete, w₁, hperform, ⟨rfl, h₂⟩ | ⟨vs, rfl, h₂⟩⟩ := h₁.tell_value hnew htimed hs
    · exact ⟨_, i, pending', rfl, hcall.trans ((Step.operate hperform).reaches.trans
        (Step.finish.reaches.trans Step.delivered.reaches)), h₂⟩
    · exact ⟨_, i, pending', rfl, hcall.trans ((Step.operate hperform).reaches.trans
        ((Step.operate rfl).reaches.trans (Step.finish.reaches.trans Step.delivered.reaches))), h₂⟩

end Machine

end Eventual
