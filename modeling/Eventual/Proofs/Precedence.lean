import Eventual.Proofs.Agreement
import Eventual.Proofs.JoinLaw
import Eventual.Proofs.Racing

/-!
# Which input decides

A select ends as one of its inputs does, and a join fails because of one.  Which of them decides
depends on whether there is one that was settled before the call.  The callbacks of such inputs are
queued by the call itself, in the order of the list, whereas those of the others are queued as the
inputs are settled.  So the first settlement in time decides if it comes after the call; but of the
inputs settled before it, the first one in the list decides (`Program.Precedence`).
-/

namespace Eventual

variable {P : Payload}

/-- Whether a promise fails by a settlement. -/
def Settlement.Fails {V E : Type} : Settlement V E → Prop
  | .fulfilled _ => False
  | .failed _ _ => True

namespace Program

/-- At moment `c` a promise is settled in a way that counts. -/
def CountsAt (prog : Program P) (counts : Settlement P.Value P.Error → Prop) (c : Nat)
    (p : PromiseId) : Prop :=
  ∃ s T, prog.SettledAt c p s T ∧ counts s

/-- Of the inputs whose settlements before moment `j` count, `p` is the first in time; it is settled
at moment `c`. -/
structure FirstInTime (prog : Program P) (counts : Settlement P.Value P.Error → Prop)
    (inputs : List PromiseId) (j : Nat) (p : PromiseId) (c : Nat) : Prop where
  mem : p ∈ inputs
  before : c < j
  counted : prog.CountsAt counts c p
  first : ∀ p' ∈ inputs, ∀ c' < j, prog.CountsAt counts c' p' → c ≤ c'

/-- Of the inputs whose settlements before moment `a` count, `p` is the first in the list. -/
def FirstInList (prog : Program P) (counts : Settlement P.Value P.Error → Prop)
    (inputs : List PromiseId) (a : Nat) (p : PromiseId) : Prop :=
  ∃ i : Nat, inputs[i]? = some p ∧ (∃ c < a, prog.CountsAt counts c p) ∧
    ∀ i' < i, ∀ p' c', inputs[i']? = some p' → c' < a → prog.CountsAt counts c' p' → p' = p

/-- Which input decides what the result `r` of a call at moment `a` ends as, at a later moment
`j`. -/
structure Precedence (prog : Program P) (counts : Settlement P.Value P.Error → Prop) (a : Nat)
    (inputs : List PromiseId) (r : PromiseId) (j : Nat) (m : Machine P) : Prop where
  /-- The first input in time decides, unless it was settled before the call and is not the first
  one in the list of those that were. -/
  in_time : ∀ p c, prog.FirstInTime counts inputs j p c →
    (c < a → prog.FirstInList counts inputs a p) → (m.world.view r).EndsAs (m.world.view p)
  /-- Of the inputs that were settled before the call, the first one in the list decides. -/
  in_list : ∀ p c, prog.FirstInTime counts inputs j p c → c < a →
    ∃ q, prog.FirstInList counts inputs a q ∧ (m.world.view r).EndsAs (m.world.view q)

/-- The input `p` at place `i`, which is settled at moment `c`, comes before all others that count,
and the result `r` ends as it does. -/
structure Decides (prog : Program P) (counts : Settlement P.Value P.Error → Prop) (a : Nat)
    (inputs : List PromiseId) (r : PromiseId) (j : Nat) (m : Machine P) (i : Nat) (p : PromiseId)
    (c : Nat) : Prop where
  place : inputs[i]? = some p
  before : c < j
  counted : prog.CountsAt counts c p
  not_sooner : ∀ i' p' c', inputs[i']? = some p' → c' < j → prog.CountsAt counts c' p' →
    p' = p ∨ ¬ Sooner a c' i' c i
  ends : (m.world.view r).EndsAs (m.world.view p)

variable {prog : Program P} {counts : Settlement P.Value P.Error → Prop} {a j i c : Nat}
  {inputs : List PromiseId} {p q r : PromiseId} {start : Duration} {m : Machine P}

/-- The order of the inputs is one. -/
lemma Sooner.asymm {i' c' : Nat} (h : Sooner a c i c' i') : ¬ Sooner a c' i' c i := by
  unfold Sooner at *
  omega

namespace CountsAt

lemma promise_unique (h : prog.CountsAt counts c p) (h' : prog.CountsAt counts c q) : p = q := by
  obtain ⟨s, T, hat, -⟩ := h
  obtain ⟨s', T', hat', -⟩ := h'
  exact Program.promise_unique hat hat'

lemma moment_unique {c' : Nat} (h : prog.CountsAt counts c p) (h' : prog.CountsAt counts c' p) :
    c = c' := by
  obtain ⟨s, T, hat, -⟩ := h
  obtain ⟨s', T', hat', -⟩ := h'
  exact (hat.unique hat').1

end CountsAt

/-- One input is the first in the list. -/
lemma FirstInList.unique (h : prog.FirstInList counts inputs a p)
    (h' : prog.FirstInList counts inputs a q) : p = q := by
  obtain ⟨i, hp, ⟨c, hc, hcounted⟩, hfirst⟩ := h
  obtain ⟨i', hq, ⟨c', hc', hcounted'⟩, hfirst'⟩ := h'
  rcases Nat.lt_trichotomy i i' with hlt | rfl | hlt
  · exact hfirst' i hlt p c hp hc hcounted
  · exact Option.some.inj (hp.symm.trans hq)
  · exact (hfirst i' hlt q c' hq hc' hcounted').symm

namespace Decides

/-- If the input that decides was settled before the call, it is the first one in the list. -/
lemma firstInList (h : prog.Decides counts a inputs r j m i p c) (haj : a ≤ j) (hca : c < a) :
    prog.FirstInList counts inputs a p := by
  refine ⟨i, h.place, ⟨c, hca, h.counted⟩, fun i' hlt p' c' hp' hca' hcounted' => ?_⟩
  refine (h.not_sooner i' p' c' hp' (by omega) hcounted').resolve_right fun hno => ?_
  exact hno (Or.inl ⟨hca', hca, hlt⟩)

/-- If it is settled after the call, it is the first one in time. -/
lemma eq_of_firstInTime (h : prog.Decides counts a inputs r j m i p c) (hac : a ≤ c) {d : Nat}
    (first : prog.FirstInTime counts inputs j q d) : q = p ∧ d = c := by
  have hdc : d ≤ c := first.first p (List.mem_of_getElem? h.place) c h.before h.counted
  rcases Nat.lt_or_eq_of_le hdc with hlt | rfl
  · -- an input that is settled sooner would decide
    obtain ⟨i', hq⟩ := List.mem_iff_getElem?.mp first.mem
    rcases h.not_sooner i' q d hq first.before first.counted with rfl | hno
    · exact ⟨rfl, first.counted.moment_unique h.counted⟩
    · exact absurd (Or.inr ⟨hac, hlt⟩) hno
  · exact ⟨first.counted.promise_unique h.counted, rfl⟩

/-- An input that comes before all others decides as it was said. -/
lemma ends_of_firstInTime (h : prog.Decides counts a inputs r j m i p c) (haj : a ≤ j) {d : Nat}
    (first : prog.FirstInTime counts inputs j q d)
    (listed : d < a → prog.FirstInList counts inputs a q) :
    (m.world.view r).EndsAs (m.world.view q) := by
  rcases Nat.lt_or_ge c a with hca | hac
  · have hdc : d ≤ c := first.first p (List.mem_of_getElem? h.place) c h.before h.counted
    rw [(listed (by omega)).unique (h.firstInList haj hca)]
    exact h.ends
  · rw [(h.eq_of_firstInTime hac first).1]
    exact h.ends

end Decides

/-- Which input decides, if some input decides whenever there is one that counts. -/
lemma precedence_of_decides (haj : a ≤ j)
    (decides : ∀ q ∈ inputs, ∀ d < j, prog.CountsAt counts d q →
      ∃ i p c, prog.Decides counts a inputs r j m i p c) :
    prog.Precedence counts a inputs r j m where
  in_time q d first listed := by
    obtain ⟨i, p, c, h⟩ := decides q first.mem d first.before first.counted
    exact h.ends_of_firstInTime haj first listed
  in_list q d first hda := by
    obtain ⟨i, p, c, h⟩ := decides q first.mem d first.before first.counted
    have hca : c < a := by
      by_contra hac
      have hdc := (h.eq_of_firstInTime (Nat.not_lt.mp hac) first).2
      omega
    exact ⟨p, h.firstInList haj hca, h.ends⟩

/-! ## Selects and joins -/

/-- What decides a select. -/
lemma SelectLaw.exists_decides (h : prog.SelectLaw a inputs r start j m)
    (hm : prog.moment j = some m) {d : Nat} (hq : q ∈ inputs) (hdj : d < j)
    (hcounted : prog.CountsAt (fun _ => True) d q) :
    ∃ i p c, prog.Decides (fun _ => True) a inputs r j m i p c := by
  have hsettled : (m.world.view r).state ≠ .unresolved := by
    intro hunresolved
    obtain ⟨s, T, ⟨md, hmd, hsettles, -⟩, -⟩ := hcounted
    have hstate := h.unresolved_iff.mp hunresolved q hq
    rw [View.state_of_settlement? (settled_of_settles hdj hmd hsettles hm)] at hstate
    cases s <;> cases hstate
  obtain ⟨i, p, c, s, T, hp, hcj, hat, hsooner, hends, -⟩ := h.first hsettled
  refine ⟨i, p, c, hp, hcj, ⟨s, T, hat, trivial⟩, fun i' p' c' hp' hcj' hcounted' => ?_, ?_⟩
  · obtain ⟨s', T', hat', -⟩ := hcounted'
    exact (hsooner i' p' c' s' T' hp' hcj' hat').imp_right Sooner.asymm
  · exact hends.imp_right fun ⟨t, t', ht, ht', herror, hparent⟩ =>
      ⟨t, t', ht, ht', herror, hparent, Trace.depth_eq_of_parent? hparent⟩

/-- What decides a join that fails. -/
lemma JoinLaw.exists_decides (h : prog.JoinLaw a inputs r start j m)
    (hm : prog.moment j = some m) {d : Nat} (hq : q ∈ inputs) (hdj : d < j)
    (hcounted : prog.CountsAt Settlement.Fails d q) :
    ∃ i p c, prog.Decides Settlement.Fails a inputs r j m i p c := by
  have hfailed : (m.world.view r).state = .failed := by
    obtain ⟨s, T, ⟨md, hmd, hsettles, -⟩, hfails⟩ := hcounted
    refine h.failed_iff.mpr ⟨q, hq, ?_⟩
    rw [View.state_of_settlement? (settled_of_settles hdj hmd hsettles hm)]
    cases s with
    | fulfilled => cases hfails
    | failed => rfl
  obtain ⟨i, p, c, t, T, hp, hcj, hat, ht, hsooner, ⟨t', ht', herror, hparent⟩, -⟩ :=
    h.failure hfailed
  refine ⟨i, p, c, hp, hcj, ⟨_, T, hat, trivial⟩, fun i' p' c' hp' hcj' hcounted' => ?_, ?_⟩
  · obtain ⟨s', T', hat', hfails'⟩ := hcounted'
    cases s' with
    | fulfilled => cases hfails'
    | failed e cause? => exact Or.inr (hsooner i' p' c' e cause? T' hp' hcj' hat')
  · exact Or.inr ⟨t, t', ht, ht', herror, hparent, Trace.depth_eq_of_parent? hparent⟩

/-- **Which input decides what a select or a join becomes.**  In every run of a composed program in
which no callback makes a drive call, if a select or a join is called and nobody else attempts to
settle its result, at every later moment at which no task is due and no delivery under way:

* the result has ended as the first input in time, among the settled ones for a select and among the
  failed ones for a join, unless this was settled before the call and is not the first in the list
  of those that were;
* if the first in time was settled before the call, the result has ended as the first in the list of
  those that were. -/
theorem select_join_precedence (prog : Program P) (composed : prog.main.Composed True)
    (passive : prog.Passive) {a : Nat} {w : World P} {inputs : List PromiseId}
    {k : PromiseId → Script P Unit} {rest : List (Activity P)}
    (exist : ∀ p ∈ inputs, p.index < w.promises.size) :
    (prog.moment a = some ⟨w, .script ((Script.select inputs).bind k) :: rest⟩ →
      ∀ j m, a + 1 + inputs.length ≤ j → prog.moment j = some m → m.Quiet →
        (∀ c < j, prog.At c (fun m => m.Attempts ⟨w.promises.size⟩) →
          prog.DoneBy a (a + 1 + inputs.length) c) →
        prog.Precedence (fun _ => True) a inputs ⟨w.promises.size⟩ j m) ∧
    (prog.moment a = some ⟨w, .script ((Script.join inputs).bind k) :: rest⟩ →
      ∀ j m, a + 2 + inputs.length ≤ j → prog.moment j = some m → m.Quiet →
        (∀ c < j, prog.At c (fun m => m.Attempts ⟨w.promises.size⟩) →
          prog.DoneBy a (a + 2 + inputs.length) c) →
        prog.Precedence Settlement.Fails a inputs ⟨w.promises.size⟩ j m) := by
  constructor
  · intro ha j m hj hm hquiet owned
    obtain ⟨⟨m₀, h₀, -, hlt, -⟩, hlistens⟩ := listens_of_select ha exist
    have hlaw := hlistens.select_law ⟨m₀, h₀, hlt⟩ passive owned hj hm hquiet
    exact precedence_of_decides (by omega) fun q hq d hdj hcounted =>
      hlaw.exists_decides hm hq hdj hcounted
  · intro ha j m hj hm hquiet owned
    have hlaw := (law_of_call composed passive ha exist).2 j m hj hm hquiet owned
    exact precedence_of_decides (by omega) fun q hq d hdj hcounted =>
      hlaw.exists_decides hm hq hdj hcounted

/-- A program that selects from two promises and joins them, in the order in which they were made or
in the other one.  Both have failed before, the second one first. -/
def lostTwice (swapped : Bool) : Program Session.Play where
  settings := .withoutTraces
  walks _ := []
  internal := []
  store := {}
  main := do
    let p ← Script.create
    let q ← Script.create
    discard (Script.fail q (.failed "first"))
    discard (Script.fail p (.failed "second"))
    let _ ← Script.select (if swapped then [q, p] else [p, q])
    let _ ← Script.join (if swapped then [q, p] else [p, q])
    discard Script.runUntilIdle

namespace lostTwice

lemma composed (swapped : Bool) : (lostTwice swapped).main.Composed True := by
  refine .bind (.once trivial) fun p => .bind (.once trivial) fun q => ?_
  refine .bind (.bind (.once trivial) fun _ => .pure ()) fun _ => ?_
  refine .bind (.bind (.once trivial) fun _ => .pure ()) fun _ => ?_
  refine .bind (.select _) fun _ => .bind (.join _) fun _ => ?_
  exact .bind (.drive .idle fun n => .pure n) fun _ => .pure ()

lemma passive (swapped : Bool) : (lostTwice swapped).Passive := by
  cases swapped
  all_goals
    refine (flat_of_ends (n := 35) rfl ?_).passive
    decide +kernel

/-- Neither promise is settled before the moment at which the second one is. -/
lemma le_of_countsAt (swapped : Bool) {counts : Settlement Session.Play.Value Failure → Prop}
    {c : Nat} (hc : c < 33) {p : PromiseId} (hp : p = ⟨0⟩ ∨ p = ⟨1⟩)
    (h : (lostTwice swapped).CountsAt counts c p) : 2 ≤ c := by
  obtain ⟨s, T, ⟨m, hm, hsettles, -⟩, -⟩ := h
  rcases hp with rfl | rfl
  all_goals
    refine of_attempted (Q := (2 ≤ ·)) ?_ hc ⟨m, hm, hsettles.attempts⟩
    cases swapped
  all_goals decide +kernel

/-- The second promise is the first one in time. -/
lemma firstInTime (swapped : Bool) {counts : Settlement Session.Play.Value Failure → Prop}
    (hcounts : counts (.failed (.failed "first") none)) :
    (lostTwice swapped).FirstInTime counts (if swapped then [⟨1⟩, ⟨0⟩] else [⟨0⟩, ⟨1⟩]) 33
      ⟨1⟩ 2 where
  mem := by cases swapped <;> simp
  before := by decide
  counted := by
    cases swapped
    all_goals exact ⟨_, _, ⟨_, rfl, ⟨by decide, rfl, _, _, rfl⟩, rfl⟩, hcounts⟩
  first p' hp' c' hc' hcounted := by
    refine le_of_countsAt swapped hc' ?_ hcounted
    cases swapped
    · simpa using hp'
    · exact Or.comm.mp (by simpa using hp')

/-- If the second promise is listed first, it is the first one in the list. -/
lemma firstInList {counts : Settlement Session.Play.Value Failure → Prop}
    (hcounts : counts (.failed (.failed "first") none)) {a : Nat} (ha : 2 < a) :
    (lostTwice true).FirstInList counts [⟨1⟩, ⟨0⟩] a ⟨1⟩ :=
  ⟨0, rfl, ⟨2, ha, (firstInTime true hcounts).counted⟩,
    fun i' hi' => absurd hi' (Nat.not_lt_zero i')⟩

/-- Only the callbacks of the inputs attempt to settle the result of the select. -/
lemma doneBy_select {c : Nat} (hc : c < 33)
    (hat : (lostTwice true).At c fun m => m.Attempts ⟨2⟩) : (lostTwice true).DoneBy 4 7 c := by
  obtain rfl | rfl := of_attempted (Q := fun i => i = 14 ∨ i = 19) (by decide +kernel) hc hat
  · exact doneBy_of_called (c := 5) (by decide) (by decide) ⟨_, rfl, ⟨_, by decide, _, _, rfl⟩, rfl⟩
      ⟨_, rfl, rfl⟩ ⟨_, rfl, [_], by simp, rfl⟩
  · exact doneBy_of_called (c := 6) (by decide) (by decide) ⟨_, rfl, ⟨_, by decide, _, _, rfl⟩, rfl⟩
      ⟨_, rfl, rfl⟩ ⟨_, rfl, [_], by simp, rfl⟩

/-- So it is with the result of the join. -/
lemma doneBy_join {c : Nat} (hc : c < 33)
    (hat : (lostTwice true).At c fun m => m.Attempts ⟨3⟩) : (lostTwice true).DoneBy 7 11 c := by
  obtain rfl | rfl := of_attempted (Q := fun i => i = 24 ∨ i = 29) (by decide +kernel) hc hat
  · exact doneBy_of_called (c := 9) (by decide) (by decide) ⟨_, rfl, ⟨_, by decide, _, _, rfl⟩, rfl⟩
      ⟨_, rfl, rfl⟩ ⟨_, rfl, [_], by simp, rfl⟩
  · exact doneBy_of_called (c := 10) (by decide) (by decide)
      ⟨_, rfl, ⟨_, by decide, _, _, rfl⟩, rfl⟩ ⟨_, rfl, rfl⟩ ⟨_, rfl, [_], by simp, rfl⟩

end lostTwice

/-- If the second promise is listed first, both results fail because of it. -/
theorem select_join_precedence_lostTwice : ∃ m, (lostTwice true).moment 33 = some m ∧
    (m.world.view ⟨1⟩).result? = some (.error (.failed "first")) ∧
    (m.world.view ⟨2⟩).EndsAs (m.world.view ⟨1⟩) ∧
    (m.world.view ⟨3⟩).EndsAs (m.world.view ⟨1⟩) := by
  obtain ⟨w, k, rest, ha, hsize⟩ : ∃ w k rest, (lostTwice true).moment 4 =
      some ⟨w, .script ((Script.select [⟨1⟩, ⟨0⟩]).bind k) :: rest⟩ ∧ w.promises.size = 2 :=
    ⟨_, _, _, rfl, rfl⟩
  obtain ⟨w', k', rest', ha', hsize'⟩ : ∃ w k rest, (lostTwice true).moment 7 =
      some ⟨w, .script ((Script.join [⟨1⟩, ⟨0⟩]).bind k) :: rest⟩ ∧ w.promises.size = 3 :=
    ⟨_, _, _, rfl, rfl⟩
  obtain ⟨m, hm, hresult, hstack, hwaiting⟩ : ∃ m, (lostTwice true).moment 33 = some m ∧
      (m.world.view ⟨1⟩).result? = some (.error (.failed "first")) ∧
        m.stack = [.script (.pure ())] ∧ m.world.queue.waiting = [] := ⟨_, rfl, rfl, rfl, rfl⟩
  have hquiet : m.Quiet := ⟨by simp [hwaiting], by simp [hstack]⟩
  have exist : ∀ p ∈ [(⟨1⟩ : PromiseId), ⟨0⟩], p.index < w.promises.size := by simp [hsize]
  have exist' : ∀ p ∈ [(⟨1⟩ : PromiseId), ⟨0⟩], p.index < w'.promises.size := by simp [hsize']
  obtain ⟨hselect, -⟩ := select_join_precedence (lostTwice true) (lostTwice.composed true)
    (lostTwice.passive true) exist
  obtain ⟨-, hjoin⟩ := select_join_precedence (lostTwice true) (lostTwice.composed true)
    (lostTwice.passive true) exist'
  have hselected := hselect ha 33 m (by decide) hm hquiet
  have hjoined := hjoin ha' 33 m (by decide) hm hquiet
  rw [hsize] at hselected
  rw [hsize'] at hjoined
  exact ⟨m, hm, hresult,
    (hselected fun c hc hat => lostTwice.doneBy_select hc hat).in_time ⟨1⟩ 2
      (lostTwice.firstInTime true trivial) fun _ => lostTwice.firstInList trivial (by decide),
    (hjoined fun c hc hat => lostTwice.doneBy_join hc hat).in_time ⟨1⟩ 2
      (lostTwice.firstInTime true trivial) fun _ => lostTwice.firstInList trivial (by decide)⟩

/-- If the first promise is listed first, both results fail because of it, although the second one
was the first one in time. -/
theorem overtaken_in_list : (lostTwice false).Passive ∧
    (lostTwice false).FirstInTime (fun _ => True) [⟨0⟩, ⟨1⟩] 33 ⟨1⟩ 2 ∧
    (lostTwice false).FirstInTime Settlement.Fails [⟨0⟩, ⟨1⟩] 33 ⟨1⟩ 2 ∧
    (∃ w k rest, (lostTwice false).moment 4 =
      some ⟨w, .script ((Script.select [⟨0⟩, ⟨1⟩]).bind k) :: rest⟩ ∧ w.promises.size = 2) ∧
    (∃ w k rest, (lostTwice false).moment 7 =
      some ⟨w, .script ((Script.join [⟨0⟩, ⟨1⟩]).bind k) :: rest⟩ ∧ w.promises.size = 3) ∧
    ∃ m, (lostTwice false).moment 33 = some m ∧ m.world.queue.waiting = [] ∧
      (m.world.view ⟨1⟩).result? = some (.error (.failed "first")) ∧
      (m.world.view ⟨2⟩).result? = some (.error (.failed "second")) ∧
      (m.world.view ⟨3⟩).result? = some (.error (.failed "second")) :=
  ⟨lostTwice.passive false, lostTwice.firstInTime false trivial,
    lostTwice.firstInTime false trivial, ⟨_, _, _, rfl, rfl⟩, ⟨_, _, _, rfl, rfl⟩,
    _, rfl, rfl, rfl, rfl, rfl⟩

end Program

end Eventual
