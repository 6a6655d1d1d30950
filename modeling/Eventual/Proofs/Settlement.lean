import Eventual.Proofs.Run
import Eventual.Session.Ledger

/-!
# Promises are settled once

Along a run a promise keeps the stack it was made under, counts its observers upwards, and, once it
is settled, keeps its settlement (`Promise.Grows`).  Only an attempt to settle it settles a promise,
and an attempt always leaves it settled; so a promise is settled exactly if an attempt has been made
on it, and of all attempts the first one takes effect (`first_attempt_wins`).
-/

namespace Eventual

variable {P : Payload}

/-! ## What becomes of a promise -/

/-- What a promise may become while operations are carried out. -/
structure Promise.Grows (a b : Promise P) : Prop where
  segment?_eq : b.segment? = a.segment?
  observed_le : a.observed ≤ b.observed
  settled : ∀ s, a.slot = .settled s → b.slot = .settled s

lemma Promise.Grows.refl (a : Promise P) : a.Grows a := ⟨rfl, Nat.le_refl _, fun _ h => h⟩

lemma Promise.Grows.view_eq {a b : Promise P} (h : a.Grows b) {s : Settlement P.Value P.Error}
    (hs : a.slot = .settled s) : b.view = a.view := by
  rw [Promise.view, Promise.view, h.settled s hs, hs, h.segment?_eq]

namespace World

variable {w w' : World P}

lemma view_of_eq_some {p : PromiseId} {a : Promise P} (h : w.promises[p.index]? = some a) :
    w.view p = a.view := by
  rw [view, h]

lemma settlement?_view_eq_some_iff {p : PromiseId} {s : Settlement P.Value P.Error} :
    (w.view p).settlement? = some s ↔
      ∃ a, w.promises[p.index]? = some a ∧ a.slot = .settled s := by
  rcases h : w.promises[p.index]? with _ | ⟨segment?, observed, waiting | s₀⟩ <;>
    simp [view, h, Promise.view]

lemma getElem?_putPromise {p : PromiseId} {a : Promise P} (b : Promise P)
    (h : w.promises[p.index]? = some a) (i : Nat) :
    (w.promises.setIfInBounds p.index b)[i]? = if i = p.index then some b else w.promises[i]? := by
  have hlt : p.index < w.promises.size := (Array.getElem?_eq_some_iff.mp h).1
  rw [Array.getElem?_setIfInBounds]
  by_cases hi : i = p.index
  · rw [if_pos hi.symm, if_pos hi, if_pos hlt]
  · rw [if_neg (Ne.symm hi), if_neg hi]

/-- Promises grow under every operation. -/
lemma Effect.grows {ρ : Type} {o : Op P ρ} (h : Effect w w' o) {i : Nat} {a : Promise P}
    (ha : w.promises[i]? = some a) : ∃ b, w'.promises[i]? = some b ∧ a.Grows b := by
  -- a promise that is replaced: it is enough that the new one is a later state of the old one
  have replaced : ∀ {p : PromiseId} {c b : Promise P}, w.promises[p.index]? = some c →
      w'.promises = w.promises.setIfInBounds p.index b → c.Grows b →
      ∃ b, w'.promises[i]? = some b ∧ a.Grows b := by
    intro p c b hc hw hgrows
    rw [hw, getElem?_putPromise b hc]
    by_cases hi : i = p.index
    · subst hi
      cases ha.symm.trans hc
      exact ⟨b, if_pos rfl, hgrows⟩
    · rw [if_neg hi]
      exact ⟨a, ha, .refl a⟩
  cases h with
  | still hp | schedule _ hp =>
    rw [hp]
    exact ⟨a, ha, .refl a⟩
  | make segment? hp =>
    have hlt : i < w.promises.size := (Array.getElem?_eq_some_iff.mp ha).1
    rw [hp, Array.getElem?_push, if_neg (Nat.ne_of_lt hlt)]
    exact ⟨a, ha, .refl a⟩
  | settle hb hp => exact replaced hb hp ⟨rfl, Nat.le_refl _, by simp⟩
  | enlist hb hp => exact replaced hb hp ⟨rfl, Nat.le_succ _, by simp⟩
  | inform hb hp => exact replaced hb hp ⟨rfl, Nat.le_succ _, fun _ h => h⟩

end World

/-! ## Attempts -/

/-- Whether an operation is an attempt to settle a promise. -/
def Op.isSettle : {ρ : Type} → Op P ρ → Bool
  | _, settle _ _ => true
  | _, _ => false

namespace Machine

variable {m m' : Machine P}

/-- An attempt to settle an existing promise is about to be made. -/
def Attempts (m : Machine P) (p : PromiseId) : Prop :=
  p.index < m.world.promises.size ∧
    ∃ s k rest, m.stack = .script (.op (.settle p s) k) :: rest

lemma Attempts.isSettle {w : World P} {p : PromiseId} {ρ : Type} {o : Op P ρ}
    {k : ρ → Script P Unit} {rest : List (Activity P)}
    (h : Attempts ⟨w, .script (.op o k) :: rest⟩ p) : o.isSettle = true := by
  obtain ⟨-, s, k', rest', hstack⟩ := h
  cases hstack
  rfl

/-- The attempt that settles a promise is about to be made. -/
def Settles (m : Machine P) (p : PromiseId) (s : Settlement P.Value P.Error) : Prop :=
  p.index < m.world.promises.size ∧ (m.world.view p).settlement? = none ∧
    ∃ k rest, m.stack = .script (.op (.settle p s) k) :: rest

lemma Settles.attempts {p : PromiseId} {s : Settlement P.Value P.Error} (h : m.Settles p s) :
    m.Attempts p :=
  ⟨h.1, s, h.2.2⟩

/-- Promises grow with every step. -/
lemma Step.grows (h : m.Step m') {i : Nat} {a : Promise P}
    (ha : m.world.promises[i]? = some a) :
    ∃ b, m'.world.promises[i]? = some b ∧ a.Grows b := by
  cases h with
  | operate performed => exact (World.effect_of_perform performed).2.grows ha
  | finish | drive | attempt | delivered | call | leaveOut | start | driven =>
    exact ⟨a, ha, .refl a⟩

lemma Step.view_eq (h : m.Step m') {p : PromiseId} {s : Settlement P.Value P.Error}
    (hs : (m.world.view p).settlement? = some s) : m'.world.view p = m.world.view p := by
  obtain ⟨a, ha, has⟩ := World.settlement?_view_eq_some_iff.mp hs
  obtain ⟨b, hb, hgrows⟩ := h.grows ha
  rw [World.view_of_eq_some ha, World.view_of_eq_some hb, hgrows.view_eq has]

/-- Only an attempt to settle a promise settles it. -/
lemma Step.settled_before (h : m.Step m') {p : PromiseId} {s : Settlement P.Value P.Error}
    (hs : (m'.world.view p).settlement? = some s) (hno : ¬ m.Attempts p) :
    (m.world.view p).settlement? = some s := by
  cases h with
  | @operate w w' _ _ _ _ _ performed =>
    obtain ⟨b, hb, hbs⟩ := World.settlement?_view_eq_some_iff.mp hs
    rw [World.settlement?_view_eq_some_iff]
    cases (World.effect_of_perform performed).2 with
    | still promises | schedule _ promises =>
      rw [promises] at hb
      exact ⟨b, hb, hbs⟩
    | make segment? promises =>
      rw [promises, Array.getElem?_push] at hb
      split at hb
      · cases hb
        cases hbs
      · exact ⟨b, hb, hbs⟩
    | @settle q _ _ _ _ before promises =>
      rw [promises, World.getElem?_putPromise _ before, if_neg] at hb
      · exact ⟨b, hb, hbs⟩
      · -- the promise that was settled is another one, since no attempt was made on this one
        intro hi
        obtain rfl : p = q := congrArg PromiseId.mk hi
        exact hno ⟨(Array.getElem?_eq_some_iff.mp before).1, _, _, _, rfl⟩
    | enlist before promises =>
      rw [promises, World.getElem?_putPromise _ before] at hb
      split at hb
      · cases hb
        cases hbs
      · exact ⟨b, hb, hbs⟩
    | inform before promises =>
      rw [promises, World.getElem?_putPromise _ before] at hb
      split at hb
      · rename_i hi
        cases hb
        rw [hi]
        exact ⟨_, before, hbs⟩
      · exact ⟨b, hb, hbs⟩
  | finish | drive | attempt | delivered | call | leaveOut | start | driven => exact hs

/-- An attempt leaves the promise settled. -/
lemma Step.settled_of_attempts (h : m.Step m') {p : PromiseId} (hp : m.Attempts p) :
    ∃ s, (m'.world.view p).settlement? = some s := by
  obtain ⟨w, stack⟩ := m
  obtain ⟨hlt, s, k, rest, rfl⟩ := hp
  cases h with
  | operate performed =>
    cases performed
    obtain ⟨⟨segment?, observed, waiting | s₀⟩, ha⟩ : ∃ a, w.promises[p.index]? = some a :=
      ⟨_, Array.getElem?_eq_getElem hlt⟩
    · refine ⟨s, World.settlement?_view_eq_some_iff.mpr ⟨⟨segment?, observed, .settled s⟩, ?_, rfl⟩⟩
      change (w.settle p s).2.promises[p.index]? = _
      rw [World.settle_unresolved ha, World.promises_deliver, World.putPromise,
        World.getElem?_putPromise _ ha, if_pos rfl]
    · refine ⟨s₀, World.settlement?_view_eq_some_iff.mpr
        ⟨⟨segment?, observed, .settled s₀⟩, ?_, rfl⟩⟩
      change (w.settle p s).2.promises[p.index]? = _
      rw [World.settle_settled ha]
      exact ha

lemma Step.view_of_settles (h : m.Step m') {p : PromiseId} {s : Settlement P.Value P.Error}
    (hs : m.Settles p s) : m'.world.view p = { m.world.view p with settlement? := some s } := by
  obtain ⟨w, stack⟩ := m
  obtain ⟨hlt, hnone, k, rest, rfl⟩ := hs
  cases h with
  | operate performed =>
    cases performed
    obtain ⟨⟨segment?, observed, waiting | s₀⟩, ha⟩ : ∃ a, w.promises[p.index]? = some a :=
      ⟨_, Array.getElem?_eq_getElem hlt⟩
    · have hb : (w.settle p s).2.promises[p.index]? = some ⟨segment?, observed, .settled s⟩ := by
        rw [World.settle_unresolved ha, World.promises_deliver, World.putPromise,
          World.getElem?_putPromise _ ha, if_pos rfl]
      change (w.settle p s).2.view p = { w.view p with settlement? := some s }
      rw [World.view_of_eq_some ha, World.view_of_eq_some hb]
      rfl
    · rw [World.view_of_eq_some ha] at hnone
      cases hnone

end Machine

/-! ## Runs -/

namespace Program

variable {prog : Program P}

/-- What can be read of a settled promise never changes. -/
lemma view_eq_of_settled {i j : Nat} {m m' : Machine P} (hij : i ≤ j)
    (hi : prog.moment i = some m) (hj : prog.moment j = some m') {p : PromiseId}
    {s : Settlement P.Value P.Error} (hs : (m.world.view p).settlement? = some s) :
    m'.world.view p = m.world.view p := by
  refine carry (I := fun m₁ => m₁.world.view p = m.world.view p) ?_ hij hi rfl hj
  intro m₁ m₂ h₁ hstep
  rw [hstep.view_eq (h₁ ▸ hs), h₁]

/-- A promise is settled exactly if an attempt has been made to settle it. -/
lemma settled_iff_attempted {n : Nat} {m : Machine P} (h : prog.moment n = some m)
    (p : PromiseId) :
    (∃ s, (m.world.view p).settlement? = some s) ↔
      ∃ j < n, prog.At j fun m' => m'.Attempts p := by
  constructor
  · induction n generalizing m with
    | zero =>
      rintro ⟨s, hs⟩
      cases h
      cases hs
    | succ n ih =>
      rintro ⟨s, hs⟩
      obtain ⟨m₁, h₁, hstep⟩ := moment_succ_eq_some_iff.mp h
      rw [before_succ_iff h₁]
      by_cases hno : m₁.Attempts p
      · exact Or.inr hno
      · exact Or.inl (ih h₁ ⟨s, hstep.settled_before hs hno⟩)
  · rintro ⟨j, hj, m₁, h₁, hp⟩
    obtain ⟨m₂, h₂⟩ := exists_moment_of_le hj h
    obtain ⟨s, hs⟩ := (step_of_moment h₁ h₂).settled_of_attempts hp
    exact ⟨s, by rw [view_eq_of_settled hj h₂ h hs, hs]⟩

/-- A settled promise was settled by an attempt. -/
lemma exists_settles {n : Nat} {m : Machine P} (h : prog.moment n = some m) {p : PromiseId}
    {s : Settlement P.Value P.Error} (hs : (m.world.view p).settlement? = some s) :
    ∃ i < n, prog.At i fun m => m.Settles p s := by
  induction n generalizing m with
  | zero =>
    cases h
    cases hs
  | succ n ih =>
    obtain ⟨m₁, h₁, hstep⟩ := moment_succ_eq_some_iff.mp h
    rw [before_succ_iff h₁]
    rcases hbefore : (m₁.world.view p).settlement? with _ | s₁
    · have hat : m₁.Attempts p := by
        by_contra hno
        rw [hstep.settled_before hs hno] at hbefore
        cases hbefore
      obtain ⟨hlt, s₁, hstack⟩ := hat
      have hsettles : m₁.Settles p s₁ := ⟨hlt, hbefore, hstack⟩
      rw [hstep.view_of_settles hsettles] at hs
      cases hs
      exact Or.inr hsettles
    · obtain rfl : s₁ = s := by
        rw [hstep.view_eq hbefore, hbefore] at hs
        exact Option.some.inj hs
      exact Or.inl (ih h₁ hbefore)

lemma settled_of_settles {i n : Nat} {m m' : Machine P} (hin : i < n)
    (hi : prog.moment i = some m) {p : PromiseId} {s : Settlement P.Value P.Error}
    (hs : m.Settles p s) (hn : prog.moment n = some m') :
    (m'.world.view p).settlement? = some s := by
  obtain ⟨m₁, h₁⟩ := exists_moment_of_le hin hn
  have hview := (step_of_moment hi h₁).view_of_settles hs
  have hsettled : (m₁.world.view p).settlement? = some s := by rw [hview]
  rw [view_eq_of_settled hin h₁ hn hsettled, hsettled]

/-- A promise is settled once. -/
lemma settles_unique {i j : Nat} {p : PromiseId} {s s' : Settlement P.Value P.Error}
    (hi : prog.At i fun m => m.Settles p s) (hj : prog.At j fun m => m.Settles p s') : i = j := by
  obtain ⟨m, hm, hs⟩ := hi
  obtain ⟨m', hm', hs'⟩ := hj
  rcases Nat.lt_trichotomy i j with hlt | heq | hlt
  · cases hs'.2.1.symm.trans (settled_of_settles hlt hm hs hm')
  · exact heq
  · cases hs.2.1.symm.trans (settled_of_settles hlt hm' hs' hm)

/-- **The first attempt wins.**  Whatever script makes an attempt to settle a promise, and whenever,
it is told at once whether it took effect, and it did exactly if it is the first attempt on this
promise in the whole run.  Then the promise holds the settlement; otherwise no promise, no observer
and no task has changed, and the clock has not moved.  Either way the promise reads the same from
then on. -/
theorem first_attempt_wins (prog : Program P) {i : Nat} {w : World P} {p : PromiseId}
    {s : Settlement P.Value P.Error} {k : Bool → Script P Unit} {rest : List (Activity P)}
    (h : prog.moment i = some ⟨w, .script (.op (.settle p s) k) :: rest⟩)
    (hp : p.index < w.promises.size) :
    ∃ took w', prog.moment (i + 1) = some ⟨w', .script (k took) :: rest⟩ ∧
      (took = true ↔ ∀ j < i, ¬ prog.At j fun m => m.Attempts p) ∧
      (took = true → (w.view p).settlement? = none ∧
        w'.view p = { w.view p with settlement? := some s }) ∧
      (took = false → w'.promises = w.promises ∧ w'.queue = w.queue ∧ w'.clock = w.clock) ∧
      ∀ j m, i < j → prog.moment j = some m → m.world.view p = w'.view p := by
  have hstep : Machine.Step ⟨w, .script (.op (.settle p s) k) :: rest⟩
      ⟨(w.settle p s).2, .script (k (w.settle p s).1) :: rest⟩ := .operate rfl
  have hnext : prog.moment (i + 1) =
      some ⟨(w.settle p s).2, .script (k (w.settle p s).1) :: rest⟩ :=
    moment_succ_eq_some_iff.mpr ⟨_, h, hstep⟩
  have hattempted := settled_iff_attempted h p
  obtain ⟨s₁, hs₁⟩ := hstep.settled_of_attempts ⟨hp, s, k, rest, rfl⟩
  refine ⟨_, _, hnext, ?_, ?_, ?_, fun j m hij hj => view_eq_of_settled hij hnext hj hs₁⟩
  -- each part twice: the promise is unresolved, or the attempt comes too late
  all_goals
    obtain ⟨⟨segment?, observed, waiting | s₀⟩, ha⟩ : ∃ a, w.promises[p.index]? = some a :=
      ⟨_, Array.getElem?_eq_getElem hp⟩
  · rw [World.settle_unresolved ha]
    refine iff_of_true rfl fun j hj hat => ?_
    obtain ⟨s₂, hs₂⟩ := hattempted.mpr ⟨j, hj, hat⟩
    rw [World.view_of_eq_some ha] at hs₂
    cases hs₂
  · rw [World.settle_settled ha]
    refine iff_of_false (by simp) fun hno => ?_
    obtain ⟨j, hj, hat⟩ := hattempted.mp ⟨s₀, by rw [World.view_of_eq_some ha]; rfl⟩
    exact hno j hj hat
  · intro _
    have hb : (w.settle p s).2.promises[p.index]? = some ⟨segment?, observed, .settled s⟩ := by
      rw [World.settle_unresolved ha, World.promises_deliver, World.putPromise,
        World.getElem?_putPromise _ ha, if_pos rfl]
    rw [World.view_of_eq_some ha, World.view_of_eq_some hb]
    exact ⟨rfl, rfl⟩
  · rw [World.settle_settled ha]
    exact fun hfalse => absurd hfalse (by simp)
  · rw [World.settle_unresolved ha]
    exact fun htrue => absurd htrue (by simp)
  · rw [World.settle_settled ha]
    exact fun _ => ⟨rfl, rfl, rfl⟩

/-- A program that fulfills a promise and then tries to fail it. -/
def settlingTwice : Program Session.Play where
  settings := .withoutTraces
  walks _ := []
  internal := []
  store := {}
  main := do
    let p ← Script.create
    discard (Script.fulfill p (.value .null))
    discard (Script.fail p (.failed "late"))

/-- The second attempt of `settlingTwice` is told that it came too late, and changes nothing. -/
theorem first_attempt_wins_settlingTwice :
    ∃ w w' k rest,
      settlingTwice.moment 2 =
        some ⟨w, .script (.op (.settle ⟨0⟩ (.failed (.failed "late") none)) k) :: rest⟩ ∧
      settlingTwice.moment 3 = some ⟨w', .script (k false) :: rest⟩ ∧
      w'.promises = w.promises ∧ w'.queue = w.queue ∧ w'.clock = w.clock := by
  have hm : ∃ w k rest, settlingTwice.moment 2 =
      some ⟨w, .script (.op (.settle ⟨0⟩ (.failed (.failed "late") none)) k) :: rest⟩ ∧
      0 < w.promises.size := ⟨_, _, _, rfl, by decide⟩
  obtain ⟨w, k, rest, h, hp⟩ := hm
  obtain ⟨took, w', hnext, hfirst, -, hunchanged, -⟩ := first_attempt_wins settlingTwice h hp
  have hlate : took = false := by
    rw [← Bool.not_eq_true, hfirst]
    exact fun hno => hno 1 (by decide) ⟨_, rfl, by decide, _, _, _, rfl⟩
  subst hlate
  exact ⟨w, w', k, rest, h, hnext, hunchanged rfl⟩

end Program

end Eventual
