import Eventual.Proofs.Collecting

/-!
# The call of a join of two promises

A join of two promises makes its result and a pairing, and then registers one observer on each of
the two, in one step each.  So it collects the values of both in the pairing (`Buffer.pairing`),
whose sides are its places, and which nothing but these observers uses
(`Program.collects_of_joinPair`).
-/

namespace Eventual

variable {P : Payload}

/-- The scope of scripts that do not use a pairing. -/
def Scope.withoutPairing (g : PairingId) : Scope P where
  trace _ := True
  settlement _ := True
  gathering _ := True
  pairing g' := g' ≠ g
  retry _ := True
  fulfilled _ := trivial
  passed _ _ := trivial
  traced _ _ _ _ := trivial

namespace Script

/-- What is done once a value has been put on its side. -/
def coupled (q : PromiseId) : Option (P.Value × P.Value) → Script P Unit
  | some (a, b) => passValue q (P.pair a b)
  | none => pure ()

lemma coupleInto_eq (q : PromiseId) (g : PairingId) (s : Side) (v : P.Value) :
    (coupleInto q g s v : Script P Unit) = .op (.couple g s v) (coupled q) := by
  refine congrArg (op _) (funext fun complete => ?_)
  rcases complete with _ | ⟨a, b⟩ <;> rfl

end Script

/-- A pairing that a value is not put into stays as it is. -/
lemma Machine.Step.pairing {m m' : Machine P} (h : m.Step m') {g : PairingId}
    {π : Pairing P.Value} (hπ : m.world.pairings[g.index]? = some π)
    (hno : ∀ s v k rest, m.stack ≠ .script (.op (.couple g s v) k) :: rest) :
    m'.world.pairings[g.index]? = some π := by
  obtain ⟨hlt, -⟩ := Array.getElem?_eq_some_iff.mp hπ
  cases h with
  | @operate _ w' _ o k r rest performed =>
    cases World.fills_of_perform performed with
    | still same => rw [same.pairings, hπ]
    | openPairing _ pairings => rw [pairings, Array.getElem?_push, if_neg (Nat.ne_of_lt hlt), hπ]
    | @couple g' s v _ _ _ pairings =>
      have hne : g'.index ≠ g.index := by
        intro heq
        obtain rfl : g' = g := congrArg PairingId.mk heq
        exact hno s v k rest rfl
      rw [pairings, Array.getElem?_setIfInBounds, if_neg hne, hπ]
    | openGathering _ pairings | gather _ _ pairings | openRetry _ pairings
    | countAttempt _ pairings =>
      rw [pairings, hπ]
  | finish | drive | attempt | delivered | call | leaveOut | start | driven => exact hπ

/-- A pairing, with its left side as the first place and its right side as the second. -/
def Buffer.pairing (g : PairingId) : Buffer P where
  size := 2
  Content := P.Value × P.Value
  put i := .couple g (.ofPlace i)
  values y := [y.1, y.2]
  value y := P.pair y.1 y.2
  foreign := .withoutPairing g
  Made w := g.index < w.pairings.size
  Holds w F := ∃ π, w.pairings[g.index]? = some π ∧ π.Holds F
  put_inj hi hi' h := by
    injection h with _ hside hv
    exact ⟨Side.ofPlace_inj _ hi _ hi' hside, hv⟩
  not_permitted _ _ h := h rfl
  leaves _ _ _ _ _ := trivial
  settlements _ := trivial
  traces _ := trivial
  announces _ hlt := by
    refine ⟨fun _ _ _ => trivial, fun i hi _ heq => ?_, fun _ _ _ => trivial⟩
    rw [← heq] at hlt
    exact Nat.not_lt.mpr hi hlt
  made_of_step hstep hlt := Nat.lt_of_lt_of_le hlt hstep.size_le.2.1
  holds_of_step hstep hno := by
    rintro ⟨π, hπ, hholds⟩
    refine ⟨π, hstep.pairing hπ fun s v k rest => ?_, hholds⟩
    cases s with
    | first => exact hno 0 v k rest
    | second => exact hno 1 v k rest
  insert performed := by
    rintro ⟨π, hπ, hholds⟩ hi hempty hF'
    obtain ⟨hlt, -⟩ := Array.getElem?_eq_some_iff.mp hπ
    obtain ⟨π', complete, hinsert, hcomplete⟩ := hholds.insert hi hempty hF'
    simp only [World.perform, World.couple_eq hπ, hinsert] at performed
    cases performed
    rcases hcomplete with ⟨rfl, hmissing, hholds'⟩ | ⟨x, y, rfl, hvalues⟩
    · exact .inl ⟨rfl, hmissing, π', by simp [hlt], hholds'⟩
    · exact .inr ⟨(x, y), rfl, rfl, hvalues⟩

/-- The observer that a join of two promises registers on one of them. -/
lemma Script.coupler_eq (r : PromiseId) (g : PairingId) (i : Nat) :
    Observer.onEither (coupleInto r g (.ofPlace i)) (passFailure r) =
      (Buffer.pairing g : Buffer P).observer r i := by
  refine congrArg (Observer.onEither · _) (funext fun v => ?_)
  rw [coupleInto_eq]
  refine congrArg (op _) (funext fun complete => ?_)
  cases complete <;> rfl

lemma Script.joinPair_bind {α : Type} (p q : PromiseId) (k : PromiseId → Script P α) :
    (joinPair p q).bind k = .op .create fun r => .op .openPairing fun g =>
      (observeEach ((Buffer.pairing g : Buffer P).observer r) 0 [p, q]).bind fun _ => k r := by
  refine congrArg (op .create) (funext fun r => congrArg (op .openPairing) (funext fun g => ?_))
  simp only [observeEach, ← coupler_eq]
  rfl

namespace Program

variable {prog : Program P} {a : Nat} {p q : PromiseId} {k : PromiseId → Script P Unit}
  {rest : List (Activity P)} {w : World P}

/-- What a composed program has under way does not use the next pairing. -/
lemma confinedTo_withoutPairing (composed : prog.main.Composed True) {n : Nat} {m : Machine P}
    (h : prog.moment n = some m) : m.ConfinedTo (.withoutPairing ⟨m.world.pairings.size⟩) := by
  refine Program.confinedTo composed (fun _ _ => trivial) h
    ⟨fun _ _ => trivial, fun i hi heq => ?_, fun _ _ => trivial⟩
  exact Nat.ne_of_lt hi (congrArg PairingId.index heq)

/-- A join of two promises is called, and returns its result. -/
theorem collects_of_joinPair (composed : prog.main.Composed True)
    (ha : prog.moment a = some ⟨w, .script ((Script.joinPair p q).bind k) :: rest⟩)
    (exist : ∀ x ∈ [p, q], x.index < w.promises.size) :
    prog.At (a + 4) (fun m => m.stack = .script (k ⟨w.promises.size⟩) :: rest ∧
        (m.world.view ⟨w.promises.size⟩).settlement? = none) ∧
      prog.Collects a (a + 2) [p, q] (.pairing ⟨w.pairings.size⟩) ⟨w.promises.size⟩ w.clock := by
  have confined := confinedTo_withoutPairing composed ha
  rw [Script.joinPair_bind] at ha confined
  refine collects_of_call (C := .pairing) ha confined exist rfl (fun w₁ unfilled => ?_) rfl rfl
    (fun _ => trivial) ?_
  · refine ⟨{ w₁ with pairings := w₁.pairings.push {} }, ?_, rfl, ?_, ?_⟩
    · rw [← unfilled.pairings]
      rfl
    · simp [Buffer.pairing, unfilled.pairings]
    · refine ⟨_, ?_, Pairing.holds_empty fun _ _ => id⟩
      simp [unfilled.pairings]
  · -- the join might be told of any other pairing
    exact ⟨⟨w.pairings.size + 1⟩, fun heq =>
      Nat.succ_ne_self w.pairings.size (congrArg PairingId.index heq)⟩

end Program

end Eventual
