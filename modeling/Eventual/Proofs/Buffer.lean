import Eventual.Proofs.Effect
import Mathlib.Data.List.Basic
import Mathlib.Tactic.Common

/-!
# Buffers and retry loops

What an operation does to the buffers and to the retry loops is again one of a few things
(`World.Fills`), most often nothing.  A gathering counts its empty places (`Gathering.Tallied`), so
it gives its values out exactly when a value has been put into every place; and so does a pairing,
whose two sides are its places (`Pairing.Holds`).
-/

namespace Eventual

/-! ## Places -/

section Places

variable {V : Type} {places : List (Option V)} {i : Nat} {v : V} {F F' : Nat → V → Prop}

/-- The values after one more has been put into an empty place. -/
lemma getElem?_set_some_iff (h : ∀ (j : Nat) v', places[j]? = some (some v') ↔ F j v')
    (hi : i < places.length) (hempty : ∀ v', ¬ F i v')
    (hF' : ∀ j v', F' j v' ↔ F j v' ∨ i = j ∧ v = v') (j : Nat) (v' : V) :
    (places.set i (some v))[j]? = some (some v') ↔ F' j v' := by
  rw [hF', ← h]
  by_cases heq : i = j
  · subst heq
    have hold : places[i]? ≠ some (some v') := by
      rw [Ne, h]
      exact hempty v'
    rw [List.getElem?_set_self hi]
    simp only [hold, Option.some.injEq, true_and, false_or]
  · rw [List.getElem?_set_ne heq]
    simp [heq]

lemma exists_missing (h : ∀ (j : Nat) v', places[j]? = some (some v') ↔ F j v')
    (hnone : none ∈ places) : ∃ j < places.length, ∀ v', ¬ F j v' := by
  obtain ⟨j, hj, hx⟩ := List.mem_iff_getElem.mp hnone
  refine ⟨j, hj, fun v' hv' => ?_⟩
  have hsome := (h j v').mpr hv'
  rw [List.getElem?_eq_getElem hj, hx] at hsome
  cases hsome

lemma getElem?_eq_some_iff_of_map {vs : List V}
    (h : ∀ (j : Nat) v', (vs.map some)[j]? = some (some v') ↔ F j v') (j : Nat) (v' : V) :
    vs[j]? = some v' ↔ F j v' := by
  rw [← h, List.getElem?_map]
  cases vs[j]? <;> simp

end Places

/-! ## Gatherings -/

namespace Gathering

variable {V : Type} {γ : Gathering V} {i : Nat} {v : V}

/-- The count of a gathering is the number of its empty places. -/
def Tallied (γ : Gathering V) : Prop := γ.remaining = γ.values.countP Option.isNone

lemma tallied_empty (n : Nat) : (empty n : Gathering V).Tallied := by
  simp [Tallied, empty, List.countP_replicate]

/-- The count after a value has been put into a place. -/
lemma Tallied.count_set (h : γ.Tallied) {old : Option V} (hold : γ.values[i]? = some old) :
    (if old.isNone then γ.remaining - 1 else γ.remaining) =
      (γ.values.set i (some v)).countP Option.isNone := by
  obtain ⟨hlt, hget⟩ := List.getElem?_eq_some_iff.mp hold
  have hpos : old = none → 0 < γ.values.countP Option.isNone := by
    rintro rfl
    exact List.countP_pos_iff.mpr ⟨none, hget ▸ List.getElem_mem hlt, rfl⟩
  rw [List.countP_set hlt, hget, h]
  cases old with
  | none => simp
  | some v₀ => simp

/-- A value that leaves some place empty is kept. -/
lemma Tallied.insert_of_mem (h : γ.Tallied) (hi : i < γ.values.length)
    (hempty : none ∈ γ.values.set i (some v)) :
    ∃ γ', γ.insert i v = (γ', none) ∧ γ'.values = γ.values.set i (some v) ∧ γ'.Tallied := by
  have hold := List.getElem?_eq_getElem hi
  have hcount := h.count_set (v := v) hold
  have hpos : 0 < (γ.values.set i (some v)).countP Option.isNone :=
    List.countP_pos_iff.mpr ⟨none, hempty, rfl⟩
  simp only [insert, hold, hcount, if_pos hpos]
  exact ⟨_, rfl, rfl, rfl⟩

/-- With the last value all are given out, in the order of their places. -/
lemma Tallied.insert_of_not_mem (h : γ.Tallied) (hi : i < γ.values.length)
    (hfull : none ∉ γ.values.set i (some v)) :
    ∃ γ' vs, γ.insert i v = (γ', some vs) ∧ γ.values.set i (some v) = vs.map some := by
  have hold := List.getElem?_eq_getElem hi
  have hcount := h.count_set (v := v) hold
  have hzero : ¬ 0 < (γ.values.set i (some v)).countP Option.isNone := by
    rw [List.countP_pos_iff]
    rintro ⟨x, hx, hnone⟩
    cases Option.isNone_iff_eq_none.mp hnone
    exact hfull hx
  simp only [insert, hold, hcount, if_neg hzero]
  refine ⟨_, _, rfl, ?_⟩
  generalize γ.values.set i (some v) = values at hfull
  induction values with
  | nil => rfl
  | cons x xs ih =>
    obtain ⟨hx, hxs⟩ := List.ne_and_not_mem_of_not_mem_cons hfull
    obtain ⟨a, rfl⟩ := Option.ne_none_iff_exists'.mp hx.symm
    simpa using ih hxs

/-- A gathering of `n` places that holds the values of a relation, and no others. -/
structure Holds (γ : Gathering V) (n : Nat) (F : Nat → V → Prop) : Prop where
  tallied : γ.Tallied
  length_eq : γ.values.length = n
  getElem?_eq : ∀ i v, γ.values[i]? = some (some v) ↔ F i v

lemma holds_empty (n : Nat) {F : Nat → V → Prop} (hF : ∀ i v, ¬ F i v) :
    (empty n : Gathering V).Holds n F := by
  refine ⟨tallied_empty n, List.length_replicate, fun i v => iff_of_false (fun hv => ?_) (hF i v)⟩
  cases (List.mem_replicate.mp (List.mem_of_getElem? hv)).2

/-- A value is put into an empty place: the gathering holds it too, or gives all values out. -/
lemma Holds.insert {n : Nat} {F F' : Nat → V → Prop} (h : γ.Holds n F) (hi : i < n)
    (hempty : ∀ v', ¬ F i v') (hF' : ∀ j v', F' j v' ↔ F j v' ∨ i = j ∧ v = v') :
    ∃ γ' complete, γ.insert i v = (γ', complete) ∧
      ((complete = none ∧ (∃ j < n, ∀ v', ¬ F' j v') ∧ γ'.Holds n F') ∨
        ∃ vs, complete = some vs ∧ vs.length = n ∧ ∀ j v', vs[j]? = some v' ↔ F' j v') := by
  have hi' : i < γ.values.length := h.length_eq ▸ hi
  have hset := getElem?_set_some_iff h.getElem?_eq hi' hempty hF'
  have hlength : (γ.values.set i (some v)).length = n := by rw [List.length_set, h.length_eq]
  by_cases hnone : none ∈ γ.values.set i (some v)
  · obtain ⟨γ', hinsert, hvalues, htallied⟩ := h.tallied.insert_of_mem hi' hnone
    have hmissing := exists_missing hset hnone
    rw [hlength] at hmissing
    rw [← hvalues] at hlength hset
    exact ⟨γ', none, hinsert, .inl ⟨rfl, hmissing, htallied, hlength, hset⟩⟩
  · obtain ⟨γ', vs, hinsert, hvs⟩ := h.tallied.insert_of_not_mem hi' hnone
    rw [hvs] at hlength hset
    refine ⟨γ', some vs, hinsert, .inr ⟨vs, rfl, ?_, getElem?_eq_some_iff_of_map hset⟩⟩
    rw [← hlength, List.length_map]

end Gathering

/-! ## Pairings -/

/-- The side of a pair for a place in a list of two. -/
def Side.ofPlace : Nat → Side
  | 0 => .first
  | _ => .second

lemma Side.ofPlace_inj : ∀ i < 2, ∀ i' < 2, ofPlace i = ofPlace i' → i = i' := by decide

namespace Pairing

variable {V : Type} {π : Pairing V} {i : Nat} {v : V}

/-- Puts a value on a side of a pairing; both values once both are there. -/
def insert (π : Pairing V) (s : Side) (v : V) : Pairing V × Option (V × V) :=
  match s with
  | .first => π.insertFirst v
  | .second => π.insertSecond v

/-- A pairing that holds the values of a relation, its sides counted as places, and no others. -/
def Holds (π : Pairing V) (F : Nat → V → Prop) : Prop :=
  ∀ (i : Nat) v, [π.first, π.second][i]? = some (some v) ↔ F i v

lemma holds_empty {F : Nat → V → Prop} (hF : ∀ i v, ¬ F i v) : ({} : Pairing V).Holds F := by
  refine fun i v => iff_of_false (fun hv => ?_) (hF i v)
  have hmem := List.mem_of_getElem? hv
  simp at hmem

/-- A value is put on an empty side: the pairing holds it too, or gives both values out. -/
lemma Holds.insert {F F' : Nat → V → Prop} (h : π.Holds F) (hi : i < 2) (hempty : ∀ v', ¬ F i v')
    (hF' : ∀ j v', F' j v' ↔ F j v' ∨ i = j ∧ v = v') :
    ∃ π' complete, π.insert (.ofPlace i) v = (π', complete) ∧
      ((complete = none ∧ (∃ j < 2, ∀ v', ¬ F' j v') ∧ π'.Holds F') ∨
        ∃ x y, complete = some (x, y) ∧ ∀ j v', [x, y][j]? = some v' ↔ F' j v') := by
  have hset := getElem?_set_some_iff h (by simpa using hi) hempty hF'
  have hmissing := exists_missing hset
  have hcomplete : ∀ x y, [π.first, π.second].set i (some v) = [x, y].map some →
      ∀ (j : Nat) v', [x, y][j]? = some v' ↔ F' j v' := by
    intro x y heq
    rw [heq] at hset
    exact getElem?_eq_some_iff_of_map hset
  obtain ⟨first, second⟩ := π
  -- what is given out depends on the other side
  match i, first, second with
  | 0, first, none => exact ⟨_, none, rfl, .inl ⟨rfl, hmissing (by simp), hset⟩⟩
  | 0, first, some y => exact ⟨_, _, rfl, .inr ⟨v, y, rfl, hcomplete v y rfl⟩⟩
  | 1, none, second => exact ⟨_, none, rfl, .inl ⟨rfl, hmissing (by simp), hset⟩⟩
  | 1, some x, second => exact ⟨_, _, rfl, .inr ⟨x, v, rfl, hcomplete x v rfl⟩⟩
  | i + 2, _, _ => omega

end Pairing

variable {P : Payload}

lemma World.couple_eq {w : World P} {g : PairingId} {π : Pairing P.Value}
    (hπ : w.pairings[g.index]? = some π) (s : Side) (v : P.Value) :
    w.couple g s v = ((π.insert s v).2,
      { w with pairings := w.pairings.setIfInBounds g.index (π.insert s v).1 }) := by
  rw [World.couple, hπ]
  cases s <;> rfl

/-! ## What an operation does to buffers and loops -/

namespace World

variable {w w' : World P}

/-- The buffers and loops are the same. -/
structure Unfilled (w w' : World P) : Prop where
  gatherings : w'.gatherings = w.gatherings
  pairings : w'.pairings = w.pairings
  retries : w'.retries = w.retries

/-- What an operation with a given answer does to the buffers and loops. -/
inductive Fills (w w' : World P) : {ρ : Type} → Op P ρ → ρ → Prop
  /-- Nothing. -/
  | still {ρ : Type} {o : Op P ρ} {r : ρ} (same : Unfilled w w') : Fills w w' o r
  /-- A gathering is made. -/
  | openGathering {n : Nat} (gatherings : w'.gatherings = w.gatherings.push (.empty n))
      (pairings : w'.pairings = w.pairings) (retries : w'.retries = w.retries) :
      Fills w w' (.openGathering n) ⟨w.gatherings.size⟩
  /-- A value is put into a gathering. -/
  | gather {g : GatheringId} {i : Nat} {v : P.Value} {γ : Gathering P.Value}
      (before : w.gatherings[g.index]? = some γ)
      (gatherings : w'.gatherings = w.gatherings.setIfInBounds g.index (γ.insert i v).1)
      (pairings : w'.pairings = w.pairings) (retries : w'.retries = w.retries) :
      Fills w w' (.gather g i v) (γ.insert i v).2
  /-- A pairing is made. -/
  | openPairing (gatherings : w'.gatherings = w.gatherings)
      (pairings : w'.pairings = w.pairings.push {}) (retries : w'.retries = w.retries) :
      Fills w w' .openPairing ⟨w.pairings.size⟩
  /-- A value is put into a pairing. -/
  | couple {g : PairingId} {side : Side} {v : P.Value} {r : Option (P.Value × P.Value)}
      {π : Pairing P.Value} (gatherings : w'.gatherings = w.gatherings)
      (pairings : w'.pairings = w.pairings.setIfInBounds g.index π)
      (retries : w'.retries = w.retries) : Fills w w' (.couple g side v) r
  /-- A retry loop is made. -/
  | openRetry {result : PromiseId} {interval : Duration} {thunk : Nat → Script P PromiseId}
      {onError : Trace P.Error → Script P Unit} (gatherings : w'.gatherings = w.gatherings)
      (pairings : w'.pairings = w.pairings)
      (retries : w'.retries = w.retries.push ⟨result, interval, thunk, onError, 0⟩) :
      Fills w w' (.openRetry result interval thunk onError) ⟨w.retries.size⟩
  /-- An attempt of a retry loop is counted. -/
  | countAttempt {r : RetryId} (gatherings : w'.gatherings = w.gatherings)
      (pairings : w'.pairings = w.pairings)
      (retries : w'.retries =
        w.retries.modify r.index fun t => { t with attempts := t.attempts + 1 }) :
      Fills w w' (.countAttempt r) ()

lemma unfilled_capture (w : World P) : Unfilled w w.capture.2 := by
  unfold capture
  dsimp only
  split
  · split <;> exact ⟨rfl, rfl, rfl⟩
  · exact ⟨rfl, rfl, rfl⟩

lemma unfilled_deliver (w : World P) (p : PromiseId) (o : Outcome P.Value P.Error)
    (rs : List (Registration P)) : Unfilled w (w.deliver p o rs) := by
  unfold deliver
  dsimp only
  split <;> exact ⟨rfl, rfl, rfl⟩

lemma unfilled_settle (w : World P) (p : PromiseId) (s : Settlement P.Value P.Error) :
    Unfilled w (w.settle p s).2 := by
  unfold settle
  split
  · exact ⟨rfl, rfl, rfl⟩
  · exact ⟨rfl, rfl, rfl⟩
  · obtain ⟨gatherings, pairings, retries⟩ := unfilled_deliver (w.putPromise p _) p _ _
    exact ⟨gatherings, pairings, retries⟩

lemma unfilled_observe (w : World P) (p : PromiseId) (ob : Observer P) :
    Unfilled w (w.observe p ob) := by
  unfold observe
  split
  · exact ⟨rfl, rfl, rfl⟩
  · exact ⟨rfl, rfl, rfl⟩
  · obtain ⟨gatherings, pairings, retries⟩ := unfilled_deliver (w.putPromise p _) p _ _
    exact ⟨gatherings, pairings, retries⟩

/-- **Every operation that answers does one of these things to the buffers and loops.** -/
theorem fills_of_perform {ρ : Type} {o : Op P ρ} {r : ρ} (h : w.perform o = .answer r w') :
    Fills w w' o r := by
  cases o with
  | create =>
    have hw : w' = (w.capture.2.addPromise w.capture.1).2 := by
      cases h
      rfl
    obtain ⟨gatherings, pairings, retries⟩ := unfilled_capture w
    subst hw
    exact .still ⟨gatherings, pairings, retries⟩
  | settle p s =>
    cases h
    exact .still (unfilled_settle w p s)
  | observe p ob =>
    cases h
    exact .still (unfilled_observe w p ob)
  | schedule delay body =>
    obtain ⟨due, -, rfl⟩ := schedule_eq_answer_iff.mp h
    exact .still ⟨rfl, rfl, rfl⟩
  | openGathering n =>
    cases h
    exact .openGathering rfl rfl rfl
  | gather g i v =>
    rcases hγ : w.gatherings[g.index]? with _ | γ
    · simp only [perform, World.gather, hγ] at h
      cases h
      exact .still ⟨rfl, rfl, rfl⟩
    · simp only [perform, World.gather, hγ] at h
      cases h
      exact .gather hγ rfl rfl rfl
  | openPairing =>
    cases h
    exact .openPairing rfl rfl rfl
  | couple g side v =>
    rcases hπ : w.pairings[g.index]? with _ | π
    · simp only [perform, World.couple, hπ] at h
      cases h
      exact .still ⟨rfl, rfl, rfl⟩
    · simp only [perform, World.couple, hπ] at h
      cases h
      exact .couple rfl rfl rfl
  | openRetry result interval thunk onError =>
    cases h
    exact .openRetry rfl rfl rfl
  | countAttempt r =>
    cases h
    exact .countAttempt rfl rfl rfl
  | createUnder | view | now | pending | settings | emit | note | load | save =>
    cases h
    exact .still ⟨rfl, rfl, rfl⟩

namespace Fills

variable {ρ : Type} {o : Op P ρ} {r : ρ}

/-- Names are given out one after the other. -/
lemma size_le (h : Fills w w' o r) :
    w.gatherings.size ≤ w'.gatherings.size ∧ w.pairings.size ≤ w'.pairings.size ∧
      w.retries.size ≤ w'.retries.size := by
  cases h with
  | still same => simp [same.gatherings, same.pairings, same.retries]
  | openGathering gatherings pairings retries | gather _ gatherings pairings retries
  | openPairing gatherings pairings retries | couple gatherings pairings retries
  | openRetry gatherings pairings retries | countAttempt gatherings pairings retries =>
    simp [gatherings, pairings, retries]

end Fills

/-- Making a promise leaves everything else alone. -/
lemma perform_create (w : World P) :
    ∃ w' segment?, w.perform .create = .answer ⟨w.promises.size⟩ w' ∧
      w'.promises = w.promises.push ⟨segment?, 0, .unresolved []⟩ ∧ w'.clock = w.clock ∧
      w'.queue = w.queue ∧ Unfilled w w' := by
  obtain ⟨promises, queue, clock⟩ := capture_still w
  obtain ⟨gatherings, pairings, retries⟩ := unfilled_capture w
  refine ⟨(w.capture.2.addPromise w.capture.1).2, w.capture.1, ?_, ?_, clock, queue,
    gatherings, pairings, retries⟩
  · rw [← promises]
    rfl
  · rw [← promises]
    rfl

end World

end Eventual
