import Eventual.Proofs.Collecting

/-!
# The call of a join

A join makes its result and a gathering with a place for each input, and then registers one observer
on each input, in one step each.  So it collects the values of its inputs in the gathering
(`Buffer.gathering`), which nothing but these observers uses (`Program.collects_of_join`): whoever
puts a value into a place is the callback of the input there (`Program.hears_of_gathers`), and finds
the place empty (`Program.gathers_in_place`).
-/

namespace Eventual

variable {P : Payload}

/-- The observer that a join registers on its `i`-th input. -/
def Script.gatherer (r : PromiseId) (g : GatheringId) (i : Nat) : Observer P :=
  .onEither (gatherInto r g i) (passFailure r)

/-- The scope of scripts that do not use a gathering. -/
def Scope.withoutGathering (g : GatheringId) : Scope P where
  trace _ := True
  settlement _ := True
  gathering g' := g' ≠ g
  pairing _ := True
  retry _ := True
  fulfilled _ := trivial
  passed _ _ := trivial
  traced _ _ _ _ := trivial

/-- A value is about to be put into a place of a gathering. -/
def Machine.Gathers (m : Machine P) (g : GatheringId) (i : Nat) (v : P.Value) : Prop :=
  ∃ k rest, m.stack = .script (.op (.gather g i v) k) :: rest

/-- The operation puts a value into a gathering. -/
def Op.isGather {ρ : Type} : Op P ρ → Bool
  | gather _ _ _ => true
  | _ => false

lemma Machine.Gathers.isGather {ρ : Type} {w : World P} {o : Op P ρ} {k : ρ → Script P Unit}
    {rest : List (Activity P)} {g : GatheringId} {i : Nat} {v : P.Value}
    (h : Gathers ⟨w, .script (.op o k) :: rest⟩ g i v) : o.isGather = true := by
  obtain ⟨k', rest', hstack⟩ := h
  cases hstack
  rfl

namespace Script

variable {α : Type} {r : PromiseId} {g : GatheringId}

lemma join_bind (inputs : List PromiseId) (k : PromiseId → Script P α) :
    (join inputs).bind k = .op .create fun r =>
      if inputs.isEmpty then .op (.settle r (.fulfilled (P.list []))) fun _ => k r
      else .op (.openGathering inputs.length) fun g =>
        (gatherEach r g 0 inputs).bind fun _ => k r := by
  refine congrArg (op .create) (funext fun r => ?_)
  cases inputs with
  | nil => rfl
  | cons p ps =>
    refine congrArg (op _) (funext fun g => ?_)
    exact bind_assoc (fun _ => pure r) k (gatherEach r g 0 (p :: ps))

lemma join_bind_of_ne_nil {inputs : List PromiseId} (hne : inputs ≠ [])
    (k : PromiseId → Script P α) :
    (join inputs).bind k = .op .create fun r => .op (.openGathering inputs.length) fun g =>
      (gatherEach r g 0 inputs).bind fun _ => k r := by
  simp [join_bind, hne]

lemma join_nil_bind (k : PromiseId → Script P α) :
    (join []).bind k = .op .create fun r => .op (.settle r (.fulfilled (P.list []))) fun _ => k r :=
  rfl

lemma gatherEach_cons_bind (i : Nat) (p : PromiseId) (ps : List PromiseId)
    (k : Unit → Script P α) : (gatherEach r g i (p :: ps)).bind k =
      .op (.observe p (gatherer r g i)) fun _ => (gatherEach r g (i + 1) ps).bind k :=
  rfl

/-- What is done once a value has been put into its place. -/
def gathered (r : PromiseId) : Option (List P.Value) → Script P Unit
  | some vs => passValue r (P.list vs)
  | none => pure ()

lemma gatherInto_eq (r : PromiseId) (g : GatheringId) (i : Nat) (v : P.Value) :
    gatherInto r g i v = .op (.gather g i v) (gathered r) := by
  refine congrArg (op _) (funext fun complete => ?_)
  cases complete <;> rfl

lemma awaits_gatherer (r : PromiseId) (g : GatheringId) (i : Nat)
    (o : Outcome P.Value P.Error) : (gatherer r g i : Observer P).awaits o = true := by
  rcases o with v | t <;> rfl

end Script

/-- A gathering is changed by putting a value into it, and by nothing else. -/
lemma Machine.Step.gathering {m m' : Machine P} (h : m.Step m') {g : GatheringId}
    {γ : Gathering P.Value} (hγ : m.world.gatherings[g.index]? = some γ) :
    (∃ i v k rest, m.stack = .script (.op (.gather g i v) k) :: rest ∧
        m'.world.gatherings[g.index]? = some (γ.insert i v).1 ∧
        m'.stack = .script (k (γ.insert i v).2) :: rest) ∨
      (∀ i v, ¬ m.Gathers g i v) ∧ m'.world.gatherings[g.index]? = some γ := by
  obtain ⟨hlt, -⟩ := Array.getElem?_eq_some_iff.mp hγ
  by_cases hgathers : ∃ i v, m.Gathers g i v
  · left
    obtain ⟨w, stack⟩ := m
    obtain ⟨i, v, k, rest, rfl⟩ := hgathers
    cases h with
    | operate performed =>
      simp only [World.perform, World.gather, hγ] at performed
      cases performed
      exact ⟨i, v, k, rest, rfl, by simp [hlt], rfl⟩
  · refine Or.inr ⟨fun i v hv => hgathers ⟨i, v, hv⟩, ?_⟩
    cases h with
    | @operate _ w' _ o k r rest performed =>
      cases World.fills_of_perform performed with
      | still same => rw [same.gatherings, hγ]
      | openGathering gatherings =>
        rw [gatherings, Array.getElem?_push, if_neg (Nat.ne_of_lt hlt), hγ]
      | @gather g' i v _ _ gatherings =>
        have hne : g'.index ≠ g.index := by
          intro heq
          obtain rfl : g' = g := congrArg GatheringId.mk heq
          exact hgathers ⟨i, v, k, rest, rfl⟩
        rw [gatherings, Array.getElem?_setIfInBounds, if_neg hne, hγ]
      | openPairing gatherings | couple gatherings | openRetry gatherings
      | countAttempt gatherings =>
        rw [gatherings, hγ]
    | finish | drive | attempt | delivered | call | leaveOut | start | driven => exact hγ

/-- A gathering with a place for each of `n` inputs. -/
def Buffer.gathering (g : GatheringId) (n : Nat) : Buffer P where
  size := n
  Content := List P.Value
  put := .gather g
  values := id
  value := P.list
  foreign := .withoutGathering g
  Made w := g.index < w.gatherings.size
  Holds w F := ∃ γ, w.gatherings[g.index]? = some γ ∧ γ.Holds n F
  put_inj _ _ h := by
    injection h with _ hi hv
    exact ⟨hi, hv⟩
  not_permitted _ _ h := h rfl
  leaves _ _ _ _ _ := trivial
  settlements _ := trivial
  traces _ := trivial
  announces _ hlt := by
    refine ⟨fun i hi _ heq => ?_, fun _ _ _ => trivial, fun _ _ _ => trivial⟩
    rw [← heq] at hlt
    exact Nat.not_lt.mpr hi hlt
  made_of_step hstep hlt := Nat.lt_of_lt_of_le hlt hstep.size_le.1
  holds_of_step hstep hno := by
    rintro ⟨γ, hγ, hholds⟩
    rcases hstep.gathering hγ with ⟨i, v, k, rest, hstack, -⟩ | ⟨-, hγ'⟩
    · exact absurd hstack (hno i v k rest)
    · exact ⟨γ, hγ', hholds⟩
  insert performed := by
    rintro ⟨γ, hγ, hholds⟩ hi hempty hF'
    obtain ⟨hlt, -⟩ := Array.getElem?_eq_some_iff.mp hγ
    obtain ⟨γ', complete, hinsert, hcomplete⟩ := hholds.insert hi hempty hF'
    simp only [World.perform, World.gather, hγ, hinsert] at performed
    cases performed
    rcases hcomplete with ⟨rfl, hmissing, hholds'⟩ | ⟨vs, rfl, hlength, hvs⟩
    · exact .inl ⟨rfl, hmissing, γ', by simp [hlt], hholds'⟩
    · exact .inr ⟨vs, rfl, hlength, hvs⟩

namespace Script

lemma gatherer_eq (r : PromiseId) (g : GatheringId) (n i : Nat) :
    (gatherer r g i : Observer P) = (Buffer.gathering g n).observer r i := by
  refine congrArg (Observer.onEither · _) (funext fun v => ?_)
  rw [gatherInto_eq]
  refine congrArg (op _) (funext fun complete => ?_)
  cases complete <;> rfl

lemma gatherEach_eq (r : PromiseId) (g : GatheringId) (n i : Nat) (inputs : List PromiseId) :
    (gatherEach r g i inputs : Script P Unit) =
      observeEach ((Buffer.gathering g n).observer r) i inputs := by
  induction inputs generalizing i with
  | nil => rfl
  | cons p ps ih =>
    rw [observeEach, ← gatherer_eq, ← ih (i + 1)]
    rfl

end Script

namespace Program

variable {prog : Program P} {a : Nat} {inputs : List PromiseId} {k : PromiseId → Script P Unit}
  {rest : List (Activity P)} {w : World P}

/-- What a composed program has under way does not use the next gathering. -/
lemma confinedTo_withoutGathering (composed : prog.main.Composed True) {n : Nat} {m : Machine P}
    (h : prog.moment n = some m) :
    m.ConfinedTo (.withoutGathering ⟨m.world.gatherings.size⟩) := by
  refine Program.confinedTo composed (fun _ _ => trivial) h
    ⟨fun i hi heq => ?_, fun _ _ => trivial, fun _ _ => trivial⟩
  exact Nat.ne_of_lt hi (congrArg GatheringId.index heq)

/-- A join of inputs is called, and returns its result. -/
theorem collects_of_join (composed : prog.main.Composed True)
    (ha : prog.moment a = some ⟨w, .script ((Script.join inputs).bind k) :: rest⟩)
    (hne : inputs ≠ []) (exist : ∀ p ∈ inputs, p.index < w.promises.size) :
    prog.At (a + 2 + inputs.length) (fun m => m.stack = .script (k ⟨w.promises.size⟩) :: rest ∧
        (m.world.view ⟨w.promises.size⟩).settlement? = none) ∧
      prog.Collects a (a + 2) inputs (.gathering ⟨w.gatherings.size⟩ inputs.length)
        ⟨w.promises.size⟩ w.clock := by
  have confined := confinedTo_withoutGathering composed ha
  rw [Script.join_bind_of_ne_nil hne] at ha confined
  simp only [Script.gatherEach_eq _ _ inputs.length] at ha confined
  refine collects_of_call (C := fun g => Buffer.gathering g inputs.length) ha confined exist rfl
    (fun w₁ unfilled => ?_) rfl rfl (fun _ => trivial) ?_
  · refine ⟨{ w₁ with gatherings := w₁.gatherings.push (.empty inputs.length) }, ?_, rfl, ?_, ?_⟩
    · rw [← unfilled.gatherings]
      rfl
    · simp [Buffer.gathering, unfilled.gatherings]
    · refine ⟨_, ?_, Gathering.holds_empty inputs.length fun _ _ => id⟩
      simp [unfilled.gatherings]
  · -- the join might be told of any other gathering
    exact ⟨⟨w.gatherings.size + 1⟩, fun heq =>
      Nat.succ_ne_self w.gatherings.size (congrArg GatheringId.index heq)⟩

/-! ## Who uses the gathering -/

variable {m : Machine P} {i j : Nat} {v : P.Value}

/-- Nothing is put into the gathering of a join before the call of the join returns. -/
lemma returned_of_gathers (composed : prog.main.Composed True)
    (ha : prog.moment a = some ⟨w, .script ((Script.join inputs).bind k) :: rest⟩)
    (hne : inputs ≠ []) (exist : ∀ p ∈ inputs, p.index < w.promises.size)
    (hm : prog.moment j = some m) (hgathers : m.Gathers ⟨w.gatherings.size⟩ i v) :
    a + 2 + inputs.length ≤ j := by
  by_contra hlt
  obtain hj | rfl | ⟨n, rfl⟩ : j ≤ a ∨ j = a + 1 ∨ ∃ n, j = a + 2 + n := by
    by_cases hj : a + 2 ≤ j
    · exact .inr (.inr ⟨j - (a + 2), by omega⟩)
    · omega
  · -- up to the call there is no such gathering, and a composed program uses none that it lacks
    have hsize : m.world.gatherings.size ≤ w.gatherings.size :=
      carry (I := fun m' => m.world.gatherings.size ≤ m'.world.gatherings.size)
        (fun _ _ h hstep => h.trans hstep.size_le.1) hj hm (Nat.le_refl _) ha
    have hconfined : m.ConfinedTo (.withoutGathering ⟨w.gatherings.size⟩) := by
      refine Program.confinedTo composed (fun _ _ => trivial) hm
        ⟨fun n hn heq => ?_, fun _ _ => trivial, fun _ _ => trivial⟩
      cases heq
      exact Nat.not_lt.mpr hsize hn
    obtain ⟨k', rest', hstack⟩ := hgathers
    have hscript := hconfined.stack (.script (.op (.gather ⟨w.gatherings.size⟩ i v) k')) (by
      rw [hstack]
      exact .head rest')
    cases hscript with
    | op permitted => exact permitted rfl
  · obtain ⟨w₁, segment?, performed, -⟩ := World.perform_create w
    rw [Script.join_bind_of_ne_nil hne] at ha
    cases hm.symm.trans (moment_of_operate ha performed)
    cases hgathers.isGather
  · have hn : n < inputs.length := by omega
    obtain ⟨-, hcollects⟩ := collects_of_join composed ha hne exist
    obtain ⟨⟨w', stack⟩, hm', -, k', rest', rfl⟩ :=
      hcollects.listens.observes n inputs[n] (List.getElem?_eq_getElem hn)
    cases hm.symm.trans hm'
    cases hgathers.isGather

/-- A value for a place is put there by the callback of the input at this place. -/
lemma hears_of_gathers (composed : prog.main.Composed True)
    (ha : prog.moment a = some ⟨w, .script ((Script.join inputs).bind k) :: rest⟩)
    (hne : inputs ≠ []) (exist : ∀ p ∈ inputs, p.index < w.promises.size)
    (hm : prog.moment j = some m) (hgathers : m.Gathers ⟨w.gatherings.size⟩ i v) :
    ∃ l, j = l + 1 ∧ prog.Hears (a + 2) inputs i l
      ((Buffer.gathering ⟨w.gatherings.size⟩ inputs.length).place ⟨w.promises.size⟩ i v) := by
  obtain ⟨-, hcollects⟩ := collects_of_join composed ha hne exist
  have hj := returned_of_gathers composed ha hne exist hm hgathers
  obtain ⟨i', v', l, hl, hears, hput⟩ := hcollects.of_puts hj ⟨m, hm, hgathers⟩
  cases hput
  exact ⟨l, hl, hears⟩

/-- **A value is put into a place that its gathering has and that is empty**, and so the count of
empty places is not zero. -/
lemma gathers_in_place (composed : prog.main.Composed True)
    (ha : prog.moment a = some ⟨w, .script ((Script.join inputs).bind k) :: rest⟩)
    (hne : inputs ≠ []) (exist : ∀ p ∈ inputs, p.index < w.promises.size)
    (hm : prog.moment j = some m) (hgathers : m.Gathers ⟨w.gatherings.size⟩ i v) :
    ∃ γ, m.world.gatherings[w.gatherings.size]? = some γ ∧ γ.values[i]? = some none ∧
      0 < γ.remaining := by
  obtain ⟨-, hcollects⟩ := collects_of_join composed ha hne exist
  have hj := returned_of_gathers composed ha hne exist hm hgathers
  obtain ⟨l, rfl, hears⟩ := hears_of_gathers composed ha hne exist hm hgathers
  have hi := hcollects.lt_size_of_hears hears
  have hnot := hcollects.not_placed hears
  obtain ⟨γ, hγ, hholds⟩ := hcollects.holds hj hm ⟨i, hi, hnot⟩
  have hplace : γ.values[i]? = some none := by
    rcases hvalue : γ.values[i]? with _ | _ | v'
    · rw [List.getElem?_eq_none_iff, hholds.length_eq] at hvalue
      exact absurd hi (Nat.not_lt.mpr hvalue)
    · rfl
    · exact absurd ((hholds.getElem?_eq i v').mp hvalue) (hnot v')
  refine ⟨γ, hγ, hplace, ?_⟩
  rw [hholds.tallied, List.countP_pos_iff]
  exact ⟨none, List.mem_of_getElem? hplace, rfl⟩

end Program

end Eventual
