import Eventual.Proofs.Coupling
import Eventual.Proofs.Derived
import Eventual.Proofs.Joining

/-!
# Callbacks run errands

Every observer of a network has an errand, and its callback runs it in one go
(`Plan.Safe.answers`): the promise is settled as its verdict says, or the value gets into its
place, or the promise that a function led to is followed.  A failure is passed on whatever the
errand is.  A buffer counts only as long as its join is not over; then it holds nothing but values
of inputs, so what it gives out in the end is what the verdict says.
-/

namespace Eventual

variable {P : Payload}

/-! ## Running a callback -/

namespace Machine

/-- A run ends in one world. -/
lemma Reaches.unique_of_nil {m : Machine P} {w w' : World P} (h : m.Reaches ⟨w, []⟩)
    (h' : m.Reaches ⟨w', []⟩) : w = w' := by
  have hstuck : ∀ (w : World P) (m' : Machine P), ¬ Step ⟨w, []⟩ m' := fun _ _ hstep => by
    cases hstep
  cases h.unique h' (hstuck w) (hstuck w')
  rfl

lemma reaches_settle (w : World P) (q : PromiseId) (s : Settlement P.Value P.Error)
    (rest : List (Activity P)) :
    Reaches ⟨w, .script (.op (.settle q s) fun _ => .pure ()) :: rest⟩
      ⟨(w.settle q s).2, rest⟩ :=
  (Step.operate rfl).reaches.trans Step.finish.reaches

end Machine

/-- The callback of an observer for an outcome runs to its end. -/
def World.Answers (w : World P) (ob : Observer P) (o : Outcome P.Value P.Error) (w' : World P) :
    Prop :=
  ∃ body, ob.handler? o = some body ∧
    ∀ rest, Machine.Reaches ⟨w, .script body :: rest⟩ ⟨w', rest⟩

lemma World.Answers.unique {w w₁ w₂ : World P} {ob : Observer P} {o : Outcome P.Value P.Error}
    (h₁ : w.Answers ob o w₁) (h₂ : w.Answers ob o w₂) : w₁ = w₂ := by
  obtain ⟨body, hbody, hreach⟩ := h₁
  obtain ⟨body', hbody', hreach'⟩ := h₂
  cases hbody.symm.trans hbody'
  exact (hreach []).unique_of_nil (hreach' [])

/-! ## Verdicts of joins -/

lemma List.mapM_eq_none_of_mem {α β : Type*} {f : α → Option β} {a : α} {l : List α} (ha : a ∈ l)
    (hf : f a = none) : l.mapM f = none := by
  induction l with
  | nil => cases ha
  | cons b l ih =>
    rw [List.mapM_cons]
    rcases List.mem_cons.mp ha with rfl | ha
    · simp [hf]
    · simp [ih ha]

lemma List.mapM_eq_some_of_forall {α β : Type*} {f : α → Option β} {l : List α} {bs : List β}
    (hlength : bs.length = l.length)
    (hf : ∀ (i : Nat) a b, l[i]? = some a → bs[i]? = some b → f a = some b) :
    l.mapM f = some bs := by
  induction l generalizing bs with
  | nil =>
    obtain rfl := List.length_eq_zero_iff.mp hlength
    rfl
  | cons a l ih =>
    cases bs with
    | nil => simp at hlength
    | cons b bs =>
      have hbs := ih (by simpa using hlength) fun i a' b' ha' hb' =>
        hf (i + 1) a' b' (by simpa using ha') (by simpa using hb')
      rw [List.mapM_cons, hf 0 a b rfl rfl, hbs]
      rfl

namespace Plan

variable {N : Plan P} {w w' w₁ : World P} {e : Errand} {ob : Observer P} {x : Option P.Value}
  {o : Outcome P.Value P.Error} {p q : PromiseId}

/-- Whoever fails, fails what depends on it. -/
lemma Serves.fails (hN : N.Sound) (h : N.Serves e ob x) (hx : x = none) :
    N.Known e.target ∧ N.verdict e.target = none ∧
      ∃ f, ob = .onEither f (Script.passFailure e.target) := by
  cases h with
  | andThen derived =>
    refine ⟨.inr ⟨_, derived⟩, ?_, _, rfl⟩
    simp [Errand.target, hN.verdict_eq _ _ derived, Derived.verdict, hx]
  | andThenLazily derived =>
    refine ⟨.inr ⟨_, derived⟩, ?_, _, rfl⟩
    simp [Errand.target, hN.verdict_eq _ _ derived, Derived.verdict, hx]
  | pass derived => exact ⟨.inr ⟨_, derived⟩, hx, _, rfl⟩
  | place derived input =>
    refine ⟨.inr ⟨_, derived⟩, ?_, _, rfl⟩
    simp [Errand.target, hN.verdict_eq _ _ derived, Derived.verdict,
      List.mapM_eq_none_of_mem (List.mem_of_getElem? input) hx]
  | @side q a b s derived =>
    refine ⟨.inr ⟨_, derived⟩, ?_, _, rfl⟩
    rw [Errand.target, hN.verdict_eq _ _ derived, Derived.verdict]
    cases s with
    | first => simp [show N.verdict a = none from hx]
    | second => cases N.verdict a <;> simp [show N.verdict b = none from hx]

/-- A callback that settles a promise of the network as its verdict says. -/
lemma Safe.answers_settle (hw : N.Safe w) (hq : N.Known q) {s : Settlement P.Value P.Error}
    (hs : s.value? = N.verdict q) :
    ∃ w', (∀ rest, Machine.Reaches
        ⟨w, .script (.op (.settle q s) fun _ => .pure ()) :: rest⟩ ⟨w', rest⟩) ∧
      N.Advances w w' ∧ w'.IsSettled q :=
  ⟨_, Machine.reaches_settle w q s, hw.settle hq hs⟩

/-- Every errand for a settled promise has been run. -/
lemma reached_of_isSettled (h : w.IsSettled e.target) : N.Reached w e := by
  cases e with
  | next | pass => exact h
  | place | side => exact .inl h

/-- A promise that is made on the spot, settled and followed. -/
lemma Safe.answers_fresh (hw : N.Safe w) {s : Settlement P.Value P.Error}
    (hserves :
      N.Serves (.pass q) (.onEither (Script.passValue q) (Script.passFailure q)) s.value?) :
    ∃ w', (∀ rest, Machine.Reaches ⟨w, .script (.op .create fun p =>
        .op (.settle p s) fun _ => Script.forward p q) :: rest⟩ ⟨w', rest⟩) ∧
      N.Advances w w' ∧ N.Open w' (.pass q) := by
  obtain ⟨w₁, segment?, performed, promises, -, queue, unfilled⟩ := World.perform_create w
  have h₁ := hw.create segment? promises queue unfilled
  have hnew : w₁.promises[w.promises.size]? = some ⟨segment?, 0, .unresolved []⟩ := by
    rw [promises, Array.getElem?_push_size]
  have hstrange : ¬ N.Known ⟨w.promises.size⟩ := by
    intro hk
    obtain ⟨a, ha, -⟩ := hw.promise _ hk
    exact Nat.lt_irrefl _ (Array.getElem?_eq_some_iff.mp ha).1
  obtain ⟨h₂, hsettled⟩ := h₁.safe.settle_strange hstrange hnew s
  obtain ⟨h₃, hopen⟩ := h₂.safe.observe_settled hsettled hserves
  refine ⟨_, fun rest => ?_, (h₁.trans h₂).trans h₃, hopen⟩
  refine (Machine.Step.operate performed).reaches.trans ?_
  refine (Machine.Step.operate rfl).reaches.trans ?_
  exact (Machine.Step.operate rfl).reaches.trans Machine.Step.finish.reaches

/-- What a function leads to is followed. -/
lemma Safe.answers_lead (hN : N.Sound) (hw : N.Safe w) {f : P.Value → Lead P} {v : P.Value}
    (derived : N.derived q = some (.andThenLazily p f)) (hp : N.verdict p = some v) :
    ∃ w', w.Answers (.onEither (fun v => (f v).script.bind fun p => Script.forward p q)
        (Script.passFailure q)) (.succeeded v) w' ∧
      N.Advances w w' ∧ N.Open w' (.pass q) := by
  have hverdict : N.verdict q = (f v).verdict N.verdict := by
    simp [hN.verdict_eq _ _ derived, Derived.verdict, hp]
  have hpass : N.Serves (.pass q) _ (N.verdict q) := .pass derived
  rcases hf : f v with p' | v' | e'
  · rw [hf] at hverdict
    obtain ⟨hknown, hlt⟩ := (hN.uses _ _ derived).2 v p' hf
    obtain ⟨hadvances, hopen⟩ := hw.observe (e := .pass q) hknown hlt (hverdict ▸ hpass)
    refine ⟨_, ⟨_, rfl, fun rest => ?_⟩, hadvances, hopen⟩
    simp only [hf]
    exact (Machine.Step.operate rfl).reaches.trans Machine.Step.finish.reaches
  · rw [hf] at hverdict
    obtain ⟨w', hreach, hadvances, hopen⟩ :=
      hw.answers_fresh (s := .fulfilled v') (hverdict ▸ hpass)
    refine ⟨w', ⟨_, rfl, fun rest => ?_⟩, hadvances, hopen⟩
    simp only [hf]
    exact hreach rest
  · rw [hf] at hverdict
    obtain ⟨w', hreach, hadvances, hopen⟩ :=
      hw.answers_fresh (s := .failed e' none) (hverdict ▸ hpass)
    refine ⟨w', ⟨_, rfl, fun rest => ?_⟩, hadvances, hopen⟩
    simp only [hf]
    exact hreach rest

/-! ## Buffers -/

/-- An attempt to settle a promise that is settled. -/
lemma settle_of_isSettled (hq : w.IsSettled q) (s : Settlement P.Value P.Error) :
    (w.settle q s).2 = w.emit (World.ignored s) := by
  obtain ⟨s₀, hs₀⟩ := hq
  obtain ⟨⟨segment?, observed, slot⟩, ha, rfl⟩ := World.settlement?_view_eq_some_iff.mp hs₀
  rw [World.settle_settled ha]

/-- A callback puts a value into a buffer and settles a promise with what the buffer gives out.  The
buffer counts only as long as the promise is not settled. -/
lemma Safe.answers_buffer (hw : N.Safe w) (hq : N.Known q) {β : Type} (op : Op P (Option β))
    (after : Option β → Script P Unit) (value : β → P.Value) {complete : Option β}
    (performed : w.perform op = .answer complete w₁) (promises : w₁.promises = w.promises)
    (queue : w₁.queue = w.queue) (hnone : after none = .pure ())
    (hsome : ∀ y, after (some y) = .op (.settle q (.fulfilled (value y))) fun _ => .pure ())
    (hvalue : ∀ y, complete = some y → ¬ w.IsSettled q → N.verdict q = some (value y))
    (retains : ∀ w', w'.gatherings = w₁.gatherings → w'.pairings = w₁.pairings →
      (¬ w'.IsSettled q → complete = none) → N.Retains w w') :
    ∃ w', (∀ rest, Machine.Reaches ⟨w, .script (.op op after) :: rest⟩ ⟨w', rest⟩) ∧
      N.Advances w w' ∧ (¬ w'.IsSettled q → complete = none ∧ w' = w₁ ∧ ¬ w.IsSettled q) := by
  have hreach : ∀ rest, Machine.Reaches ⟨w, .script (.op op after) :: rest⟩
      ⟨w₁, .script (after complete) :: rest⟩ := fun _ => (Machine.Step.operate performed).reaches
  have hmoves₁ : N.Moves w w₁ :=
    moves_of_eq (fun p _ a ha => ⟨a, by rw [promises, ha], rfl⟩) queue
  rcases complete with _ | y
  · rw [hnone] at hreach
    have hopen : ¬ w₁.IsSettled q → ¬ w.IsSettled q := fun hs hs' => hs (hmoves₁.settled hq hs')
    exact ⟨w₁, fun rest => (hreach rest).trans Machine.Step.finish.reaches,
      hw.advances hmoves₁ (retains w₁ rfl rfl fun _ => rfl), fun hs => ⟨rfl, rfl, hopen hs⟩⟩
  · -- what the buffer gives out settles the promise, unless it came too late
    rw [hsome] at hreach
    obtain ⟨a, ha, -⟩ := hw.promise q hq
    have hsettled := isSettled_settle (promises.symm ▸ ha) (.fulfilled (value y))
    have hunfilled := World.unfilled_settle w₁ q (.fulfilled (value y))
    have hmoves : N.Moves w (w₁.settle q (.fulfilled (value y))).2 := by
      by_cases hs : w.IsSettled q
      · rw [settle_of_isSettled (hmoves₁.settled hq hs)]
        exact moves_of_eq (fun p _ a ha => ⟨a, by rw [World.emit, promises, ha], rfl⟩) queue
      · exact hw.moves_settle hq (hvalue y rfl hs).symm promises queue
    exact ⟨_, fun rest => (hreach rest).trans (Machine.reaches_settle ..),
      hw.advances hmoves (retains _ hunfilled.gatherings hunfilled.pairings
        fun hs => absurd hsettled hs), fun hs => absurd hsettled hs⟩

/-- Only the gathering of one join has changed. -/
lemma retains_of_gathering (hN : N.Sound) {ps : List PromiseId}
    (derived : N.derived q = some (.join ps)) (hps : ps ≠ [])
    (others : ∀ i ≠ (N.gathering q).index, w'.gatherings[i]? = w.gatherings[i]?)
    (pairings : w'.pairings = w.pairings)
    (own : ¬ w'.IsSettled q → ∀ γ, w.gatherings[(N.gathering q).index]? = some γ →
      N.Gathers ps γ → ∃ γ', w'.gatherings[(N.gathering q).index]? = some γ' ∧ N.Gathers ps γ' ∧
        ∀ (i : Nat) v, γ.values[i]? = some (some v) → ∃ v', γ'.values[i]? = some (some v')) :
    N.Retains w w' where
  gathers q' ps' γ derived' hs hγ hgathers := by
    by_cases hqq : q' = q
    · subst hqq
      cases derived'.symm.trans derived
      exact own hs γ hγ hgathers
    · have hne : (N.gathering q').index ≠ (N.gathering q).index := fun heq =>
        hqq (hN.gathering_inj _ _ _ _ derived' derived hgathers.ne_nil hps
          (congrArg GatheringId.mk heq))
      exact ⟨γ, (others _ hne).trans hγ, hgathers, fun _ v hv => ⟨v, hv⟩⟩
  couples _ _ _ π _ _ hπ hcouples :=
    ⟨π, pairings ▸ hπ, hcouples, fun _ v hv => ⟨v, hv⟩⟩

/-- A value of an input is put into its place: it stays there, or all values are given out. -/
lemma Gathers.insert {γ : Gathering P.Value} {ps : List PromiseId} {i : Nat} {v : P.Value}
    (h : N.Gathers ps γ) (input : ps[i]? = some p) (hp : N.verdict p = some v) :
    ((γ.insert i v).2 = none ∧ N.Gathers ps (γ.insert i v).1 ∧
        (γ.insert i v).1.values[i]? = some (some v) ∧
        ∀ (j : Nat) v', γ.values[j]? = some (some v') →
          ∃ v₁, (γ.insert i v).1.values[j]? = some (some v₁)) ∨
      ∃ vs, (γ.insert i v).2 = some vs ∧ ps.mapM N.verdict = some vs := by
  have hi : i < γ.values.length := by
    rw [h.length_eq]
    exact (List.getElem?_eq_some_iff.mp input).1
  have hvalues : ∀ (j : Nat) p' v', ps[j]? = some p' →
      (γ.values.set i (some v))[j]? = some (some v') → N.verdict p' = some v' := by
    intro j p' v' hp' hv'
    by_cases hij : i = j
    · subst hij
      cases input.symm.trans hp'
      rw [List.getElem?_set_self hi] at hv'
      cases hv'
      exact hp
    · rw [List.getElem?_set_ne hij] at hv'
      exact h.values j p' v' hp' hv'
  -- the value either leaves some place empty or takes the last one
  by_cases hmissing : none ∈ γ.values.set i (some v)
  · obtain ⟨γ', hinsert, hset, htallied⟩ := h.tallied.insert_of_mem hi hmissing
    have hin : γ'.values[i]? = some (some v) := by rw [hset, List.getElem?_set_self hi]
    rw [hinsert]
    refine .inl ⟨rfl, ⟨htallied, ?_, hset ▸ hmissing, ?_⟩, hin, ?_⟩
    · rw [hset, List.length_set, h.length_eq]
    · exact fun j p' v' hp' hv' => hvalues j p' v' hp' (hset ▸ hv')
    · intro j v' hv'
      by_cases hij : i = j
      · exact ⟨v, hij ▸ hin⟩
      · exact ⟨v', by rw [hset, List.getElem?_set_ne hij, hv']⟩
  · obtain ⟨γ', vs, hinsert, hvs⟩ := h.tallied.insert_of_not_mem hi hmissing
    rw [hinsert]
    refine .inr ⟨vs, rfl, List.mapM_eq_some_of_forall ?_ ?_⟩
    · have hlength := congrArg List.length hvs
      rw [List.length_set, List.length_map, h.length_eq] at hlength
      exact hlength.symm
    · intro j p' v' hp' hv'
      refine hvalues j p' v' hp' ?_
      rw [hvs, List.getElem?_map, hv', Option.map_some]

end Plan

namespace World

variable {w : World P}

lemma getElem?_setIfInBounds_of_some {α : Type*} {xs : Array α} {i : Nat} {x : α}
    (h : xs[i]? = some x) (y : α) : (xs.setIfInBounds i y)[i]? = some y :=
  Array.getElem?_setIfInBounds_self_of_lt (Array.getElem?_eq_some_iff.mp h).1

lemma gather_eq {g : GatheringId} {γ : Gathering P.Value} (hγ : w.gatherings[g.index]? = some γ)
    (i : Nat) (v : P.Value) : w.gather g i v = ((γ.insert i v).2,
      { w with gatherings := w.gatherings.setIfInBounds g.index (γ.insert i v).1 }) := by
  rw [gather, hγ]

/-- A value that is put into one gathering changes no other buffer. -/
lemma gather_others (w : World P) (g : GatheringId) (i : Nat) (v : P.Value) :
    (w.gather g i v).2.pairings = w.pairings ∧
      ∀ j ≠ g.index, (w.gather g i v).2.gatherings[j]? = w.gatherings[j]? := by
  unfold gather
  split
  · exact ⟨rfl, fun _ _ => rfl⟩
  · exact ⟨rfl, fun j hj => Array.getElem?_setIfInBounds_ne hj.symm⟩

/-- A value that is put into one pairing changes no other buffer. -/
lemma couple_others (w : World P) (g : PairingId) (s : Side) (v : P.Value) :
    (w.couple g s v).2.gatherings = w.gatherings ∧
      ∀ j ≠ g.index, (w.couple g s v).2.pairings[j]? = w.pairings[j]? := by
  unfold couple
  split
  · exact ⟨rfl, fun _ _ => rfl⟩
  · exact ⟨rfl, fun j hj => Array.getElem?_setIfInBounds_ne hj.symm⟩

end World

namespace Plan

variable {N : Plan P} {w w' w₁ : World P} {e : Errand} {ob : Observer P} {x : Option P.Value}
  {o : Outcome P.Value P.Error} {p q : PromiseId}

/-- The gathering of a join keeps its values when one comes in, as long as it counts. -/
lemma retains_gather (hN : N.Sound) {ps : List PromiseId} {i : Nat}
    {v : P.Value} (derived : N.derived q = some (.join ps)) (input : ps[i]? = some p)
    (hp : N.verdict p = some v)
    (gatherings : w'.gatherings = (w.gather (N.gathering q) i v).2.gatherings)
    (pairings : w'.pairings = (w.gather (N.gathering q) i v).2.pairings)
    (counts : ¬ w'.IsSettled q → (w.gather (N.gathering q) i v).1 = none) :
    N.Retains w w' := by
  have hps : ps ≠ [] := List.ne_nil_of_mem (List.mem_of_getElem? input)
  obtain ⟨hpairings, hothers⟩ := w.gather_others (N.gathering q) i v
  refine retains_of_gathering hN derived hps (fun j hj => by rw [gatherings, hothers j hj])
    (pairings.trans hpairings) fun hs γ hγ hgathers => ?_
  have hnone := counts hs
  rw [World.gather_eq hγ] at hnone gatherings
  rw [gatherings]
  rcases hgathers.insert input hp with ⟨-, hgathers', -, hkept⟩ | ⟨vs, hvs, -⟩
  · exact ⟨_, World.getElem?_setIfInBounds_of_some hγ _, hgathers', hkept⟩
  · cases hnone.symm.trans hvs

/-- A value comes in for a place of a join. -/
lemma Safe.answers_place (hN : N.Sound) (hw : N.Safe w) {ps : List PromiseId} {i : Nat}
    {v : P.Value} (derived : N.derived q = some (.join ps)) (input : ps[i]? = some p)
    (hp : N.verdict p = some v) :
    ∃ w', (∀ rest, Machine.Reaches
        ⟨w, .script (Script.gatherInto q (N.gathering q) i v) :: rest⟩ ⟨w', rest⟩) ∧
      N.Advances w w' ∧ N.Reached w' (.place q i) := by
  obtain ⟨promises, queue, -⟩ := World.gather_still w (N.gathering q) i v
  have hvalue : ∀ vs, (w.gather (N.gathering q) i v).1 = some vs → ¬ w.IsSettled q →
      N.verdict q = some (P.list vs) := by
    intro vs hvs hs
    obtain ⟨γ, hγ, hgathers⟩ := hw.gathers q ps derived hs
    rw [World.gather_eq hγ] at hvs
    rcases hgathers.insert input hp with ⟨hnone, -⟩ | ⟨vs', hvs', hmap⟩
    · cases hnone.symm.trans hvs
    · cases hvs'.symm.trans hvs
      rw [hN.verdict_eq _ _ derived, Derived.verdict, hmap, Option.map_some]
  have performed : w.perform (.gather (N.gathering q) i v) =
      .answer (w.gather (N.gathering q) i v).1 (w.gather (N.gathering q) i v).2 := rfl
  obtain ⟨w', hreach, hadvances, hlast⟩ := hw.answers_buffer (.inr ⟨_, derived⟩) _
    (Script.gathered q) P.list performed promises queue rfl (fun _ => rfl) hvalue
    fun w' => retains_gather hN derived input hp
  rw [Script.gatherInto_eq]
  refine ⟨w', hreach, hadvances, ?_⟩
  by_cases hs : w'.IsSettled q
  · exact .inl hs
  · -- the buffer still counts, so the value is there
    obtain ⟨hnone, rfl, hs'⟩ := hlast hs
    obtain ⟨γ, hγ, hgathers⟩ := hw.gathers q ps derived hs'
    rw [World.gather_eq hγ] at hnone ⊢
    rcases hgathers.insert input hp with ⟨-, -, hin, -⟩ | ⟨vs, hvs, -⟩
    · exact .inr ⟨_, v, World.getElem?_setIfInBounds_of_some hγ _, hin⟩
    · cases hnone.symm.trans hvs

/-- Only the pairing of one join has changed. -/
lemma retains_of_pairing (hN : N.Sound) {a b : PromiseId}
    (derived : N.derived q = some (.joinPair a b))
    (others : ∀ i ≠ (N.pairing q).index, w'.pairings[i]? = w.pairings[i]?)
    (gatherings : w'.gatherings = w.gatherings)
    (own : ¬ w'.IsSettled q → ∀ π, w.pairings[(N.pairing q).index]? = some π →
      N.Couples a b π → ∃ π', w'.pairings[(N.pairing q).index]? = some π' ∧ N.Couples a b π' ∧
        ∀ s v, π.at s = some v → ∃ v', π'.at s = some v') :
    N.Retains w w' where
  gathers _ _ γ _ _ hγ hgathers :=
    ⟨γ, gatherings ▸ hγ, hgathers, fun _ v hv => ⟨v, hv⟩⟩
  couples q' a' b' π derived' hs hπ hcouples := by
    by_cases hqq : q' = q
    · subst hqq
      cases derived'.symm.trans derived
      exact own hs π hπ hcouples
    · have hne : (N.pairing q').index ≠ (N.pairing q).index := fun heq =>
        hqq (hN.pairing_inj _ _ _ _ _ _ derived' derived (congrArg PairingId.mk heq))
      exact ⟨π, (others _ hne).trans hπ, hcouples, fun _ v hv => ⟨v, hv⟩⟩

/-- A value of an input is put on its side: it stays there, or both values are given out. -/
lemma Couples.insert {π : Pairing P.Value} {a b : PromiseId} {s : Side} {v : P.Value}
    (h : N.Couples a b π) (hv : N.verdict (s.pick a b) = some v) :
    ((π.insert s v).2 = none ∧ N.Couples a b (π.insert s v).1 ∧ (π.insert s v).1.at s = some v ∧
        ∀ s' v', π.at s' = some v' → ∃ v₁, (π.insert s v).1.at s' = some v₁) ∨
      ∃ x y, (π.insert s v).2 = some (x, y) ∧ N.verdict a = some x ∧ N.verdict b = some y := by
  obtain ⟨first, second⟩ := π
  have hfirst : ∀ x, first = some x → N.verdict a = some x := fun x hx => h.values .first x hx
  have hsecond : ∀ x, second = some x → N.verdict b = some x := fun x hx => h.values .second x hx
  cases s with
  | first =>
    cases second with
    | none =>
      refine .inl ⟨rfl, ⟨.inr rfl, ?_⟩, rfl, ?_⟩
      · rintro (_ | _) x hx
        · cases hx
          exact hv
        · cases hx
      · rintro (_ | _) x hx
        · exact ⟨v, rfl⟩
        · cases hx
    | some y => exact .inr ⟨v, y, rfl, hv, hsecond y rfl⟩
  | second =>
    cases first with
    | none =>
      refine .inl ⟨rfl, ⟨.inl rfl, ?_⟩, rfl, ?_⟩
      · rintro (_ | _) x hx
        · cases hx
        · cases hx
          exact hv
      · rintro (_ | _) x hx
        · cases hx
        · exact ⟨v, rfl⟩
    | some x => exact .inr ⟨x, v, rfl, hfirst x rfl, hv⟩

/-- The pairing of a join of two keeps its values when one comes in, as long as it counts. -/
lemma retains_couple (hN : N.Sound) {a b : PromiseId} {s : Side} {v : P.Value}
    (derived : N.derived q = some (.joinPair a b)) (hp : N.verdict (s.pick a b) = some v)
    (gatherings : w'.gatherings = (w.couple (N.pairing q) s v).2.gatherings)
    (pairings : w'.pairings = (w.couple (N.pairing q) s v).2.pairings)
    (counts : ¬ w'.IsSettled q → (w.couple (N.pairing q) s v).1 = none) :
    N.Retains w w' := by
  obtain ⟨hgatherings, hothers⟩ := w.couple_others (N.pairing q) s v
  refine retains_of_pairing hN derived (fun j hj => by rw [pairings, hothers j hj])
    (gatherings.trans hgatherings) fun hs π hπ hcouples => ?_
  have hnone := counts hs
  rw [World.couple_eq hπ] at hnone pairings
  rw [pairings]
  rcases hcouples.insert hp with ⟨-, hcouples', -, hkept⟩ | ⟨x, y, hxy, -⟩
  · exact ⟨_, World.getElem?_setIfInBounds_of_some hπ _, hcouples', hkept⟩
  · cases hnone.symm.trans hxy

/-- A value comes in for a side of a join of two. -/
lemma Safe.answers_side (hN : N.Sound) (hw : N.Safe w) {a b : PromiseId} {s : Side}
    {v : P.Value} (derived : N.derived q = some (.joinPair a b))
    (hp : N.verdict (s.pick a b) = some v) :
    ∃ w', (∀ rest, Machine.Reaches
        ⟨w, .script (Script.coupleInto q (N.pairing q) s v) :: rest⟩ ⟨w', rest⟩) ∧
      N.Advances w w' ∧ N.Reached w' (.side q s) := by
  obtain ⟨promises, queue, -⟩ := World.couple_still w (N.pairing q) s v
  have hvalue : ∀ y, (w.couple (N.pairing q) s v).1 = some y → ¬ w.IsSettled q →
      N.verdict q = some (P.pair y.1 y.2) := by
    intro y hy hs
    obtain ⟨π, hπ, hcouples⟩ := hw.couples q a b derived hs
    rw [World.couple_eq hπ] at hy
    rcases hcouples.insert hp with ⟨hnone, -⟩ | ⟨x, y, hxy, ha, hb⟩
    · cases hnone.symm.trans hy
    · cases hxy.symm.trans hy
      rw [hN.verdict_eq _ _ derived, Derived.verdict, ha, hb]
      rfl
  have performed : w.perform (.couple (N.pairing q) s v) =
      .answer (w.couple (N.pairing q) s v).1 (w.couple (N.pairing q) s v).2 := rfl
  obtain ⟨w', hreach, hadvances, hlast⟩ := hw.answers_buffer (.inr ⟨_, derived⟩) _
    (Script.coupled q) (fun y => P.pair y.1 y.2) performed promises queue rfl (fun _ => rfl) hvalue
    fun w' => retains_couple hN derived hp
  rw [Script.coupleInto_eq]
  refine ⟨w', hreach, hadvances, ?_⟩
  by_cases hs : w'.IsSettled q
  · exact .inl hs
  · -- the buffer still counts, so the value is there
    obtain ⟨hnone, rfl, hs'⟩ := hlast hs
    obtain ⟨π, hπ, hcouples⟩ := hw.couples q a b derived hs'
    rw [World.couple_eq hπ] at hnone ⊢
    rcases hcouples.insert hp with ⟨-, -, hin, -⟩ | ⟨x, y, hxy, -⟩
    · exact .inr ⟨_, v, World.getElem?_setIfInBounds_of_some hπ _, hin⟩
    · cases hnone.symm.trans hxy

/-- **Whatever errand an observer has, its callback runs it.**  Nothing is disturbed, and the errand
is run, or the observer that follows what the callback led to takes it over. -/
theorem Safe.answers (hN : N.Sound) (hw : N.Safe w) (hserves : N.Serves e ob o.value?) :
    ∃ w', w.Answers ob o w' ∧ N.Advances w w' ∧
      (N.Reached w' e ∨ ∃ q, e = .next q ∧ N.Open w' (.pass q)) := by
  rcases o with v | t
  · generalize hx : (Outcome.succeeded v : Outcome P.Value P.Error).value? = x at hserves
    cases hserves with
    | @andThen q p f derived =>
      have hverdict : N.verdict q = (f v).toOption := by
        simp [hN.verdict_eq _ _ derived, Derived.verdict, ← hx, Outcome.value?]
      have hsettle : ∃ s : Settlement P.Value P.Error, s.value? = N.verdict q ∧
          (Script.settleWith q (f v) : Script P Unit) = .op (.settle q s) fun _ => .pure () := by
        rw [hverdict]
        rcases f v with err | v'
        · exact ⟨.failed err none, rfl, rfl⟩
        · exact ⟨.fulfilled v', rfl, rfl⟩
      obtain ⟨s, hs, hbody⟩ := hsettle
      obtain ⟨w', hreach, hadvances, hsettled⟩ := hw.answers_settle (.inr ⟨_, derived⟩) hs
      exact ⟨w', ⟨_, congrArg some hbody, hreach⟩, hadvances, .inl hsettled⟩
    | @andThenLazily q p f derived =>
      obtain ⟨w', hanswers, hadvances, hopen⟩ := hw.answers_lead hN derived hx.symm
      exact ⟨w', hanswers, hadvances, .inr ⟨q, rfl, hopen⟩⟩
    | @pass q p f derived =>
      obtain ⟨w', hreach, hadvances, hsettled⟩ := hw.answers_settle (s := .fulfilled v)
        (.inr ⟨_, derived⟩) hx
      exact ⟨w', ⟨_, rfl, hreach⟩, hadvances, .inl hsettled⟩
    | place derived input =>
      obtain ⟨w', hreach, hadvances, hreached⟩ := hw.answers_place hN derived input hx.symm
      exact ⟨w', ⟨_, rfl, hreach⟩, hadvances, .inl hreached⟩
    | side derived =>
      obtain ⟨w', hreach, hadvances, hreached⟩ := hw.answers_side hN derived hx.symm
      exact ⟨w', ⟨_, rfl, hreach⟩, hadvances, .inl hreached⟩
  · -- a failure is passed on, whatever the errand
    obtain ⟨hknown, hverdict, f, rfl⟩ := hserves.fails hN rfl
    obtain ⟨w', hreach, hadvances, hsettled⟩ :=
      hw.answers_settle (s := .failed t.error (some t)) hknown hverdict.symm
    exact ⟨w', ⟨_, rfl, hreach⟩, hadvances, .inl (reached_of_isSettled hsettled)⟩

end Plan

end Eventual
