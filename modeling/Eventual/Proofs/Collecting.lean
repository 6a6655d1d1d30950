import Eventual.Proofs.Composed
import Eventual.Proofs.Listening

/-!
# Calls that collect values

Some calls wait for several promises with a buffer that has a place for each of them (`Buffer`).
The callback of an observer either passes a failure on to the result, or puts a value into its place
and goes on with what the buffer gives out.  Nothing else knows the buffer (`Program.Collects`), so
it holds what the callbacks have put into it (`Program.Placed`), and the callback that fills the
last place passes all the values on.
-/

namespace Eventual

variable {P : Payload}

lemma Op.permitted_iff_of_op_eq {α ρ σ : Type} {o : Op P ρ} {o' : Op P σ} {k : ρ → Script P α}
    {k' : σ → Script P α} {S : Scope P} (h : Script.op o k = Script.op o' k') :
    o.Permitted S ↔ o'.Permitted S := by
  cases h
  rfl

/-- A buffer with a place for each of several values, which it gives out once every place is
filled. -/
structure Buffer (P : Payload) where
  /-- The number of its places. -/
  size : Nat
  /-- What it gives out. -/
  Content : Type
  /-- Puts a value into a place. -/
  put : Nat → P.Value → Op P (Option Content)
  /-- The values that are given out, in the order of their places. -/
  values : Content → List P.Value
  /-- The value made of them. -/
  value : Content → P.Value
  /-- The scope of scripts that do not use the buffer. -/
  foreign : Scope P
  /-- The buffer has been made. -/
  Made : World P → Prop
  /-- The buffer holds the values of a relation, and no others. -/
  Holds : World P → (Nat → P.Value → Prop) → Prop
  put_inj : ∀ {i i' : Nat} {v v' : P.Value}, i < size → i' < size → put i v = put i' v' →
    i = i' ∧ v = v'
  not_permitted : ∀ i v, ¬ (put i v).Permitted foreign
  leaves : ∀ i v exempt late w, (put i v).Leaves foreign exempt late w
  settlements : ∀ s, foreign.settlement s
  traces : ∀ t, foreign.trace t
  announces : ∀ {w : World P} (w' : World P), Made w → w.Announces foreign w'
  made_of_step : ∀ {m m' : Machine P}, m.Step m' → Made m.world → Made m'.world
  /-- Nothing else changes the buffer. -/
  holds_of_step : ∀ {m m' : Machine P} {F : Nat → P.Value → Prop}, m.Step m' →
    (∀ i v k rest, m.stack ≠ .script (.op (put i v) k) :: rest) → Holds m.world F →
    Holds m'.world F
  /-- A value that is put into an empty place leaves another place empty, or fills the last one. -/
  insert : ∀ {w w' : World P} {i : Nat} {v : P.Value} {complete : Option Content}
    {F F' : Nat → P.Value → Prop}, w.perform (put i v) = .answer complete w' → Holds w F →
    i < size → (∀ v', ¬ F i v') → (∀ i' v', F' i' v' ↔ F i' v' ∨ i = i' ∧ v = v') →
    (complete = none ∧ (∃ i' < size, ∀ v', ¬ F' i' v') ∧ Holds w' F') ∨
      ∃ y, complete = some y ∧ (values y).length = size ∧
        ∀ i' v', (values y)[i']? = some v' ↔ F' i' v'

namespace Buffer

variable {B : Buffer P} {r : PromiseId} {i : Nat} {v : P.Value} {t : Trace P.Error}

/-- What is done once a value has been put into its place. -/
def after (B : Buffer P) (r : PromiseId) : Option B.Content → Script P Unit
  | some y => Script.passValue r (B.value y)
  | none => .pure ()

/-- Puts a value into its place, and fulfills a promise once every place is filled. -/
def place (B : Buffer P) (r : PromiseId) (i : Nat) (v : P.Value) : Script P Unit :=
  .op (B.put i v) (B.after r)

/-- The observer that puts the value of the `i`-th input into its place. -/
def observer (B : Buffer P) (r : PromiseId) (i : Nat) : Observer P :=
  .onEither (B.place r i) (Script.passFailure r)

lemma awaits_observer (B : Buffer P) (r : PromiseId) (i : Nat) (o : Outcome P.Value P.Error) :
    (B.observer r i).awaits o = true := by
  rcases o with v | t <;> rfl

lemma confinedTo_after (complete : Option B.Content) :
    (B.after r complete).ConfinedTo B.foreign := by
  cases complete with
  | none => exact .pure ()
  | some y => exact Script.confinedTo_passValue r (B.value y)

lemma place_ne_passFailure : B.place r i v ≠ Script.passFailure r t := fun heq =>
  B.not_permitted i v ((Op.permitted_iff_of_op_eq heq).mpr (B.settlements _))

lemma place_inj {i' : Nat} {v' : P.Value} (hi : i < B.size) (hi' : i' < B.size)
    (h : B.place r i v = B.place r i' v') : i = i' ∧ v = v' := by
  rw [place, place] at h
  injection h with _ _ hput
  exact B.put_inj hi hi' hput

/-- Whoever puts a value into the buffer does not attempt to settle anything. -/
lemma not_attempts {w : World P} {k : Option B.Content → Script P Unit} {rest : List (Activity P)}
    (q : PromiseId) : ¬ Machine.Attempts ⟨w, .script (.op (B.put i v) k) :: rest⟩ q := by
  rintro ⟨-, s, k', rest', hstack⟩
  injection hstack with hscript
  injection hscript with hop
  exact B.not_permitted i v ((Op.permitted_iff_of_op_eq hop).mpr (B.settlements s))

end Buffer

namespace Script

/-- What follows when observers have been registered does nothing that the whole does not do. -/
lemma of_observeEach_bind {α : Type} {S : Scope P} {ob : Nat → Observer P} {i : Nat}
    {ps : List PromiseId} {k : Unit → Script P α}
    (h : ((observeEach ob i ps).bind k).ConfinedTo S) : (k ()).ConfinedTo S := by
  induction ps generalizing i with
  | nil => exact h
  | cons p ps ih =>
    cases h with
    | op _ _ _ rest => exact ih (rest () trivial)

lemma passFailure_inj {r : PromiseId} {t t' : Trace P.Error}
    (h : (passFailure r t : Script P Unit) = passFailure r t') : t = t' := by
  have hop : Script.op (Op.settle r (.failed t.error (some t)))
        (fun _ => (.pure () : Script P Unit)) =
      Script.op (Op.settle r (.failed t'.error (some t'))) fun _ => .pure () := h
  injection hop with _ _ hop
  injection hop with _ hs
  injection hs with _ hcause
  exact Option.some.inj hcause

end Script

namespace Program

/-- The observers that a call registers on its inputs, the first one at moment `f`. -/
def Awaited (prog : Program P) (f : Nat) (inputs : List PromiseId) (p : PromiseId) (n : Nat) :
    Prop :=
  ∃ i, inputs[i]? = some p ∧ prog.At (f + i) fun m => m.world.observed p = n

/-- A call at moment `a` and the instant `start` collects the values of its inputs in a buffer, for
its result `r`. -/
structure Collects (prog : Program P) (a f : Nat) (inputs : List PromiseId) (B : Buffer P)
    (r : PromiseId) (start : Duration) : Prop where
  /-- There is a place for each input. -/
  size_eq : B.size = inputs.length
  /-- The call registers an observer on each input. -/
  listens : prog.Listens a f inputs (B.observer r) start
  /-- Nothing has been put into the buffer when the call returns, and nothing but the observers
  uses it. -/
  returned : prog.At (f + inputs.length) fun m =>
    r.index < m.world.promises.size ∧ B.Made m.world ∧ B.Holds m.world (fun _ _ => False) ∧
      m.world.ConfinedTo B.foreign (prog.Awaited f inputs) (fun _ => False) ∧
      ∀ x ∈ m.stack, x.ConfinedTo B.foreign (prog.Awaited f inputs)

/-- The callback of an input has put a value into its place before moment `j`. -/
def Placed (prog : Program P) (f : Nat) (inputs : List PromiseId) (B : Buffer P) (r : PromiseId)
    (i : Nat) (v : P.Value) (j : Nat) : Prop :=
  ∃ l, l + 1 < j ∧ prog.Hears f inputs i l (B.place r i v)

variable {prog : Program P} {a f : Nat} {inputs : List PromiseId} {B : Buffer P} {r : PromiseId}
  {start : Duration} {i j l : Nat} {v : P.Value} {body : Script P Unit} {m : Machine P}

/-! ## The call -/

section Registering

variable {w : World P} {k : Unit → Script P Unit} {rest : List (Activity P)}

/-- While the observers are registered nothing is put into the buffer. -/
lemma confined_of_registering
    (hf : prog.moment f =
      some ⟨w, .script ((Script.observeEach (B.observer r) 0 inputs).bind k) :: rest⟩)
    (made : B.Made w) (holds : B.Holds w fun _ _ => False)
    (hw : w.ConfinedTo B.foreign (fun _ _ => False) fun _ => False) (hi : i ≤ inputs.length)
    (hm : prog.moment (f + i) = some m) :
    B.Made m.world ∧ B.Holds m.world (fun _ _ => False) ∧
      m.world.ConfinedTo B.foreign (prog.Awaited f inputs) fun _ => False := by
  induction i generalizing m with
  | zero =>
    cases hf.symm.trans hm
    exact ⟨made, holds, hw.mono (fun _ _ h => h.elim) fun _ h => h⟩
  | succ i ih =>
    obtain ⟨wi, hmi, -⟩ := registering_each hf (Nat.le_of_succ_le hi)
    rw [List.drop_eq_getElem_cons hi] at hmi
    obtain ⟨hmade, hholds, hconfined⟩ := ih (Nat.le_of_succ_le hi) hmi
    have performed : wi.perform (.observe inputs[i] (B.observer r i)) =
      .answer () (wi.observe inputs[i] (B.observer r i)) := rfl
    cases (moment_of_operate hmi performed).symm.trans hm
    have hstep := step_of_moment hmi hm
    refine ⟨B.made_of_step hstep hmade, B.holds_of_step hstep ?_ hholds,
      hconfined.perform ?_ performed⟩
    · intro i' v k' rest' hstack
      injection hstack with hscript
      injection hscript with hop
      exact B.not_permitted i' v ((Op.permitted_iff_of_op_eq hop).mp trivial)
    · exact Or.inl ⟨i, List.getElem?_eq_getElem hi, _, hmi, rfl⟩

/-- After a prelude, in which nothing is registered or settled, a call registers its observers. -/
theorem collects_of_observeEach (hle : a ≤ f) (size_eq : B.size = inputs.length)
    (hf : prog.moment f =
      some ⟨w, .script ((Script.observeEach (B.observer r) 0 inputs).bind k) :: rest⟩)
    (exist : ∀ p ∈ inputs, p.index < w.promises.size) (hr : r.index < w.promises.size)
    (made : B.Made w) (holds : B.Holds w fun _ _ => False)
    (hw : w.ConfinedTo B.foreign (fun _ _ => False) fun _ => False)
    (hk : (k ()).ConfinedTo B.foreign)
    (hrest : ∀ x ∈ rest, x.ConfinedTo B.foreign fun _ _ => False)
    (prelude : ∀ j, a ≤ j → j < f → prog.At j fun m => m.world.clock = w.clock ∧
      (∀ p ob, ¬ m.Observes p ob) ∧ ∀ p, ¬ m.Attempts p) :
    prog.At (f + inputs.length) (fun m => m.stack = .script (k ()) :: rest ∧
        ∀ p, m.world.view p = w.view p) ∧ prog.Collects a f inputs B r w.clock := by
  obtain ⟨⟨m, hm, hstack, size, view⟩, hlistens⟩ :=
    listens_of_observeEach hle (B.awaits_observer r) hf exist prelude
  obtain ⟨hmade, hholds, hconfined⟩ :=
    confined_of_registering hf made holds hw (Nat.le_refl inputs.length) hm
  refine ⟨⟨m, hm, hstack, view⟩, size_eq, hlistens, m, hm, size ▸ hr, hmade, hholds, hconfined,
    fun x hx => ?_⟩
  rw [hstack] at hx
  rcases List.mem_cons.mp hx with rfl | hx
  · exact hk
  · exact (hrest x hx).mono fun _ _ h => h.elim

variable {ι : Type} {o : Op P ι} {C : ι → Buffer P} {g : ι} {k : PromiseId → Script P Unit}

/-- A call makes its result, then a buffer with a place for each input, and then registers its
observers. -/
theorem collects_of_call
    (ha : prog.moment a = some ⟨w, .script (.op .create fun r => .op o fun g =>
      (Script.observeEach ((C g).observer r) 0 inputs).bind fun _ => k r) :: rest⟩)
    (confined : Machine.ConfinedTo (C g).foreign ⟨w, .script (.op .create fun r => .op o fun g =>
      (Script.observeEach ((C g).observer r) 0 inputs).bind fun _ => k r) :: rest⟩)
    (exist : ∀ p ∈ inputs, p.index < w.promises.size) (size_eq : (C g).size = inputs.length)
    (opens : ∀ w₁, w.Unfilled w₁ → ∃ w₂, w₁.perform o = .answer g w₂ ∧
      w₂.promises = w₁.promises ∧ (C g).Made w₂ ∧ (C g).Holds w₂ fun _ _ => False)
    (isObserve : o.isObserve = false) (isSettle : o.isSettle = false)
    (leaves : ∀ w₁, o.Leaves (C g).foreign (fun _ _ => False) (fun _ => False) w₁)
    (others : ∃ g', o.Tells (C g).foreign g') :
    prog.At (a + 2 + inputs.length) (fun m => m.stack = .script (k ⟨w.promises.size⟩) :: rest ∧
        (m.world.view ⟨w.promises.size⟩).settlement? = none) ∧
      prog.Collects a (a + 2) inputs (C g) ⟨w.promises.size⟩ w.clock := by
  obtain ⟨w₁, segment?, performed, promises, clock, -, unfilled⟩ := World.perform_create w
  have h₁ := moment_of_operate ha performed
  obtain ⟨w₂, performed₂, promises₂, made, holds⟩ := opens w₁ unfilled
  have h₂ := moment_of_operate h₁ performed₂
  have clock₂ : w₂.clock = w.clock := (World.effect_of_perform performed₂).1.trans clock
  have hpromises : w₂.promises = w.promises.push ⟨segment?, 0, .unresolved []⟩ :=
    promises₂.trans promises
  have hw₁ := confined.world.perform (o := .create) trivial performed
  have hw₂ := hw₁.perform (leaves w₁) performed₂
  have hk : (k ⟨w.promises.size⟩).ConfinedTo (C g).foreign := by
    cases confined.stack _ (.head rest) with
    | op _ _ _ hcreated =>
      cases hcreated ⟨w.promises.size⟩ trivial with
      | op _ _ _ hopened =>
        obtain ⟨g', hg'⟩ := others
        exact Script.of_observeEach_bind (hopened g' hg')
  have hsize : w₂.promises.size = w.promises.size + 1 := by rw [hpromises, Array.size_push]
  have hcollects := collects_of_observeEach (Nat.le_add_right a 2) size_eq h₂
    (fun p hp => hsize ▸ Nat.lt_succ_of_lt (exist p hp)) (hsize ▸ Nat.lt_succ_self _) made holds
    hw₂ hk (fun x hx => confined.stack x (.tail _ hx)) ?_
  · rw [clock₂] at hcollects
    obtain ⟨⟨m, hm, hstack, hview⟩, hcollects⟩ := hcollects
    refine ⟨⟨m, hm, hstack, ?_⟩, hcollects⟩
    rw [hview]
    simp [World.view, hpromises, Promise.view]
  · -- first the result is made, and then the buffer
    intro j haj hj
    obtain rfl | rfl : j = a ∨ j = a + 1 := by omega
    · refine ⟨_, ha, clock₂.symm, fun p ob hob => ?_, fun p hattempts => ?_⟩
      · cases hob.isObserve
      · cases hattempts.isSettle
    · refine ⟨_, h₁, clock.trans clock₂.symm, fun p ob hob => ?_, fun p hattempts => ?_⟩
      · cases isObserve.symm.trans hob.isObserve
      · cases isSettle.symm.trans hattempts.isSettle

end Registering

namespace Collects

/-! ## The callbacks -/

/-- The callbacks run after the call, with what the inputs ended with. -/
lemma of_hears (h : prog.Collects a f inputs B r start) (hears : prog.Hears f inputs i l body) :
    f + inputs.length ≤ l ∧ ∃ p, inputs[i]? = some p ∧
      ((∃ v, prog.At l (fun m => (m.world.view p).outcome? = some (.succeeded v)) ∧
          body = B.place r i v) ∨
        ∃ t, prog.At l (fun m => (m.world.view p).outcome? = some (.failed t)) ∧
          body = Script.passFailure r t) := by
  obtain ⟨hl, p, m, o, hp, hm, ho, hhandler⟩ := h.listens.of_hears hears
  refine ⟨hl, p, hp, ?_⟩
  cases o with
  | succeeded v =>
    cases hhandler
    exact Or.inl ⟨v, ⟨m, hm, ho⟩, rfl⟩
  | failed t =>
    cases hhandler
    exact Or.inr ⟨t, ⟨m, hm, ho⟩, rfl⟩

lemma lt_size_of_hears (h : prog.Collects a f inputs B r start)
    (hears : prog.Hears f inputs i l body) : i < B.size := by
  obtain ⟨p, n, hp, -⟩ := hears
  rw [h.size_eq]
  exact (List.getElem?_eq_some_iff.mp hp).1

/-- After the call nothing uses the buffer but the callbacks, which do so at once. -/
lemma stage (h : prog.Collects a f inputs B r start) (hj : f + inputs.length ≤ j)
    (hm : prog.moment j = some m) :
    B.Made m.world ∧ m.world.ConfinedTo B.foreign (prog.Awaited f inputs) (fun _ => False) ∧
      ∃ own others, m.stack = own ++ others ∧
        (∀ x ∈ others, x.ConfinedTo B.foreign (prog.Awaited f inputs)) ∧
        (own = [] ∨ ∃ i v l, own = [.script (B.place r i v)] ∧ j = l + 1 ∧
          prog.Hears f inputs i l (B.place r i v)) := by
  induction j, hj using Nat.le_induction generalizing m with
  | base =>
    obtain ⟨m', hm', -, hmade, -, hworld, hstack⟩ := h.returned
    cases hm.symm.trans hm'
    exact ⟨hmade, hworld, [], m.stack, rfl, hstack, Or.inl rfl⟩
  | succ j hj ih =>
    obtain ⟨⟨w, stack⟩, h₁, hstep⟩ := moment_succ_eq_some_iff.mp hm
    obtain ⟨hmade, hworld, own, others, rfl, hothers, hown⟩ := ih h₁
    refine ⟨B.made_of_step hstep hmade, ?_⟩
    rcases hown with rfl | ⟨i, v, l, rfl, -, -⟩
    · cases others with
      | nil => cases hstep
      | cons x others =>
        have hx := hothers x (.head others)
        have hrest := fun y hy => hothers y (.tail x hy)
        obtain ⟨hworld', ⟨new, hnew, hconfined⟩ |
          ⟨p, o, r', rs, body, rfl, ⟨i, hp, hnumber⟩, handler, hstack, hdelivery⟩ |
          ⟨_, _, _, _, -, -, hfalse, -⟩⟩ :=
            hstep.confined hworld hx (B.announces m.world hmade)
        · refine ⟨hworld', [], m.stack, rfl, fun y hy => ?_, Or.inl rfl⟩
          rw [hnew] at hy
          rcases List.mem_append.mp hy with hy | hy
          · exact hconfined y hy
          · exact hrest y hy
        · have hears : prog.Hears f inputs i j body :=
            ⟨p, r'.number, hp, hnumber, _, h₁, o, r', rs, others, rfl, rfl, handler⟩
          have hbelow : ∀ y ∈ Activity.delivery p o rs :: others,
              y.ConfinedTo B.foreign (prog.Awaited f inputs) := by
            intro y hy
            rcases List.mem_cons.mp hy with rfl | hy
            · exact hdelivery
            · exact hrest y hy
          obtain ⟨-, p', -, ⟨v, -, rfl⟩ | ⟨t, -, rfl⟩⟩ := h.of_hears hears
          · exact ⟨hworld', [_], _, hstack, hbelow, Or.inr ⟨i, v, j, rfl, rfl, hears⟩⟩
          · refine ⟨hworld', [], m.stack, rfl, fun y hy => ?_, Or.inl rfl⟩
            rw [hstack] at hy
            rcases List.mem_cons.mp hy with rfl | hy
            · exact Script.confinedTo_passFailure r (B.traces t)
            · exact hbelow y hy
        · exact hfalse.elim
    · -- the callback puts its value into its place, and does not use the buffer any more
      rw [Buffer.place] at hstep
      cases hstep with
      | @operate _ w' _ _ _ complete _ performed =>
        refine ⟨hworld.perform (B.leaves i v _ _ w) performed, [], _, rfl, ?_, Or.inl rfl⟩
        intro y hy
        rcases List.mem_cons.mp hy with rfl | hy
        · exact B.confinedTo_after complete
        · exact hothers y hy

/-- Whoever puts a value into the buffer is the callback of an input. -/
lemma of_puts (h : prog.Collects a f inputs B r start) (hj : f + inputs.length ≤ j)
    (hputs : prog.At j fun m => ∃ k rest, m.stack = .script (.op (B.put i v) k) :: rest) :
    ∃ i' v' l, j = l + 1 ∧ prog.Hears f inputs i' l (B.place r i' v') ∧
      B.put i' v' = B.put i v := by
  obtain ⟨⟨w, stack⟩, hm, k, rest, rfl⟩ := hputs
  obtain ⟨-, -, own, others, hsplit, hothers, rfl | ⟨i', v', l, rfl, hjl, hears⟩⟩ := h.stage hj hm
  · cases hsplit
    have hx := hothers _ (.head rest)
    cases hx with
    | op permitted => exact absurd permitted (B.not_permitted i v)
  · rw [Buffer.place] at hsplit
    injection hsplit with hactivity
    injection hactivity with hscript
    injection hscript with _ _ hput
    exact ⟨i', v', l, hjl, hears, hput.symm⟩

/-! ## What the buffer holds -/

/-- A place is filled once. -/
lemma not_placed (h : prog.Collects a f inputs B r start)
    (hears : prog.Hears f inputs i l (B.place r i v)) (v' : P.Value) :
    ¬ prog.Placed f inputs B r i v' (l + 1) := by
  rintro ⟨l', hl', hears'⟩
  have heq := h.listens.hears_unique hears hears'
  omega

lemma placed_succ (h : prog.Collects a f inputs B r start)
    (hears : prog.Hears f inputs i l (B.place r i v)) (i' : Nat) (v' : P.Value) :
    prog.Placed f inputs B r i' v' (l + 2) ↔
      prog.Placed f inputs B r i' v' (l + 1) ∨ i = i' ∧ v = v' := by
  constructor
  · rintro ⟨l', hl', hears'⟩
    rcases Nat.lt_or_eq_of_le (Nat.le_of_lt_succ (Nat.lt_of_succ_lt_succ hl')) with hlt | rfl
    · exact Or.inl ⟨l', Nat.succ_lt_succ hlt, hears'⟩
    · exact Or.inr (B.place_inj (h.lt_size_of_hears hears) (h.lt_size_of_hears hears')
        (hears.body_unique hears'))
  · rintro (⟨l', hl', hears'⟩ | ⟨rfl, rfl⟩)
    · exact ⟨l', Nat.lt_succ_of_lt hl', hears'⟩
    · exact ⟨l, Nat.lt_succ_self (l + 1), hears⟩

/-- As long as a place is empty, the buffer holds the values that have been put into it. -/
lemma holds (h : prog.Collects a f inputs B r start) (hj : f + inputs.length ≤ j)
    (hm : prog.moment j = some m)
    (hmissing : ∃ i < B.size, ∀ v, ¬ prog.Placed f inputs B r i v j) :
    B.Holds m.world fun i v => prog.Placed f inputs B r i v j := by
  induction j, hj using Nat.le_induction generalizing m with
  | base =>
    obtain ⟨m', hm', -, -, hholds, -⟩ := h.returned
    cases hm.symm.trans hm'
    convert hholds using 3 with i v
    refine iff_of_false ?_ id
    rintro ⟨l, hl, hears⟩
    have hle := (h.of_hears hears).1
    omega
  | succ j hj ih =>
    obtain ⟨m₁, h₁, hstep⟩ := moment_succ_eq_some_iff.mp hm
    obtain ⟨i₀, hi₀, hempty⟩ := hmissing
    have hholds := ih h₁
      ⟨i₀, hi₀, fun v ⟨l, hl, hears⟩ => hempty v ⟨l, Nat.lt_succ_of_lt hl, hears⟩⟩
    by_cases hputs : ∃ i v k rest, m₁.stack = .script (.op (B.put i v) k) :: rest
    · obtain ⟨i, v, k, rest, hstack⟩ := hputs
      obtain ⟨i', v', l, rfl, hears, hput⟩ := h.of_puts hj ⟨m₁, h₁, k, rest, hstack⟩
      obtain ⟨w, stack⟩ := m₁
      rw [← hput] at hstack
      cases hstack
      cases hstep with
      | operate performed =>
        rcases B.insert performed hholds (h.lt_size_of_hears hears) (h.not_placed hears)
          (h.placed_succ hears) with ⟨-, -, hholds'⟩ | ⟨y, -, hlength, hvalues⟩
        · exact hholds'
        · -- the missing place is empty still
          rw [← hlength] at hi₀
          exact absurd ((hvalues i₀ _).mp (List.getElem?_eq_getElem hi₀)) (hempty _)
    · have hno : ∀ i v k rest, m₁.stack ≠ .script (.op (B.put i v) k) :: rest :=
        fun i v k rest hstack => hputs ⟨i, v, k, rest, hstack⟩
      convert B.holds_of_step hstep hno hholds using 3 with i v
      refine ⟨?_, fun ⟨l, hl, hears⟩ => ⟨l, Nat.lt_succ_of_lt hl, hears⟩⟩
      rintro ⟨l, hl, hears⟩
      rcases Nat.lt_succ_iff_lt_or_eq.mp hl with hlt | rfl
      · exact ⟨l, hlt, hears⟩
      · obtain ⟨p, o, rs, below, hstack⟩ := hears.exists_stack h₁
        exact absurd hstack (hno i v _ _)

/-- The callback for a value goes on with all values if every place is filled now, and with nothing
otherwise. -/
lemma after_place (h : prog.Collects a f inputs B r start) {rest : List (Activity P)}
    (hears : prog.Hears f inputs i l (B.place r i v))
    (hbody : prog.At (l + 1) fun m => m.stack = .script (B.place r i v) :: rest)
    (hm : prog.moment (l + 2) = some m) :
    (∃ y, m.stack = .script (Script.passValue r (B.value y)) :: rest ∧
        (B.values y).length = inputs.length ∧
        ∀ i v, (B.values y)[i]? = some v ↔ prog.Placed f inputs B r i v (l + 2)) ∨
      (∃ i < inputs.length, ∀ v, ¬ prog.Placed f inputs B r i v (l + 2)) ∧
        m.stack = .script (.pure ()) :: rest := by
  have hi := h.lt_size_of_hears hears
  have hl := (h.of_hears hears).1
  obtain ⟨⟨w, stack⟩, h₁, rfl⟩ := hbody
  have hholds := h.holds (Nat.le_succ_of_le hl) h₁ ⟨i, hi, h.not_placed hears⟩
  have hstep := step_of_moment h₁ hm
  rw [Buffer.place] at hstep
  rw [← h.size_eq]
  cases hstep with
  | operate performed =>
    rcases B.insert performed hholds hi (h.not_placed hears) (h.placed_succ hears) with
      ⟨rfl, hmissing, -⟩ | ⟨y, rfl, hlength, hvalues⟩
    · exact Or.inr ⟨hmissing, rfl⟩
    · exact Or.inl ⟨y, rfl, hlength, hvalues⟩

end Collects

end Program

end Eventual
