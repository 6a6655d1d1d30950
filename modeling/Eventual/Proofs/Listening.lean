import Eventual.Proofs.Handover

/-!
# Calls that wait for several promises

Some calls register one observer on each of several promises, one after the other, and return
(`Program.Listens`).  Every such observer is told once (`Program.Hears`), at the instant at which
its promise is settled or at the one of the call, if this is later; they are told in the order in
which the promises are settled (`Program.Sooner`); and at a quiet moment all have been told whose
promises are settled.
-/

namespace Eventual

variable {P : Payload}

namespace World

variable {w : World P}

@[simp] lemma view_observe (w : World P) (p : PromiseId) (ob : Observer P) (q : PromiseId) :
    (w.observe p ob).view q = w.view q := by
  have put : ∀ {a b : Promise P}, w.promises[p.index]? = some a → b.view = a.view →
      (w.putPromise p b).view q = w.view q := by
    intro a b ha hb
    simp only [view, putPromise, getElem?_putPromise b ha]
    by_cases hq : q.index = p.index
    · rw [if_pos hq, hq, ha]
      exact hb
    · rw [if_neg hq]
  unfold observe
  split
  · rfl
  · rename_i h
    exact put h rfl
  · rename_i h
    rw [view, promises_deliver]
    exact put h rfl

@[simp] lemma size_promises_observe (w : World P) (p : PromiseId) (ob : Observer P) :
    (w.observe p ob).promises.size = w.promises.size := by
  unfold observe
  split <;> simp [putPromise]

@[simp] lemma clock_observe (w : World P) (p : PromiseId) (ob : Observer P) :
    (w.observe p ob).clock = w.clock := by
  unfold observe
  split <;> simp [putPromise]

end World

namespace Script

/-- Registers one observer on each of several promises, whose places are counted from `i`. -/
def observeEach (ob : Nat → Observer P) (i : Nat) : List PromiseId → Script P Unit
  | [] => pure ()
  | p :: ps => do
    observe p (ob i)
    observeEach ob (i + 1) ps

end Script

namespace Program

/-- At moment `c`, at the instant `T`, a promise is settled. -/
def SettledAt (prog : Program P) (c : Nat) (p : PromiseId) (s : Settlement P.Value P.Error)
    (T : Duration) : Prop :=
  prog.At c fun m => m.Settles p s ∧ m.world.clock = T

/-- The order of the inputs of a call at moment `a`: the input at place `i₁` that is settled at
moment `c₁`, comes before the one at place `i₂` that is settled at moment `c₂`. Those that were
settled before the call come in the order of their places, the others as they are settled. -/
def Sooner (a c₁ i₁ c₂ i₂ : Nat) : Prop :=
  (c₁ < a ∧ c₂ < a ∧ i₁ < i₂) ∨ (a ≤ c₂ ∧ c₁ < c₂)

/-- A call at moment `a` and the instant `start` registers the observer `ob i` on the `i`-th input,
the first one at moment `f`, and does nothing else that matters. -/
structure Listens (prog : Program P) (a f : Nat) (inputs : List PromiseId) (ob : Nat → Observer P)
    (start : Duration) : Prop where
  le : a ≤ f
  /-- The call registers an observer on each input. -/
  observes : ∀ i p, inputs[i]? = some p → prog.At (f + i) fun m => m.Observes p (ob i)
  /-- The observers wait for whatever happens. -/
  awaits : ∀ i o, (ob i).awaits o = true
  /-- It registers no other observers. -/
  registers : ∀ j, a ≤ j → j < f + inputs.length → ∀ p ob,
    prog.At j (fun m => m.Observes p ob) → ∃ i, j = f + i ∧ inputs[i]? = some p
  /-- The call settles nothing. -/
  still : ∀ j, a ≤ j → j < f + inputs.length → ∀ p, ¬ prog.At j fun m => m.Attempts p
  /-- The call takes no time. -/
  instant : ∀ j, a ≤ j → j ≤ f + inputs.length → prog.At j fun m => m.world.clock = start

/-- The observer of the `i`-th input, the first of which was registered at moment `f`, is called at
moment `l`. -/
def Hears (prog : Program P) (f : Nat) (inputs : List PromiseId) (i l : Nat)
    (body : Script P Unit) : Prop :=
  ∃ p n, inputs[i]? = some p ∧ prog.At (f + i) (fun m => m.world.observed p = n) ∧
    prog.At l fun m => m.Calls p n body

variable {prog : Program P} {a f : Nat} {inputs : List PromiseId} {ob : Nat → Observer P}
  {start : Duration} {i j l c : Nat} {body : Script P Unit} {m : Machine P}
  {s : Settlement P.Value P.Error} {r : PromiseId} {below : List (Activity P)}

/-! ## The call -/

section Registering

variable {k : Unit → Script P Unit} {rest : List (Activity P)} {w : World P}

lemma registering_each
    (hf : prog.moment f = some ⟨w, .script ((Script.observeEach ob 0 inputs).bind k) :: rest⟩)
    (hi : i ≤ inputs.length) :
    ∃ w', prog.moment (f + i) =
        some ⟨w', .script ((Script.observeEach ob i (inputs.drop i)).bind k) :: rest⟩ ∧
      w'.clock = w.clock ∧ w'.promises.size = w.promises.size ∧ ∀ p, w'.view p = w.view p := by
  induction i with
  | zero => exact ⟨w, hf, rfl, rfl, fun _ => rfl⟩
  | succ i ih =>
    obtain ⟨w', h', clock, size, view⟩ := ih (Nat.le_of_succ_le hi)
    rw [List.drop_eq_getElem_cons hi] at h'
    have performed : w'.perform (.observe inputs[i] (ob i)) =
      .answer () (w'.observe inputs[i] (ob i)) := rfl
    exact ⟨_, moment_of_operate h' performed, (World.clock_observe ..).trans clock,
      (World.size_promises_observe ..).trans size,
      fun p => (World.view_observe ..).trans (view p)⟩

/-- After a prelude, in which nothing is registered or settled, one observer is registered on each
input. -/
theorem listens_of_observeEach (hle : a ≤ f) (awaits : ∀ i o, (ob i).awaits o = true)
    (hf : prog.moment f = some ⟨w, .script ((Script.observeEach ob 0 inputs).bind k) :: rest⟩)
    (exist : ∀ p ∈ inputs, p.index < w.promises.size)
    (prelude : ∀ j, a ≤ j → j < f → prog.At j fun m => m.world.clock = w.clock ∧
      (∀ p ob, ¬ m.Observes p ob) ∧ ∀ p, ¬ m.Attempts p) :
    prog.At (f + inputs.length) (fun m => m.stack = .script (k ()) :: rest ∧
        m.world.promises.size = w.promises.size ∧ ∀ p, m.world.view p = w.view p) ∧
      prog.Listens a f inputs ob w.clock := by
  -- a moment of the call belongs to the prelude or to a registration
  have hmoments : ∀ j, a ≤ j → j < f + inputs.length →
      j < f ∨ ∃ i, j = f + i ∧ ∃ p, inputs[i]? = some p ∧
        prog.At j fun m => m.world.clock = w.clock ∧ m.Observes p (ob i) := by
    intro j haj hj
    by_cases hjf : j < f
    · exact Or.inl hjf
    · obtain ⟨i, rfl⟩ := Nat.exists_eq_add_of_le (Nat.not_lt.mp hjf)
      have hi : i < inputs.length := by omega
      obtain ⟨w', h', clock, size, -⟩ := registering_each hf (Nat.le_of_lt hi)
      rw [List.drop_eq_getElem_cons hi] at h'
      have hexists : inputs[i].index < w'.promises.size :=
        size ▸ exist inputs[i] (List.getElem_mem hi)
      exact Or.inr ⟨i, rfl, inputs[i], List.getElem?_eq_getElem hi, _, h', clock, hexists, _, _,
        rfl⟩
  obtain ⟨w', h', clock, size, view⟩ := registering_each hf (Nat.le_refl inputs.length)
  rw [List.drop_length] at h'
  refine ⟨⟨_, h', rfl, size, view⟩, hle, ?_, awaits, ?_, ?_, ?_⟩
  · intro i p hp
    obtain ⟨hi, -⟩ := List.getElem?_eq_some_iff.mp hp
    rcases hmoments (f + i) (by omega) (by omega) with hlt | ⟨i', heq, p', hp', m, hm, -, hob⟩
    · omega
    · obtain rfl : i = i' := by omega
      cases hp.symm.trans hp'
      exact ⟨m, hm, hob⟩
  · rintro j haj hj p ob' ⟨m, hm, hob'⟩
    rcases hmoments j haj hj with hlt | ⟨i, rfl, q, hq, m', hm', -, -, k', rest', hstack⟩
    · obtain ⟨m', hm', -, hno, -⟩ := prelude j haj hlt
      cases hm.symm.trans hm'
      exact absurd hob' (hno p ob')
    · cases hm.symm.trans hm'
      obtain ⟨-, k'', rest'', hstack'⟩ := hob'
      cases hstack.symm.trans hstack'
      exact ⟨i, rfl, hq⟩
  · rintro j haj hj p ⟨⟨w₁, stack⟩, hm, hattempts⟩
    rcases hmoments j haj hj with hlt | ⟨i, rfl, q, -, m', hm', -, -, k', rest', hstack⟩
    · obtain ⟨m', hm', -, -, hno⟩ := prelude j haj hlt
      cases hm.symm.trans hm'
      exact hno p hattempts
    · cases hm.symm.trans hm'
      cases hstack
      cases hattempts.isSettle
  · intro j haj hj
    rcases Nat.lt_or_eq_of_le hj with hlt | rfl
    · rcases hmoments j haj hlt with hlt | ⟨i, rfl, q, -, m', hm', hclock, -⟩
      · obtain ⟨m', hm', hclock, -⟩ := prelude j haj hlt
        exact ⟨m', hm', hclock⟩
      · exact ⟨m', hm', hclock⟩
    · exact ⟨_, h', clock⟩

end Registering

/-! ## The order of the inputs -/

/-- A promise is settled at one moment, with one thing and at one instant. -/
lemma SettledAt.unique {p : PromiseId} {s' : Settlement P.Value P.Error} {T T' : Duration}
    {c' : Nat} (hc : prog.SettledAt c p s T) (hc' : prog.SettledAt c' p s' T') :
    c = c' ∧ s = s' ∧ T = T' := by
  obtain ⟨m, hm, hsettles, rfl⟩ := hc
  obtain ⟨m', hm', hsettles', rfl⟩ := hc'
  obtain rfl := settles_unique ⟨m, hm, hsettles⟩ ⟨m', hm', hsettles'⟩
  cases hm.symm.trans hm'
  obtain ⟨-, -, k, rest, hstack⟩ := hsettles
  obtain ⟨-, -, k', rest', hstack'⟩ := hsettles'
  cases hstack.symm.trans hstack'
  exact ⟨rfl, rfl, rfl⟩

/-- One step settles one promise. -/
lemma promise_unique {p p' : PromiseId} {s' : Settlement P.Value P.Error} {T T' : Duration}
    (hc : prog.SettledAt c p s T) (hc' : prog.SettledAt c p' s' T') : p = p' := by
  obtain ⟨m, hm, ⟨-, -, k, rest, hstack⟩, -⟩ := hc
  obtain ⟨m', hm', ⟨-, -, k', rest', hstack'⟩, -⟩ := hc'
  cases hm.symm.trans hm'
  cases hstack.symm.trans hstack'
  rfl

/-- The order of the inputs is total. -/
lemma sooner_total {p p' : PromiseId} {i' c' : Nat} {s' : Settlement P.Value P.Error}
    {T T' : Duration} (hp : inputs[i]? = some p) (hc : prog.SettledAt c p s T)
    (hp' : inputs[i']? = some p') (hc' : prog.SettledAt c' p' s' T') :
    p' = p ∨ Sooner a c i c' i' ∨ Sooner a c' i' c i := by
  rcases Nat.lt_trichotomy c c' with hlt | rfl | hlt
  · by_cases hac' : a ≤ c'
    · exact Or.inr (Or.inl (Or.inr ⟨hac', hlt⟩))
    · rcases Nat.lt_trichotomy i i' with hii' | rfl | hii'
      · exact Or.inr (Or.inl (Or.inl ⟨by omega, by omega, hii'⟩))
      · exact Or.inl (Option.some.inj (hp'.symm.trans hp))
      · exact Or.inr (Or.inr (Or.inl ⟨by omega, by omega, hii'⟩))
  · exact Or.inl (promise_unique hc' hc)
  · by_cases hac : a ≤ c
    · exact Or.inr (Or.inr (Or.inr ⟨hac, hlt⟩))
    · rcases Nat.lt_trichotomy i i' with hii' | rfl | hii'
      · exact Or.inr (Or.inl (Or.inl ⟨by omega, by omega, hii'⟩))
      · exact Or.inl (Option.some.inj (hp'.symm.trans hp))
      · exact Or.inr (Or.inr (Or.inl ⟨by omega, by omega, hii'⟩))

/-! ## Callbacks under way -/

/-- What is under way for a callback that was called. -/
lemma Within.exists_calls {p : PromiseId} {n : Nat} (hwithin : prog.Within j p n) :
    ∃ l body o rs below, l < j ∧ prog.At l (fun m => m.Calls p n body) ∧
      prog.At (l + 1) (fun m => m.stack = .script body :: .delivery p o rs :: below) ∧
      ∀ i, l < i → i ≤ j → prog.At i fun m => m.Above (.delivery p o rs :: below) := by
  obtain ⟨l, o, r, rs, below, hlj, ⟨⟨w, stack⟩, hm, rfl⟩, hnumber, habove⟩ := hwithin
  obtain ⟨m', hm', hafter⟩ := habove (l + 1) (Nat.lt_succ_self l) hlj
  cases step_of_moment hm hm' with
  | @call _ _ _ _ _ body _ handler =>
    exact ⟨l, body, o, rs, below, hlj, ⟨_, hm, o, r, rs, below, rfl, hnumber, handler⟩,
      ⟨_, hm', rfl⟩, habove⟩
  | leaveOut => exact absurd ⟨_, hm', hafter⟩ (not_above hm' rfl)

lemma pure_of_settle
    (hi : prog.At i fun m => m.stack = .script (.op (.settle r s) fun _ => .pure ()) :: below)
    (hm : prog.moment (i + 1) = some m) : m.stack = .script (.pure ()) :: below := by
  obtain ⟨⟨w, stack⟩, h₁, rfl⟩ := hi
  cases step_of_moment h₁ hm with
  | operate => rfl

/-- While a script that has nothing more to do is under way, no attempt is made by it. -/
lemma lt_of_attempts (hc : prog.At c fun m => m.Attempts r)
    (habove : ∀ i', l < i' → i' ≤ c → prog.At i' fun m => m.Above below) (hli : l ≤ i)
    (hi : prog.At i fun m => m.stack = .script (.pure ()) :: below) : c < i := by
  rcases Nat.lt_or_eq_of_le (le_of_above hi habove hli) with hlt | rfl
  · exact hlt
  · obtain ⟨m, hm, -, s, k, rest, hstack⟩ := hc
    obtain ⟨m', hm', hstack'⟩ := hi
    cases hm.symm.trans hm'
    cases hstack.symm.trans hstack'

/-- A script that makes one attempt makes it at once. -/
lemma eq_of_attempts {r' : PromiseId} (hc : prog.At c fun m => m.Attempts r) (hlc : l < c)
    (habove : ∀ i', l < i' → i' ≤ c → prog.At i' fun m => m.Above below)
    (hbody : prog.At (l + 1) fun m =>
      m.stack = .script (.op (.settle r' s) fun _ => .pure ()) :: below) : c = l + 1 := by
  have hle : c < l + 2 := by
    by_contra hlt
    obtain ⟨mc, hmc, -⟩ := id hc
    obtain ⟨m₂, h₂⟩ := exists_moment_of_le (i := l + 2) (by omega) hmc
    exact hlt (lt_of_attempts hc habove (by omega) ⟨m₂, h₂, pure_of_settle hbody h₂⟩)
  omega

/-- Once an attempt has been made on a promise, it is settled. -/
lemma settled_of_attempts (hl : prog.At l fun m => m.Attempts r) (hlj : l < j)
    (hm : prog.moment j = some m) : ∃ c s, c ≤ l ∧ prog.At c fun m => m.Settles r s := by
  obtain ⟨m₁, h₁, hattempts⟩ := hl
  obtain ⟨m₂, h₂⟩ := exists_moment_of_le hlj hm
  obtain ⟨s', hs'⟩ := (step_of_moment h₁ h₂).settled_of_attempts hattempts
  obtain ⟨c, hc, hat⟩ := exists_settles h₂ hs'
  exact ⟨c, s', Nat.le_of_lt_succ hc, hat⟩

lemma lt_size_of_le (hij : i ≤ j) (hi : prog.At i fun m => r.index < m.world.promises.size)
    (hm : prog.moment j = some m) : r.index < m.world.promises.size := by
  obtain ⟨m₀, h₀, hlt⟩ := hi
  refine carry (I := fun m => r.index < m.world.promises.size) ?_ hij h₀ hlt hm
  intro m₁ m₂ h₁ hstep
  obtain ⟨b, hb, -⟩ := hstep.grows (Array.getElem?_eq_getElem h₁)
  exact (Array.getElem?_eq_some_iff.mp hb).1

/-- An operation takes no time. -/
lemma clock_of_stack {ρ : Type} {o : Op P ρ} {k : ρ → Script P Unit} {m' : Machine P}
    (hm : prog.moment j = some m) (hstack : m.stack = .script (.op o k) :: below)
    (hm' : prog.moment (j + 1) = some m') : m'.world.clock = m.world.clock := by
  obtain ⟨w, stack⟩ := m
  cases hstack
  cases step_of_moment hm hm' with
  | operate performed => exact (World.effect_of_perform performed).1

/-- When an observer has been called its callback is under way. -/
lemma Hears.exists_stack (hears : prog.Hears f inputs i l body)
    (hm : prog.moment (l + 1) = some m) :
    ∃ p o rs below, m.stack = .script body :: .delivery p o rs :: below := by
  obtain ⟨p, n, -, -, ⟨w, stack⟩, h₀, o, r', rs, below, rfl, -, handler⟩ := hears
  cases (step_of_moment h₀ hm).unique (.call handler)
  exact ⟨p, o, rs, below, rfl⟩

/-- One callback is called at a time. -/
lemma Hears.body_unique {i' : Nat} {body' : Script P Unit} (hears : prog.Hears f inputs i l body)
    (hears' : prog.Hears f inputs i' l body') : body = body' := by
  obtain ⟨p, n, -, -, m, hm, o, r, rs, below, hstack, -, handler⟩ := hears
  obtain ⟨p', n', -, -, m', hm', o', r', rs', below', hstack', -, handler'⟩ := hears'
  cases hm.symm.trans hm'
  cases hstack.symm.trans hstack'
  exact Option.some.inj (handler.symm.trans handler')

/-- At a quiet moment a callback that was called has done its next step. -/
lemma Hears.lt_of_quiet (hears : prog.Hears f inputs i l body) (hm : prog.moment j = some m)
    (hquiet : m.Quiet) (hlj : l < j) : l + 1 < j := by
  rcases Nat.lt_or_eq_of_le (Nat.succ_le_of_lt hlj) with hlt | rfl
  · exact hlt
  · obtain ⟨p, o, rs, below, hstack⟩ := hears.exists_stack hm
    exact absurd (hstack ▸ .tail _ (.head below)) (hquiet.noDelivery p o rs)

namespace Listens

/-- The callbacks run after the call, with what the inputs ended with. -/
lemma of_hears (h : prog.Listens a f inputs ob start) (hears : prog.Hears f inputs i l body) :
    f + inputs.length ≤ l ∧ ∃ p m o, inputs[i]? = some p ∧ prog.moment l = some m ∧
      (m.world.view p).outcome? = some o ∧ (ob i).handler? o = some body := by
  obtain ⟨p, n, hp, ⟨m₀, h₀, rfl⟩, m, hm, hcalls⟩ := hears
  obtain ⟨m₁, h₁, hob⟩ := h.observes i p hp
  cases h₀.symm.trans h₁
  obtain ⟨hlt, hgiven⟩ := (toldOnce h₀ hob).given l m body hm hcalls
  constructor
  · -- while the call lasts, a script is under way
    by_contra hlate
    obtain ⟨i', rfl⟩ : ∃ i', l = f + i' := ⟨l - f, by omega⟩
    have hi' : i' < inputs.length := by omega
    obtain ⟨m', hm', -, k, rest, hstack⟩ := h.observes i' _ (List.getElem?_eq_getElem hi')
    cases hm.symm.trans hm'
    obtain ⟨o, r', rs, below, hstack', -, -⟩ := hcalls
    cases hstack.symm.trans hstack'
  · rcases hgiven with ⟨v, hv, hhandler⟩ | ⟨t, -, ht, hhandler⟩
    · exact ⟨p, m, _, hp, hm, View.outcome?_eq_succeeded_iff.mpr hv, hhandler⟩
    · exact ⟨p, m, _, hp, hm, View.outcome?_eq_failed_iff.mpr ht, hhandler⟩

lemma hears_unique (h : prog.Listens a f inputs ob start) {l' : Nat} {body' : Script P Unit}
    (hears : prog.Hears f inputs i l body) (hears' : prog.Hears f inputs i l' body') : l = l' := by
  obtain ⟨p, n, hp, ⟨m₀, h₀, rfl⟩, m, hm, hcalls⟩ := hears
  obtain ⟨p', n', hp', ⟨m₁, h₁, rfl⟩, m', hm', hcalls'⟩ := hears'
  cases hp.symm.trans hp'
  cases h₀.symm.trans h₁
  obtain ⟨m₁, h₁, hob⟩ := h.observes i p hp
  cases h₀.symm.trans h₁
  exact (toldOnce h₀ hob).once l l' ⟨m, hm, body, hcalls⟩ ⟨m', hm', body', hcalls'⟩

/-- What is done by the call or by its observers, and is an attempt to settle a promise, is done by
an observer. -/
lemma of_attempts (h : prog.Listens a f inputs ob start)
    (owned : prog.DoneBy a (f + inputs.length) c) (hc : prog.At c fun m => m.Attempts r) :
    ∃ i l body p o rs below, prog.Hears f inputs i l body ∧ l < c ∧
      prog.At (l + 1) (fun m => m.stack = .script body :: .delivery p o rs :: below) ∧
      ∀ i', l < i' → i' ≤ c → prog.At i' fun m => m.Above (.delivery p o rs :: below) := by
  rcases owned with ⟨hac, hcb⟩ | ⟨d, p, n, had, hdb, ⟨m₀, h₀, ⟨ob', hob⟩, rfl⟩, hwithin⟩
  · exact absurd hc (h.still c hac hcb r)
  · obtain ⟨i, rfl, hp⟩ := h.registers d had hdb p ob' ⟨m₀, h₀, hob⟩
    obtain ⟨l, body, o, rs, below, hlc, hcalls, hbody, habove⟩ := hwithin.exists_calls
    exact ⟨i, l, body, p, o, rs, below, ⟨p, _, hp, ⟨m₀, h₀, rfl⟩, hcalls⟩, hlc, hbody, habove⟩

/-! ## Instants and order -/

/-- An observer is sent what its input ended with when the later of two things happens: its
registration and the settlement. -/
lemma exists_sends (h : prog.Listens a f inputs ob start) {p : PromiseId} {T : Duration}
    (hp : inputs[i]? = some p) (hc : prog.SettledAt c p s T) :
    ∃ n, prog.At (f + i) (fun m => m.world.observed p = n) ∧
      prog.At (max (f + i) c) fun m => m.Sends p n ∧ m.world.clock = start.later T := by
  obtain ⟨m₀, h₀, hob⟩ := h.observes i p hp
  obtain ⟨mc, hmc, hsettles, rfl⟩ := hc
  obtain ⟨m₁, h₁, hsends⟩ := sends_of_observes h₀ hob hmc hsettles (h.awaits i _)
  refine ⟨_, ⟨m₀, h₀, rfl⟩, m₁, h₁, hsends, ?_⟩
  have hi : i < inputs.length := (List.getElem?_eq_some_iff.mp hp).1
  have haf := h.le
  obtain ⟨m₂, h₂, hstart⟩ := h.instant (f + i) (by omega) (by omega)
  rcases Nat.le_total (f + i) c with hle | hle
  · rw [Nat.max_eq_right hle] at h₁
    cases hmc.symm.trans h₁
    have hclock : start ≤ mc.world.clock := hstart ▸ clock_le hle h₂ hmc
    rw [Duration.later_eq_right hclock]
  · rw [Nat.max_eq_left hle] at h₁
    cases h₂.symm.trans h₁
    have hclock : mc.world.clock ≤ start := hstart ▸ clock_le hle hmc h₂
    rw [Duration.later_eq_left hclock, hstart]

/-- A callback runs at the instant of the settlement of its input, or of the call if this is
later. -/
lemma clock_of_hears (h : prog.Listens a f inputs ob start) (passive : prog.Passive) {p : PromiseId}
    {T : Duration} (hp : inputs[i]? = some p) (hc : prog.SettledAt c p s T)
    (hears : prog.Hears f inputs i l body) : prog.At l fun m => m.world.clock = start.later T := by
  obtain ⟨n, ⟨m₀, h₀, hn⟩, m₁, h₁, hsends, hclock⟩ := h.exists_sends hp hc
  obtain ⟨p', n', hp', ⟨m₀', h₀', hn'⟩, m₂, h₂, hcalls⟩ := hears
  cases hp.symm.trans hp'
  cases h₀.symm.trans h₀'
  obtain rfl : n = n' := hn.symm.trans hn'
  exact ⟨m₂, h₂, (passive.clock_of_calls h₁ hsends h₂ hcalls).2.trans hclock⟩

/-- No time passes when a callback is called. -/
lemma clock_of_called (h : prog.Listens a f inputs ob start) (passive : prog.Passive)
    {p : PromiseId} {T : Duration} (hp : inputs[i]? = some p) (hc : prog.SettledAt c p s T)
    (hears : prog.Hears f inputs i l body) (hm : prog.moment (l + 1) = some m) :
    m.world.clock = start.later T := by
  obtain ⟨ml, hml, hclock⟩ := h.clock_of_hears passive hp hc hears
  obtain ⟨q, n, -, -, ml', hml', hcalls⟩ := hears
  cases hml.symm.trans hml'
  exact (clock_of_calls hml hcalls hm).trans hclock

/-- An input is settled before the call, or when this is over. -/
lemma not_during (h : prog.Listens a f inputs ob start) {p : PromiseId} {T : Duration}
    (hc : prog.SettledAt c p s T) (hac : a ≤ c) : f + inputs.length ≤ c := by
  by_contra hlt
  obtain ⟨mc, hmc, hsettles, -⟩ := hc
  exact h.still c hac (Nat.not_le.mp hlt) p ⟨mc, hmc, hsettles.attempts⟩

/-- The observers are sent what happened in the order of the inputs. -/
lemma max_lt_max (h : prog.Listens a f inputs ob start) {p p' : PromiseId} {T' : Duration}
    {i' c' : Nat} {s' : Settlement P.Value P.Error} (hp : inputs[i]? = some p)
    (hc' : prog.SettledAt c' p' s' T') (hsooner : Sooner a c i c' i') :
    max (f + i) c < max (f + i') c' := by
  have haf := h.le
  have hi := (List.getElem?_eq_some_iff.mp hp).1
  rcases hsooner with ⟨hca, hca', hii'⟩ | ⟨hac', hcc'⟩
  · omega
  · have hafter := h.not_during hc' hac'
    omega

/-- **The callbacks run in the order of the inputs.** -/
theorem hears_in_order (h : prog.Listens a f inputs ob start) (passive : prog.Passive)
    {p p' : PromiseId} {T T' : Duration} {i' c' l' : Nat} {s' : Settlement P.Value P.Error}
    {body' : Script P Unit} (hp : inputs[i]? = some p) (hc : prog.SettledAt c p s T)
    (hp' : inputs[i']? = some p') (hc' : prog.SettledAt c' p' s' T')
    (hears : prog.Hears f inputs i l body) (hears' : prog.Hears f inputs i' l' body')
    (hsooner : Sooner a c i c' i') : l < l' := by
  obtain ⟨n, ⟨m₀, h₀, hn⟩, m₁, h₁, hsends, -⟩ := h.exists_sends hp hc
  obtain ⟨n', ⟨m₀', h₀', hn'⟩, m₁', h₁', hsends', -⟩ := h.exists_sends hp' hc'
  obtain ⟨q, k, hq, ⟨m₂, h₂, hk⟩, m₃, h₃, hcalls⟩ := hears
  obtain ⟨q', k', hq', ⟨m₂', h₂', hk'⟩, m₃', h₃', hcalls'⟩ := hears'
  cases hp.symm.trans hq
  cases hp'.symm.trans hq'
  cases h₀.symm.trans h₂
  cases h₀'.symm.trans h₂'
  obtain rfl : n = k := hn.symm.trans hk
  obtain rfl : n' = k' := hn'.symm.trans hk'
  exact passive.calls_in_order (h.max_lt_max hp hc' hsooner) ⟨m₁, h₁, hsends⟩
    ⟨m₁', h₁', hsends'⟩ ⟨m₃, h₃, body, hcalls⟩ ⟨m₃', h₃', body', hcalls'⟩

/-- The callback of an input that comes before another one runs before the callback of this. -/
lemma hears_before (h : prog.Listens a f inputs ob start) (passive : prog.Passive)
    {p p' : PromiseId} {T T' : Duration} {i' c' l' : Nat} {s' : Settlement P.Value P.Error}
    {body' : Script P Unit} (hp : inputs[i]? = some p) (hc : prog.SettledAt c p s T)
    (hp' : inputs[i']? = some p') (hc' : prog.SettledAt c' p' s' T')
    (hears' : prog.Hears f inputs i' l' body') (hsooner : Sooner a c i c' i') :
    ∃ l body, l < l' ∧ prog.Hears f inputs i l body := by
  obtain ⟨n, ⟨m₀, h₀, rfl⟩, m₁, h₁, hsends, -⟩ := h.exists_sends hp hc
  obtain ⟨n', ⟨m₀', h₀', rfl⟩, m₁', h₁', hsends', -⟩ := h.exists_sends hp' hc'
  obtain ⟨q', k', hq', ⟨m₂, h₂, rfl⟩, m₃, h₃, hcalls'⟩ := hears'
  cases hp'.symm.trans hq'
  cases h₀'.symm.trans h₂
  obtain ⟨m₄, h₄, hob⟩ := h.observes i p hp
  cases h₀.symm.trans h₄
  obtain ⟨l, hll', m₅, h₅, body, hcalls⟩ :=
    passive.called_before h₀ hob (h.awaits i) h₁ hsends (Nat.le_max_left ..)
      (h.max_lt_max hp hc' hsooner) ⟨m₁', h₁', hsends'⟩ ⟨m₃, h₃, body', hcalls'⟩
  exact ⟨l, body, hll', p, _, hp, ⟨m₀, h₀, rfl⟩, m₅, h₅, hcalls⟩

/-- When the instant at which an observer is told is past, it has been told. -/
lemma hears_of_lt (h : prog.Listens a f inputs ob start) (passive : prog.Passive)
    (hj : f + inputs.length ≤ j) (hm : prog.moment j = some m) {p : PromiseId} {T : Duration}
    (hp : inputs[i]? = some p) (hc : prog.SettledAt c p s T) (hcj : c < j)
    (hlate : start.later T < m.world.clock) : ∃ l body, l < j ∧ prog.Hears f inputs i l body := by
  obtain ⟨n, ⟨m₀, h₀, rfl⟩, m₁, h₁, hsends, hclock⟩ := h.exists_sends hp hc
  obtain ⟨m₂, h₂, hob⟩ := h.observes i p hp
  cases h₀.symm.trans h₂
  have hi : i < inputs.length := (List.getElem?_eq_some_iff.mp hp).1
  obtain ⟨mc, hmc, hsettles, -⟩ := hc
  have ho := View.outcome?_of_settlement? (settled_of_settles hcj hmc hsettles hm)
  obtain ⟨l, hlj, m₃, h₃, body, hcalls⟩ := passive.called_of_lt h₀ hob (by omega) h₁ hsends
    (Nat.max_lt.mpr ⟨by omega, hcj⟩) hm (hclock ▸ hlate) ho (h.awaits i _)
  exact ⟨l, body, hlj, p, _, hp, ⟨m₀, h₀, rfl⟩, m₃, h₃, hcalls⟩

/-- At a quiet moment every observer of a settled input has been told. -/
lemma hears_of_quiet (h : prog.Listens a f inputs ob start) (hj : f + inputs.length ≤ j)
    (hm : prog.moment j = some m) (hquiet : m.Quiet) {p : PromiseId}
    {o : Outcome P.Value P.Error} (hp : inputs[i]? = some p)
    (ho : (m.world.view p).outcome? = some o) :
    ∃ l body, l < j ∧ prog.Hears f inputs i l body := by
  obtain ⟨m₀, h₀, hob⟩ := h.observes i p hp
  have hi : i < inputs.length := (List.getElem?_eq_some_iff.mp hp).1
  obtain ⟨l, -, hlj, m₁, h₁, body, hcalls⟩ :=
    called_of_quiet h₀ hob (by omega) hm hquiet ho (h.awaits i o)
  exact ⟨l, body, hlj, p, _, hp, ⟨m₀, h₀, rfl⟩, m₁, h₁, hcalls⟩

/-! ## Observers that make one attempt each -/

section Shots

variable {σ : Outcome P.Value P.Error → Settlement P.Value P.Error}

/-- Whatever is attempted through the observers is to settle their promise with what they make of
what an input ended with. -/
lemma of_shot (h : prog.Listens a f inputs ob start)
    (shots : ∀ i o, (ob i).handler? o = some (.op (.settle r (σ o)) fun _ => .pure ()))
    (owned : prog.DoneBy a (f + inputs.length) c) (hm : prog.moment c = some m) {q : PromiseId}
    (hattempts : m.Attempts q) :
    ∃ i l p o body, inputs[i]? = some p ∧ prog.Hears f inputs i l body ∧ c = l + 1 ∧ q = r ∧
      (∀ s, m.Settles q s → s = σ o) ∧ prog.At l fun m => (m.world.view p).outcome? = some o := by
  have hat : prog.At c fun m => m.Attempts q := ⟨m, hm, hattempts⟩
  obtain ⟨i, l, body, q', o', rs, below, hears, hlc, hbody, habove⟩ := h.of_attempts owned hat
  obtain ⟨-, p, ml, o, hp, hml, ho, hhandler⟩ := h.of_hears hears
  rw [shots] at hhandler
  cases hhandler
  obtain rfl : c = l + 1 := eq_of_attempts hat hlc habove hbody
  obtain ⟨m₁, h₁, hstack⟩ := hbody
  cases hm.symm.trans h₁
  obtain ⟨-, s', k, rest, hstack'⟩ := hattempts
  cases hstack.symm.trans hstack'
  refine ⟨i, l, p, o, _, hp, hears, rfl, rfl, ?_, ml, hml, ho⟩
  rintro s ⟨-, -, k', rest', hsettle⟩
  cases hstack.symm.trans hsettle
  rfl

/-- The callback of an input leaves the promise settled. -/
lemma settled_of_shot (h : prog.Listens a f inputs ob start)
    (shots : ∀ i o, (ob i).handler? o = some (.op (.settle r (σ o)) fun _ => .pure ()))
    (exists_r : prog.At (f + inputs.length) fun m => r.index < m.world.promises.size)
    (hears : prog.Hears f inputs i l body) (hlj : l + 1 < j) (hm : prog.moment j = some m) :
    ∃ c s, c ≤ l + 1 ∧ prog.At c fun m => m.Settles r s := by
  obtain ⟨hl, p, -, o, -, -, -, hhandler⟩ := h.of_hears hears
  rw [shots] at hhandler
  cases hhandler
  obtain ⟨m₁, h₁⟩ := exists_moment_of_le (Nat.le_of_lt hlj) hm
  obtain ⟨q, o', rs, below, hstack⟩ := hears.exists_stack h₁
  have hlt := lt_size_of_le (Nat.le_succ_of_le hl) exists_r h₁
  exact settled_of_attempts ⟨m₁, h₁, hlt, _, _, _, hstack⟩ hlj hm

/-- At a quiet moment every settled input has told its observer, and so has settled the promise. -/
lemma settled_of_quiet (h : prog.Listens a f inputs ob start)
    (shots : ∀ i o, (ob i).handler? o = some (.op (.settle r (σ o)) fun _ => .pure ()))
    (exists_r : prog.At (f + inputs.length) fun m => r.index < m.world.promises.size)
    (hj : f + inputs.length ≤ j) (hm : prog.moment j = some m) (hquiet : m.Quiet) {p : PromiseId}
    {o : Outcome P.Value P.Error} (hp : inputs[i]? = some p)
    (ho : (m.world.view p).outcome? = some o) :
    ∃ l body c s, prog.Hears f inputs i l body ∧ c ≤ l + 1 ∧ c < j ∧
      prog.At c fun m => m.Settles r s := by
  obtain ⟨l, body, hlj, hears⟩ := h.hears_of_quiet hj hm hquiet hp ho
  have hlj₁ := hears.lt_of_quiet hm hquiet hlj
  obtain ⟨c, s, hc, hat⟩ := h.settled_of_shot shots exists_r hears hlj₁ hm
  exact ⟨l, body, c, s, hears, hc, Nat.lt_of_le_of_lt hc hlj₁, hat⟩

end Shots

end Listens

end Program

end Eventual
