import Eventual.Proofs.Pipeline

/-!
# Whose promises a pipeline settles

Whatever is attempted on behalf of a pipeline is to settle a promise that was made on its behalf
(`Pipeline.tidy`).  Since nothing is done on behalf of two calls that a script makes one after the
other, the promises of a call that nobody else settles fall into those of its parts, and nobody else
settles these (`Program.Private`).
-/

namespace Eventual

variable {P : Payload}

namespace Program

/-- Whatever is attempted on behalf of a call before moment `j` is to settle a promise that was made
on its behalf. -/
def Tidy (prog : Program P) (a b j : Nat) : Prop :=
  ∀ c z, c < j → prog.OnBehalf (Set.Ico a b) c → prog.At c (fun m => m.Attempts z) →
    ∃ i, prog.OnBehalf (Set.Ico a b) i ∧ prog.At i fun m => m.Creates z

/-- Nobody else attempts before moment `j` to settle a promise that was made on behalf of a call. -/
def Private (prog : Program P) (a b j : Nat) : Prop :=
  ∀ i c z, c < j → prog.OnBehalf (Set.Ico a b) i → prog.At i (fun m => m.Creates z) →
    prog.At c (fun m => m.Attempts z) → prog.OnBehalf (Set.Ico a b) c

/-- The moments after `l` up to which something is under way above a stack. -/
def Under (prog : Program P) (l : Nat) (below : List (Activity P)) : Set Nat :=
  {j | l < j ∧ ∀ i, l < i → i ≤ j → prog.At i fun m => m.Above below}

/-- A callback that was called at moment `l` carries out a pipeline, and then waits for what becomes
of its promise, to pass it on to `r`. -/
structure PassesOn (prog : Program P) (l : Nat) (π : Pipeline P) (r : PromiseId) (w : World P)
    (below : List (Activity P)) : Prop where
  called : prog.moment (l + 1) =
    some ⟨w, .script (π.script.bind fun y => Script.forward y r) :: below⟩
  known : π.Known w.promises.size
  delivery : ∃ q o rs rest, below = .delivery q o rs :: rest

variable {prog : Program P} {A B : Set Nat} {a b c i j l f : Nat} {m : Machine P} {w : World P}
  {x r z : PromiseId} {inputs : List PromiseId} {ob : Observer P} {obs : Nat → Observer P}
  {start : Duration} {below rest : List (Activity P)} {body : Script P Unit} {π : Pipeline P}
  {s : Settlement P.Value P.Error}

namespace OnBehalf

lemma mono (h : prog.OnBehalf A c) (hAB : A ⊆ B) : prog.OnBehalf B c :=
  h.trans fun _ hi => .root (hAB hi)

lemma nonempty (h : prog.OnBehalf A c) : A.Nonempty := by
  induction h with
  | root hj => exact ⟨_, hj⟩
  | callback _ _ _ ih => exact ih
  | task _ _ _ ih => exact ih

/-- Nothing is done on behalf of a script that has nothing more to do. -/
lemma of_over (h : prog.OnBehalf A c)
    (hA : ∀ i ∈ A, i ∈ B ∨ prog.At i fun m => m.stack = .script (.pure ()) :: below) :
    prog.OnBehalf B c ∨ prog.At c fun m => m.stack = .script (.pure ()) :: below := by
  induction h with
  | root hj => exact (hA _ hj).imp_left .root
  | callback _ registers within ih =>
    rcases ih with h | ⟨m, hm, hstack⟩
    · exact Or.inl (.callback h registers within)
    · obtain ⟨m', hm', ⟨ob, -, k, rest, hstack'⟩, -⟩ := registers
      cases hm.symm.trans hm'
      cases hstack.symm.trans hstack'
  | task _ schedules busy ih =>
    rcases ih with h | ⟨m, hm, hstack⟩
    · exact Or.inl (.task h schedules busy)
    · obtain ⟨m', hm', delay, body, k, rest, hstack', -⟩ := schedules
      cases hm.symm.trans hm'
      cases hstack.symm.trans hstack'

/-- A script that makes one attempt does nothing else. -/
lemma of_under (h : prog.OnBehalf (prog.Under l below) c)
    (hbody : prog.At (l + 1) fun m =>
      m.stack = .script (.op (.settle r s) fun _ => .pure ()) :: below) : prog.Shoots l c r s := by
  have hshoots : ∀ {i}, i ∈ prog.Under l below → prog.Shoots l i r s :=
    fun hi => shoots_of_above hi.1 hbody hi.2
  exact hshoots (h.mem_of_idle (fun i hi p n => (hshoots hi).not_registers)
    fun i hi u => (hshoots hi).not_schedules)

end OnBehalf

/-! ## Parts of a call -/

lemma Running.scripts (h : prog.Running a b rest start) (hm : prog.moment j = some m)
    (hbj : b ≤ j) :
    ∀ i, a ≤ i → i < b → prog.At i fun m => ∃ s rest, m.stack = .script s :: rest := by
  intro i hai hib
  obtain ⟨mi, hmi⟩ := exists_moment_of_le (i := i) (by omega) hm
  obtain ⟨⟨s, hstack⟩, -⟩ := h i mi hai (Nat.le_of_lt hib) hmi
  exact ⟨mi, hmi, s, rest, hstack⟩

lemma Tidy.append (h : prog.Tidy a b j) (h' : prog.Tidy b c j) (hab : a ≤ b) (hbc : b ≤ c) :
    prog.Tidy a c j := by
  intro d z hdj hd hat
  rcases hd.split b with hd | hd
  · obtain ⟨i, hi, hcreates⟩ := h d z hdj hd hat
    exact ⟨i, hi.mono (Set.Ico_subset_Ico_right hbc), hcreates⟩
  · obtain ⟨i, hi, hcreates⟩ := h' d z hdj hd hat
    exact ⟨i, hi.mono (Set.Ico_subset_Ico_left hab), hcreates⟩

namespace Private

variable (h : prog.Private a c j) (passive : prog.Passive)
  (running : ∀ i, a ≤ i → i < c → prog.At i fun m => ∃ s rest, m.stack = .script s :: rest)

include h passive running

/-- Nobody else settles the promises of the first part of a call. -/
lemma first (tidy : prog.Tidy b c j) (hbc : b ≤ c) : prog.Private a b j := by
  intro i d z hdj hi hcreates hat
  rcases (h i d z hdj (hi.mono (Set.Ico_subset_Ico_right hbc)) hcreates hat).split b with hd | hd
  · exact hd
  · obtain ⟨i', hi', hcreates'⟩ := tidy d z hdj hd hat
    cases creates_unique hcreates hcreates'
    exact (hi.disjoint passive hi' (Nat.le_refl b) running).elim

/-- Nobody else settles the promises of the second part of a call. -/
lemma second (tidy : prog.Tidy a b j) (hab : a ≤ b) : prog.Private b c j := by
  intro i d z hdj hi hcreates hat
  rcases (h i d z hdj (hi.mono (Set.Ico_subset_Ico_left hab)) hcreates hat).split b with hd | hd
  · obtain ⟨i', hi', hcreates'⟩ := tidy d z hdj hd hat
    cases creates_unique hcreates hcreates'
    exact (hi'.disjoint passive hi (Nat.le_refl b) running).elim
  · exact hd

end Private

/-! ## Callbacks of a call -/

namespace Listens

/-- What is done on behalf of a call that hands over no task is done by it or on behalf of what is
under way for a callback of it. -/
lemma under_of_onBehalf (h : prog.Listens a f inputs obs start)
    (idle : ∀ j, a ≤ j → j < f → ∀ t, ¬ prog.At j fun m => m.Schedules t)
    (hc : prog.OnBehalf (Set.Ico a (f + inputs.length)) c) :
    c ∈ Set.Ico a (f + inputs.length) ∨ ∃ i l body q o rs below, prog.Hears f inputs i l body ∧
      prog.At (l + 1) (fun m => m.stack = .script body :: .delivery q o rs :: below) ∧
      prog.OnBehalf (prog.Under l (.delivery q o rs :: below)) c := by
  rcases h.of_onBehalf idle hc with hmem | ⟨i, p, n, hp, ⟨m₀, h₀, hob, rfl⟩, hbehalf⟩
  · exact Or.inl hmem
  · right
    obtain ⟨j, hwithin⟩ := hbehalf.nonempty
    obtain ⟨l, body, o, rs, below, -, hcalls, hbody, -⟩ := Within.exists_calls hwithin
    refine ⟨i, l, body, p, o, rs, below, ⟨p, _, hp, ⟨m₀, h₀, rfl⟩, hcalls⟩, hbody,
      hbehalf.mono fun i' hi' => ?_⟩
    -- the observer is called once
    obtain ⟨l', body', o', rs', below', hlt, hcalls', hbody', habove⟩ := Within.exists_calls hi'
    obtain rfl := (toldOnce h₀ hob).once l l' (hcalls.imp fun _ h => ⟨h.1, body, h.2⟩)
      (hcalls'.imp fun _ h => ⟨h.1, body', h.2⟩)
    obtain ⟨m₁, h₁, hstack⟩ := hbody
    obtain ⟨m₁', h₁', hstack'⟩ := hbody'
    cases h₁.symm.trans h₁'
    cases hstack.symm.trans hstack'
    exact ⟨hlt, habove⟩

/-- What is under way for a callback of a call is done on its behalf. -/
lemma onBehalf_of_under (h : prog.Listens a f inputs obs start)
    (hears : prog.Hears f inputs i l body) {q : PromiseId} {o : Outcome P.Value P.Error}
    {rs : List (Registration P)}
    (hbody : prog.At (l + 1) fun m => m.stack = .script body :: .delivery q o rs :: below)
    (hc : c ∈ prog.Under l (.delivery q o rs :: below)) :
    prog.OnBehalf (Set.Ico a (f + inputs.length)) c := by
  obtain ⟨p, n, hp, hn, ⟨w, stack⟩, hl, o', r', rs', below', rfl, hnumber, handler⟩ := hears
  obtain ⟨m₁, h₁, hstack⟩ := hbody
  cases (step_of_moment hl h₁).unique (.call handler)
  cases hstack
  have hi := (List.getElem?_eq_some_iff.mp hp).1
  have haf := h.le
  obtain ⟨m₀, h₀, hob⟩ := h.observes i q hp
  obtain ⟨m₀', h₀', hn⟩ := hn
  cases h₀.symm.trans h₀'
  exact .callback (.root ⟨by omega, by omega⟩) ⟨m₀, h₀, ⟨_, hob⟩, hn⟩
    ⟨l, _, _, _, _, hc.1, ⟨_, hl, rfl⟩, hnumber, hc.2⟩

end Listens

/-! ## Callbacks that carry out a pipeline -/

namespace PassesOn

/-- The callback is over after it has begun to wait for the promise. -/
lemma of_under (h : prog.PassesOn l π r w below) (hi : i ∈ prog.Under l below) :
    i ∈ Set.Ico (l + 1) (l + 1 + π.steps + 1) ∨
      prog.At i fun m => m.stack = .script (.pure ()) :: below := by
  rcases Nat.lt_or_ge i (l + 1 + π.steps + 1) with hlt | hle
  · exact Or.inl ⟨hi.1, hlt⟩
  · right
    obtain ⟨m, hm, -⟩ := hi.2 i hi.1 (Nat.le_refl i)
    obtain ⟨⟨w₁, stack⟩, h₁⟩ := exists_moment_of_le (Nat.le_of_succ_le hle) hm
    obtain ⟨hstack, -⟩ := (π.returns h.called h.known).2 _ h₁
    cases hstack
    have performed : w₁.perform (.observe (π.result w.promises.size) (Script.forwarder r)) =
      .answer () (w₁.observe (π.result w.promises.size) (Script.forwarder r)) := rfl
    have h₂ := moment_of_operate h₁ performed
    have hover := le_of_above ⟨_, h₂, rfl⟩ hi.2 (by omega)
    obtain rfl : i = l + 1 + π.steps + 1 := by omega
    exact ⟨_, h₂, rfl⟩

/-- When the pipeline has been carried out, the callback waits for its promise. -/
lemma listens (h : prog.PassesOn l π r w below) (hm : prog.moment (l + 1 + π.steps) = some m) :
    prog.At (l + 1 + π.steps + 1) (fun m => m.stack = .script (.pure ()) :: below) ∧
      prog.Listens (l + 1 + π.steps) (l + 1 + π.steps) [π.result w.promises.size]
        (fun _ => Script.forwarder r) w.clock := by
  obtain ⟨hrunning, hreturns⟩ := π.returns h.called h.known
  obtain ⟨w₁, stack⟩ := m
  obtain ⟨hstack, hsize, hlt⟩ := hreturns _ hm
  cases hstack
  have hclock := (hrunning _ _ (Nat.le_add_right _ _) (Nat.le_refl _) hm).2
  simp only at hsize hclock
  have hm' : prog.moment (l + 1 + π.steps) =
      some ⟨w₁, .script ((Script.observeEach (fun _ => Script.forwarder r) 0
        [π.result w.promises.size]).bind fun _ => .pure ()) :: below⟩ := hm
  obtain ⟨⟨m₂, h₂, hstack₂, -⟩, hlistens⟩ := listens_of_observeEach (Nat.le_refl _)
    (fun _ o => Script.awaits_forwarder r o) hm'
    (by simp only [List.mem_singleton, forall_eq]; omega) (fun j hj hlt => by omega)
  exact ⟨⟨m₂, h₂, hstack₂⟩, hclock ▸ hlistens⟩

/-- At a quiet moment the callback is over. -/
lemma lt_of_quiet (h : prog.PassesOn l π r w below) (hm : prog.moment j = some m)
    (hquiet : m.Quiet) (hlj : l < j) : l + 1 + π.steps + 1 < j := by
  obtain ⟨q, o, rs, rest, rfl⟩ := h.delivery
  have hnot : ∀ s, m.stack ≠ .script s :: .delivery q o rs :: rest := fun s hstack =>
    hquiet.noDelivery q o rs (hstack ▸ .tail _ (.head rest))
  have hrunning := (π.returns h.called h.known).1
  have hlt : l + 1 + π.steps < j := by
    by_contra hle
    obtain ⟨⟨s, hstack⟩, -⟩ := hrunning j m hlj (Nat.not_lt.mp hle) hm
    exact hnot s hstack
  rcases Nat.lt_or_eq_of_le (Nat.succ_le_of_lt hlt) with hlt' | rfl
  · exact hlt'
  · obtain ⟨m₁, h₁⟩ := exists_moment_of_le (Nat.le_succ _) hm
    obtain ⟨⟨m₂, h₂, hstack⟩, -⟩ := h.listens h₁
    cases hm.symm.trans h₂
    exact absurd hstack (hnot _)

/-- The pipeline is carried out by the callback. -/
lemma under_of_mem (h : prog.PassesOn l π r w below) (hm : prog.moment j = some m)
    (hj : l + 1 + π.steps ≤ j) (hi : i ∈ Set.Ico (l + 1) (l + 1 + π.steps)) :
    i ∈ prog.Under l below := by
  refine ⟨hi.1, fun i' hli' hi' => ?_⟩
  obtain ⟨m', hm'⟩ := exists_moment_of_le (i := i') (by have := hi.2; omega) hm
  obtain ⟨⟨s, hstack⟩, -⟩ :=
    (π.returns h.called h.known).1 i' m' hli' (by have := hi.2; omega) hm'
  exact ⟨m', hm', [.script s], by simp, hstack⟩

/-- Whatever is attempted for the callback is attempted on behalf of the pipeline, or of the call by
which it waits for the promise of this. -/
lemma of_attempts (h : prog.PassesOn l π r w below) (hc : prog.OnBehalf (prog.Under l below) c)
    (hat : prog.At c fun m => m.Attempts z) :
    prog.OnBehalf (Set.Ico (l + 1) (l + 1 + π.steps)) c ∨
      prog.OnBehalf (Set.Ico (l + 1 + π.steps) (l + 1 + π.steps + 1)) c := by
  rcases hc.of_over fun i hi => h.of_under hi with hc | ⟨m, hm, hstack⟩
  · exact hc.split _
  · obtain ⟨m', hm', -, s, k, rest, hstack'⟩ := hat
    cases hm.symm.trans hm'
    cases hstack.symm.trans hstack'

/-- What is attempted by waiting for the promise is to settle `r`. -/
lemma doneBy (h : prog.PassesOn l π r w below) (hm : prog.moment (l + 1 + π.steps) = some m)
    (hc : prog.OnBehalf (Set.Ico (l + 1 + π.steps) (l + 1 + π.steps + 1)) c) :
    prog.DoneBy (l + 1 + π.steps) (l + 1 + π.steps + 1) c :=
  (h.listens hm).2.doneBy_of_onBehalf (fun j hj hlt => by omega)
    (fun _ o body hbody => ⟨r, o.passed, by
      rw [Script.handler?_forwarder] at hbody
      exact (Option.some.inj hbody).symm⟩) hc

end PassesOn

/-! ## Calls that let a promise follow on another one -/

namespace Attaches

lemma idle (h : prog.Attaches a x r ob start) :
    ∀ j, a ≤ j → j < a + 1 → ∀ t, ¬ prog.At j fun m => m.Schedules t := by
  rintro j haj hj t ⟨m, hm, ht⟩
  obtain rfl : j = a := by omega
  obtain ⟨⟨w, stack⟩, hm', -, k, rest, rfl⟩ := h.creates
  cases hm.symm.trans hm'
  cases ht.isSchedule

lemma root (h : prog.Attaches a x r ob start) :
    ∃ i, prog.OnBehalf (Set.Ico a (a + 2)) i ∧ prog.At i fun m => m.Creates r :=
  ⟨a, .root ⟨Nat.le_refl a, by omega⟩, h.creates.imp fun _ h => ⟨h.1, h.2.1⟩⟩

lemma exists_r (h : prog.Attaches a x r ob start) (hj : a < j) (hm : prog.moment j = some m) :
    prog.At j fun m => r.index < m.world.promises.size :=
  ⟨m, hm, lt_size_of_creates (h.creates.imp fun _ h => ⟨h.1, h.2.1⟩) hj hm⟩

/-- If nobody else settles the promises of the call, an attempt to settle its result is made on its
behalf. -/
lemma onBehalf_of_attempts (h : prog.Attaches a x r ob start)
    (hprivate : prog.Private a (a + 2) j) (hcj : c < j) (hat : prog.At c fun m => m.Attempts r) :
    prog.OnBehalf (Set.Ico a (a + 2)) c := by
  obtain ⟨i, hi, hcreates⟩ := h.root
  exact hprivate i c r hcj hi hcreates hat

/-- The callback runs after the call. -/
lemma lt_of_hears (h : prog.Attaches a x r ob start)
    (hears : prog.Hears (a + 1) [x] 0 l body) : a + 1 < l :=
  (h.listens.of_hears hears).1

/-- What is attempted on behalf of the call is attempted for a callback of it. -/
lemma under_of_attempts (h : prog.Attaches a x r ob start)
    (hc : prog.OnBehalf (Set.Ico a (a + 2)) c) (hat : prog.At c fun m => m.Attempts z) :
    ∃ l body q o rs below, prog.Hears (a + 1) [x] 0 l body ∧
      prog.At (l + 1) (fun m => m.stack = .script body :: .delivery q o rs :: below) ∧
      prog.OnBehalf (prog.Under l (.delivery q o rs :: below)) c := by
  rcases h.listens.under_of_onBehalf h.idle hc with ⟨hac, hlt⟩ | ⟨i, l, body, q, o, rs, below,
    hears, hbody, hbehalf⟩
  · exact absurd hat (h.listens.still c hac hlt z)
  · obtain ⟨p, -, hp, -⟩ := id hears
    have hi := (List.getElem?_eq_some_iff.mp hp).1
    obtain rfl : i = 0 := by simpa using hi
    exact ⟨l, body, q, o, rs, below, hears, hbody, hbehalf⟩

/-- If the observer makes one attempt, nothing else is attempted. -/
lemma doneBy {σ : Outcome P.Value P.Error → Settlement P.Value P.Error}
    (h : prog.Attaches a x r ob start)
    (shots : ∀ o, ob.handler? o = some (.op (.settle r (σ o)) fun _ => .pure ()))
    (hc : prog.OnBehalf (Set.Ico a (a + 2)) c) : prog.DoneBy a (a + 2) c :=
  h.listens.doneBy_of_onBehalf h.idle (fun _ o body hbody => ⟨r, σ o, by
    rw [shots] at hbody
    exact (Option.some.inj hbody).symm⟩) hc

/-- Such a call settles the promise that it makes. -/
lemma tidy_of_shots {σ : Outcome P.Value P.Error → Settlement P.Value P.Error}
    (h : prog.Attaches a x r ob start)
    (shots : ∀ o, ob.handler? o = some (.op (.settle r (σ o)) fun _ => .pure ())) :
    prog.Tidy a (a + 2) j := by
  rintro c z - hc ⟨m, hm, hattempts⟩
  obtain ⟨-, -, -, -, -, -, -, -, rfl, -⟩ :=
    h.listens.of_shot (fun _ => shots) (h.doneBy shots hc) hm hattempts
  exact h.root

section Chainer

variable {F : P.Value → Pipeline P}

/-- The callback that is called with a value carries out the pipeline for it. -/
lemma passesOn (h : prog.Attaches a x r (Script.chainer (fun v => (F v).script) r) start)
    (known : ∀ v, (F v).Known r.index) (hears : prog.Hears (a + 1) [x] 0 l body) {v : P.Value}
    (ho : prog.At l fun m => (m.world.view x).outcome? = some (.succeeded v))
    (hm : prog.moment (l + 1) = some m) : ∃ below, prog.PassesOn l (F v) r m.world below := by
  obtain ⟨-, p, m₀, o, hp, h₀, ho', hhandler⟩ := h.listens.of_hears hears
  obtain ⟨m₀', h₀', ho⟩ := ho
  cases h₀.symm.trans h₀'
  cases Option.some.inj hp
  cases ho.symm.trans ho'
  cases hhandler
  have hl := h.lt_of_hears hears
  obtain ⟨q, o, rs, below, hstack⟩ := hears.exists_stack hm
  obtain ⟨m', hm', hlt⟩ := h.exists_r (by omega) hm
  cases hm.symm.trans hm'
  obtain ⟨w, stack⟩ := m
  cases hstack
  exact ⟨_, hm, (known v).mono (Nat.le_of_lt hlt), q, o, rs, below, rfl⟩

/-- What is under way for such a callback is done on behalf of the call. -/
lemma onBehalf_of_under (h : prog.Attaches a x r ob start)
    (hears : prog.Hears (a + 1) [x] 0 l body) (hpasses : prog.PassesOn l π r w below)
    (hi : i ∈ prog.Under l below) : prog.OnBehalf (Set.Ico a (a + 2)) i := by
  obtain ⟨q, o, rs, below', hstack⟩ := hears.exists_stack hpasses.called
  cases hstack
  exact h.listens.onBehalf_of_under hears ⟨_, hpasses.called, rfl⟩ hi

/-- What is attempted on behalf of the call is attempted for its callback. -/
lemma under_of_hears (h : prog.Attaches a x r ob start) (hears : prog.Hears (a + 1) [x] 0 l body)
    (hc : prog.OnBehalf (Set.Ico a (a + 2)) c) (hat : prog.At c fun m => m.Attempts z) :
    ∃ below, prog.At (l + 1) (fun m => m.stack = .script body :: below) ∧
      prog.OnBehalf (prog.Under l below) c := by
  obtain ⟨l', body', q, o, rs, below, hears', hbody, hbehalf⟩ := h.under_of_attempts hc hat
  obtain rfl := h.listens.hears_unique hears hears'
  obtain ⟨m₁, h₁, hstack⟩ := hbody
  obtain ⟨q', o', rs', below', hstack'⟩ := hears.exists_stack h₁
  cases hstack.symm.trans hstack'
  exact ⟨_, ⟨m₁, h₁, hstack⟩, hbehalf⟩

/-- If the promise that it follows on has failed, all that is attempted on behalf of the call is to
pass on the failure. -/
lemma shoots_of_attempts
    (h : prog.Attaches a x r (Script.chainer (fun v => (F v).script) r) start)
    (hears : prog.Hears (a + 1) [x] 0 l body) {t : Trace P.Error}
    (ho : prog.At l fun m => (m.world.view x).outcome? = some (.failed t))
    (hc : prog.OnBehalf (Set.Ico a (a + 2)) c) (hat : prog.At c fun m => m.Attempts z) :
    prog.Shoots l c r (.failed t.error (some t)) := by
  obtain ⟨below, hbody, hbehalf⟩ := h.under_of_hears hears hc hat
  obtain ⟨-, p, m₀, o, hp, h₀, ho', hhandler⟩ := h.listens.of_hears hears
  obtain ⟨m₀', h₀', ho⟩ := ho
  cases Option.some.inj hp
  cases h₀.symm.trans h₀'
  cases ho.symm.trans ho'
  cases hhandler
  exact hbehalf.of_under hbody

/-- If the promise that it follows on has a value, all that is attempted on behalf of the call is
attempted on behalf of the pipeline for this, or to pass on what becomes of the promise of that. -/
lemma of_attempts (h : prog.Attaches a x r ob start) (hears : prog.Hears (a + 1) [x] 0 l body)
    (hpasses : prog.PassesOn l π r w below) (hc : prog.OnBehalf (Set.Ico a (a + 2)) c)
    (hat : prog.At c fun m => m.Attempts z) :
    prog.OnBehalf (Set.Ico (l + 1) (l + 1 + π.steps)) c ∨
      prog.OnBehalf (Set.Ico (l + 1 + π.steps) (l + 1 + π.steps + 1)) c := by
  obtain ⟨below', ⟨m₁, h₁, hstack⟩, hbehalf⟩ := h.under_of_hears hears hc hat
  cases h₁.symm.trans hpasses.called
  cases hstack
  exact hpasses.of_attempts hbehalf hat

/-- If the pipelines for the values are tidy, so is the call. -/
lemma tidy_of_chainer (h : prog.Attaches a x r (Script.chainer (fun v => (F v).script) r) start)
    (known : ∀ v, (F v).Known r.index) (hm : prog.moment j = some m) (hquiet : m.Quiet)
    (tidy : ∀ v l w below, prog.PassesOn l (F v) r w below → l + 1 + (F v).steps ≤ j →
      prog.Tidy (l + 1) (l + 1 + (F v).steps) j) : prog.Tidy a (a + 2) j := by
  intro c z hcj hc hat
  obtain ⟨l, body, q, o', rs, below, hears, hbody, hbehalf⟩ := h.under_of_attempts hc hat
  have hlc : l < c := hbehalf.le (a := l + 1) fun i hi => hi.1
  obtain ⟨-, p, m₀, o, hp, h₀, ho, -⟩ := h.listens.of_hears hears
  cases Option.some.inj hp
  obtain ⟨mc, hmc, hattempts⟩ := id hat
  cases o with
  | failed t =>
    obtain ⟨-, rfl, -⟩ :=
      (h.shoots_of_attempts hears ⟨m₀, h₀, ho⟩ hc hat).of_attempts hmc hattempts
    exact h.root
  | succeeded v =>
    obtain ⟨m₁, h₁, -⟩ := hbody
    obtain ⟨below, hpasses⟩ := h.passesOn known hears ⟨m₀, h₀, ho⟩ h₁
    have hover := hpasses.lt_of_quiet hm hquiet (by omega)
    rcases h.of_attempts hears hpasses hc hat with hpipeline | hforward
    · obtain ⟨i, hi, hcreates⟩ := tidy v l _ below hpasses (by omega) c z hcj hpipeline hat
      exact ⟨i, hi.trans fun i' hi' =>
        h.onBehalf_of_under hears hpasses (hpasses.under_of_mem hm (by omega) hi'), hcreates⟩
    · obtain ⟨me, hme⟩ := exists_moment_of_le (i := l + 1 + (F v).steps) (by omega) hm
      obtain ⟨-, -, -, -, -, -, -, -, rfl, -⟩ := (hpasses.listens hme).2.of_shot
        (fun _ => Script.handler?_forwarder r) (hpasses.doneBy hme hforward) hmc hattempts
      exact h.root

end Chainer

end Attaches

end Program

namespace Pipeline

open Program

variable {prog : Program P} {j : Nat} {m : Machine P}

/-- What is attempted on behalf of a call that makes and settles a promise at once. -/
lemma eq_of_ofResult {a c : Nat} {x z : PromiseId} {s : Settlement P.Value P.Error} {T : Duration}
    (hcreates : prog.At a fun m => m.Creates x ∧
      ∃ k rest, m.stack = .script (.op .create k) :: rest)
    (hsettles : prog.SettledAt (a + 1) x s T) (hc : prog.OnBehalf (Set.Ico a (a + 2)) c)
    (hm : prog.moment c = some m) (hattempts : m.Attempts z) : z = x := by
  obtain ⟨⟨w₀, stack₀⟩, h₀, -, k₀, rest₀, rfl⟩ := hcreates
  obtain ⟨⟨w₁, stack₁⟩, h₁, ⟨-, -, k₁, rest₁, rfl⟩, -⟩ := hsettles
  have hmoments : ∀ i ∈ Set.Ico a (a + 2), i = a ∨ i = a + 1 := fun i ⟨hai, hi⟩ => by omega
  have hmem := hc.mem_of_idle (fun i hi p n => ?_) fun i hi t => ?_
  · rcases hmoments c hmem with rfl | rfl
    · cases hm.symm.trans h₀
      cases hattempts.isSettle
    · cases hm.symm.trans h₁
      obtain ⟨-, s', k', rest', hstack⟩ := hattempts
      cases hstack
      rfl
  · rintro ⟨m', hm', ⟨ob, hob⟩, -⟩
    rcases hmoments i hi with rfl | rfl
    · cases hm'.symm.trans h₀
      cases hob.isObserve
    · cases hm'.symm.trans h₁
      cases hob.isObserve
  · rintro ⟨m', hm', ht⟩
    rcases hmoments i hi with rfl | rfl
    · cases hm'.symm.trans h₀
      cases ht.isSchedule
    · cases hm'.symm.trans h₁
      cases ht.isSchedule

/-- **A pipeline settles only promises that it has made.** -/
theorem tidy (π : Pipeline P) (hm : prog.moment j = some m) (hquiet : m.Quiet) {a : Nat}
    {w : World P} {k : PromiseId → Script P Unit} {rest : List (Activity P)}
    (ha : prog.moment a = some ⟨w, .script (π.script.bind k) :: rest⟩)
    (known : π.Known w.promises.size) (hj : a + π.steps ≤ j) :
    prog.Tidy a (a + π.steps) j := by
  induction π generalizing a w k rest with
  | existing p =>
    intro c z hcj hc hat
    obtain ⟨i, hai, hia⟩ := hc.nonempty
    exact absurd hia (Nat.not_lt.mpr hai)
  | settled R =>
    obtain ⟨-, -, hcreates, hsettles⟩ := settles_of_ofResult ha
    rintro c z - hc ⟨mc, hmc, hattempts⟩
    obtain rfl := eq_of_ofResult hcreates hsettles hc hmc hattempts
    exact ⟨a, .root ⟨Nat.le_refl a, by simp [steps]⟩, hcreates.imp fun _ h => ⟨h.1, h.2.1⟩⟩
  | timed t | deferred t =>
    simp only [script_timed, script_deferred] at ha
    obtain ⟨m₃, h₃⟩ := exists_moment_of_le hj hm
    obtain ⟨-, -, -, due, t', -, arms⟩ := arms_of_settleAfter ha h₃
    rintro c z hcj hc ⟨mc, hmc, hattempts⟩
    obtain ⟨-, rfl, -⟩ := arms.of_attempts hc hmc hattempts
    exact ⟨a, .root ⟨Nat.le_refl a, by simp [steps]⟩, arms.creates.imp fun _ h => ⟨h.1, h.2.1⟩⟩
  | andThen source f ih =>
    simp only [steps] at hj
    obtain ⟨mb, hmb⟩ := exists_moment_of_le (i := a + source.steps) (by omega) hm
    have hattaches := attaches_of_andThen ha known hmb
    have ha' := ha
    rw [script_andThen_bind] at ha'
    exact (ih ha' known (by omega)).append (hattaches.tidy_of_shots (Script.handler?_mapper f _))
      (Nat.le_add_right _ _) (by simp [steps])
  | lazily source F ih ihF =>
    simp only [steps] at hj
    obtain ⟨mb, hmb⟩ := exists_moment_of_le (i := a + source.steps) (by omega) hm
    have hattaches := attaches_of_lazily ha known.1 hmb
    have ha' := ha
    rw [script_lazily_bind] at ha'
    refine (ih ha' known.1 (by omega)).append (hattaches.tidy_of_chainer
      (fun v => (known.2 v).mono (Nat.le_add_right _ _)) hm hquiet
      fun v l w' below hpasses hle => ihF v hpasses.called hpasses.known hle)
      (Nat.le_add_right _ _) (by simp [steps])

end Pipeline

end Eventual
