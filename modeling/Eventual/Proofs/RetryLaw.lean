import Eventual.Proofs.RetryStage

/-!
# What a retry loop does

The stages of a loop show what can be said of its whole run (`Program.RetryLaw`): when its thunk and
its callback for errors are called, and what becomes of its result.  The calls of the thunk are
counted, so each of them is made once, and what led from one to the next can be looked up for every
call that was made (`Program.exists_round`).
-/

namespace Eventual

variable {P : Payload}

/-- What is done next is not done by a loop itself, but by a script that does not use it or by one
that it was given. -/
inductive Retry.Outside (t : Retry P) (ρ : RetryId) (m : Machine P) : Prop
  /-- By a script that does not use the loop. -/
  | other {s : Script P Unit} {rest : List (Activity P)} (stack : m.stack = .script s :: rest)
      (confined : s.ConfinedTo (.withoutRetry ρ))
  /-- By the thunk. -/
  | thunk {n : Nat} {α : Type} {o : Op P α} {k : α → Script P PromiseId} {rest : List (Activity P)}
      (stack : m.stack = .script ((Script.op o k).bind (t.await ρ n)) :: rest)
      (left : (t.thunk n).Rest (.op o k))
  /-- By the callback for errors. -/
  | onError {trace : Trace P.Error} {α : Type} {o : Op P α} {k : α → Script P Unit}
      {rest : List (Activity P)}
      (stack : m.stack = .script ((Script.op o k).bind fun _ => t.again ρ) :: rest)
      (left : (t.onError trace).Rest (.op o k))

namespace Program

/-- What a retry loop does, if its thunk is called at moment `b` for the first time. -/
structure RetryLaw (prog : Program P) (t : Retry P) (ρ : RetryId) (b : Nat) : Prop where
  /-- One thing at a time is in flight. -/
  stages : ∀ j m, b ≤ j → prog.moment j = some m → prog.Stage t ρ b j m
  /-- The thunk is called only while the result is unresolved; the first time at moment `b`, and
  afterwards when the promise of the call before has failed, at the interval of the loop after this
  was told. -/
  called : ∀ j m, prog.moment j = some m → m.Counts ρ →
    ∃ n below, m.Tries t ρ n below ∧ prog.Follows t ρ b n j
  /-- The calls are counted. -/
  inOrder : ∀ c c' n n' below below', prog.At c (fun m => m.Tries t ρ n below) →
    prog.At c' (fun m => m.Tries t ρ n' below') → (c < c' ↔ n < n')
  /-- Before a call there was a round for each earlier one: its promise has failed, and the callback
  for errors was called for that and has returned. -/
  rounds : ∀ c n n' below, n < n' → prog.At c (fun m => m.Tries t ρ n' below) →
    ∃ A trace l h c', A.number = n ∧ prog.Round t ρ A trace l h c' ∧ c' ≤ c
  /-- Once the result is settled the thunk is not called any more. -/
  stops : ∀ i j m s, i ≤ j → prog.moment i = some m →
    (m.world.view t.result).settlement? = some s → ¬ prog.At j fun m => m.Counts ρ
  /-- A call returns once. -/
  returned : ∀ A B, prog.Watches t ρ A → prog.Watches t ρ B → A.called = B.called → A = B
  /-- The observer of the promise that a call has returned is told once. -/
  watched : ∀ A, prog.Watches t ρ A →
    prog.ToldOnce A.observed A.promise A.observer (t.watcher ρ A.number)
  /-- When it is told of a value it makes the attempt to fulfill the result with it, at once, and
  the thunk is not called any more. -/
  succeeds : ∀ A v l m body, prog.Watches t ρ A → prog.moment l = some m →
    m.Calls A.promise A.observer body → (m.world.view A.promise).result? = some (.ok v) →
    (prog.At (l + 1) fun m' => m'.world.clock = m.world.clock ∧
        ∃ k rest, m'.stack = .script (.op (.settle t.result (.fulfilled v)) k) :: rest) ∧
      (∀ j m', l + 1 < j → prog.moment j = some m' →
        (m'.world.view t.result).state ≠ .unresolved ∧
          ((m.world.view t.result).settlement? = none →
            (m'.world.view t.result).result? = some (.ok v))) ∧
      ∀ j, l < j → ¬ prog.At j fun m => m.Counts ρ
  /-- When it is told of a failure it calls the callback for errors with the trace. -/
  fails : ∀ A trace l m body, prog.Watches t ρ A → prog.moment l = some m →
    m.Calls A.promise A.observer body → (m.world.view A.promise).trace? = some trace →
    (m.world.view A.promise).result? = some (.error trace.error) ∧ prog.Fails t ρ A trace l ∧
      prog.At (l + 2) fun m' => ∃ below,
        m'.stack = .script ((t.onError trace).bind fun _ => t.again ρ) :: below
  /-- Whoever else attempts to settle the result is outside. -/
  settles : ∀ j m, b ≤ j → prog.moment j = some m → m.Attempts t.result →
    (∃ A l v, prog.Watches t ρ A ∧ j = l + 1 ∧ prog.At l fun m =>
        m.Calls A.promise A.observer (Script.passValue t.result v) ∧
          (m.world.view A.promise).result? = some (.ok v)) ∨
      t.Outside ρ m ∧ ∀ A l body, prog.Watches t ρ A →
        prog.At l (fun m => m.Calls A.promise A.observer body) → j ≠ l + 1

variable {prog : Program P} {t : Retry P} {ρ : RetryId} {a b c j l n : Nat} {m : Machine P}
  {A B : Attempt} {w : World P} {thunk : Nat → Script P PromiseId} {interval : Duration}
  {onError : Trace P.Error → Script P Unit} {k : PromiseId → Script P Unit}
  {below rest : List (Activity P)}

/-! ## The call of a loop -/

/-- As long as the name of a loop was not given out a composed program does not use it. -/
lemma confinedTo_withoutRetry (composed : prog.main.Composed True) (h : prog.moment n = some m)
    (hρ : m.world.retries.size ≤ ρ.index) : m.ConfinedTo (.withoutRetry ρ) := by
  refine Program.confinedTo composed (fun _ _ => trivial) h
    ⟨fun _ _ => trivial, fun _ _ => trivial, fun i hi heq => ?_⟩
  rw [← heq] at hρ
  exact Nat.not_le.mpr hi hρ

lemma retries_size_le {i : Nat} {m' : Machine P} (hij : i ≤ j) (hi : prog.moment i = some m)
    (hj : prog.moment j = some m') : m.world.retries.size ≤ m'.world.retries.size :=
  carry (I := fun m' => m.world.retries.size ≤ m'.world.retries.size)
    (fun _ _ h hstep => Nat.le_trans h hstep.size_le.2.2) hij hi (Nat.le_refl _) hj

/-- The calls of the thunk of a loop are not counted before the name of the loop is given out. -/
lemma not_counts_of_le (composed : prog.main.Composed True) (ha : prog.moment a = some m)
    (hja : j ≤ a) : ¬ prog.At j fun m' => m'.Counts ⟨m.world.retries.size⟩ := by
  rintro ⟨m', hm', hcounts⟩
  have hsize := retries_size_le hja hm' ha
  have hbefore := confinedTo_withoutRetry (ρ := ⟨m.world.retries.size⟩) composed hm' hsize
  exact (hbefore.save (fun _ _ => False) fun _ => False).not_counts hcounts

/-- A retry loop first makes its result, and then itself. -/
lemma looping (composed : prog.main.Composed True)
    (ha : prog.moment a =
      some ⟨w, .script ((Script.keepTrying thunk interval onError).bind k) :: rest⟩) :
    (prog.At (a + 1) fun m => ¬ m.Counts ⟨w.retries.size⟩) ∧
      ∃ w₂, prog.moment (a + 2) = some ⟨w₂, .script (.attempt ⟨w.retries.size⟩
          (k ⟨w.promises.size⟩)) :: rest⟩ ∧
        w₂.retries[w.retries.size]? =
          some ⟨⟨w.promises.size⟩, interval, thunk, onError, 0⟩ ∧
        (w₂.view ⟨w.promises.size⟩).settlement? = none ∧
        w.promises.size < w₂.promises.size ∧
        w₂.ConfinedTo (.withoutRetry ⟨w.retries.size⟩) (fun _ _ => False) fun _ => False := by
  have hm := confinedTo_withoutRetry (ρ := ⟨w.retries.size⟩) composed ha (Nat.le_refl _)
  obtain ⟨hthunk, honError, -⟩ :=
    Script.of_keepTrying_bind (hm.stack _ (.head rest)) ⟨w.promises.size⟩
  rw [Script.keepTrying_bind] at ha
  obtain ⟨w₁, segment?, performed, promises, -, -, -, -, retries⟩ := w.perform_create
  have h₁ := moment_of_operate ha performed
  have hopen : w₁.perform (.openRetry ⟨w.promises.size⟩ interval thunk onError) =
      .answer ⟨w.retries.size⟩ { w₁ with
        retries := w₁.retries.push ⟨⟨w.promises.size⟩, interval, thunk, onError, 0⟩ } := by
    rw [← retries]
    rfl
  have hworld := (hm.world.perform (o := .create) trivial performed).perform
    (o := .openRetry ⟨w.promises.size⟩ interval thunk onError)
    ⟨hthunk, fun trace _ => honError trace⟩ hopen
  refine ⟨⟨_, h₁, fun hcounts => ?_⟩, _, moment_of_operate h₁ hopen, ?_, ?_, ?_, hworld⟩
  · cases hcounts.isCount
  · simp [← retries]
  · simp [World.view, promises, Promise.view]
  · simp [promises]

/-- A retry loop is called, and makes its first attempt before anything else is done. -/
lemma tries_of_call (composed : prog.main.Composed True)
    (ha : prog.moment a =
      some ⟨w, .script ((Script.keepTrying thunk interval onError).bind k) :: rest⟩) :
    (∀ j < a + 4, ¬ prog.At j fun m => m.Counts ⟨w.retries.size⟩) ∧
      prog.At (a + 4) fun m =>
        m.Tries ⟨⟨w.promises.size⟩, interval, thunk, onError, 0⟩ ⟨w.retries.size⟩ 0
            (.script (k ⟨w.promises.size⟩) :: rest) ∧
          w.promises.size < m.world.promises.size ∧
          Machine.ConfinedTo (.withoutRetry ⟨w.retries.size⟩)
            ⟨m.world, .script (k ⟨w.promises.size⟩) :: rest⟩ := by
  have hm := confinedTo_withoutRetry (ρ := ⟨w.retries.size⟩) composed ha (Nat.le_refl _)
  obtain ⟨-, -, hk⟩ := Script.of_keepTrying_bind (hm.stack _ (.head rest)) ⟨w.promises.size⟩
  obtain ⟨⟨m₁, h₁, hm₁⟩, w₂, h₂, counted, hview, hlt, hworld⟩ := looping composed ha
  -- once there is a loop, the result is looked at
  have h₃ := moment_succ_eq_some_iff.mpr ⟨_, h₂, .attempt⟩
  have hnext : w₂.nextAttempt ⟨w.retries.size⟩ = .op (.view ⟨w.promises.size⟩) fun v =>
      if v.isSettled then .op (.emit (.retryAbandoned 0)) .pure
      else Retry.trial ⟨⟨w.promises.size⟩, interval, thunk, onError, 0⟩ ⟨w.retries.size⟩ 0 := by
    rw [World.nextAttempt, counted]
    exact Retry.nextAttempt_eq ⟨⟨w.promises.size⟩, interval, thunk, onError, 0⟩ _ 0
  rw [hnext] at h₃
  have h₄ := moment_of_operate (o := .view ⟨w.promises.size⟩) h₃ rfl
  refine ⟨?_, _, h₄, ⟨counted, hview, ?_⟩, hlt, hworld, fun y hy => ?_⟩
  · intro j hj
    rcases Nat.lt_or_ge a j with haj | hja
    · rintro ⟨m, hm', hcounts⟩
      obtain rfl | rfl | rfl : j = a + 1 ∨ j = a + 2 ∨ j = a + 3 := by omega
      · cases h₁.symm.trans hm'
        exact hm₁ hcounts
      · cases h₂.symm.trans hm'
        obtain ⟨_, _, hstack⟩ := hcounts
        cases hstack
      · cases h₃.symm.trans hm'
        cases hcounts.isCount
    · exact not_counts_of_le composed ha hja
  · have hunresolved : (w₂.view ⟨w.promises.size⟩).isSettled = false := by
      simp [View.isSettled, View.state, hview]
    simp only [hunresolved]
    rfl
  · rcases List.mem_cons.mp hy with rfl | hy
    · exact hk
    · exact hm.stack y (.tail _ hy)

/-! ## What the stages show -/

/-- From its first call on a loop is at one of its stages. -/
lemma stage_of_tries (flat : prog.Flat) (hb : prog.At b fun m => m.Tries t ρ 0 below ∧
      Machine.ConfinedTo (.withoutRetry ρ) ⟨m.world, below⟩) (hbj : b ≤ j)
    (hm : prog.moment j = some m) : ρ.index < m.world.retries.size ∧ prog.Stage t ρ b j m := by
  induction j, hbj using Nat.le_induction generalizing m with
  | base =>
    obtain ⟨m₀, h₀, tries, others⟩ := hb
    cases hm.symm.trans h₀
    have hlt := (Array.getElem?_eq_some_iff.mp tries.counted).1
    exact ⟨hlt, .trying tries (Or.inl ⟨rfl, rfl⟩) others⟩
  | succ j hbj ih =>
    obtain ⟨m₁, h₁, hstep⟩ := moment_succ_eq_some_iff.mp hm
    obtain ⟨hρ, hstage⟩ := ih h₁
    exact ⟨Nat.lt_of_lt_of_le hρ hstep.size_le.2.2, hstage.succ flat hρ h₁ hm⟩

/-- While a script is under way that a loop was given, no attempt of the loop is counted. -/
lemma not_counts_below {α : Type} {s : Script P α} {f : α → Script P Unit} {x : Activity P}
    {above : List (Activity P)} (others : Machine.ConfinedTo (.withoutRetry ρ) ⟨w, above ++ below⟩)
    (resumes : x.Resumes (.withoutRetry ρ) s f)
    (hno : ∀ a, ¬ Machine.Counts ⟨w, .script (f a) :: below⟩ ρ) :
    ¬ Machine.Counts ⟨w, above ++ x :: below⟩ ρ := by
  cases above with
  | nil =>
    by_cases hover : ∃ a, x = .script (f a)
    · obtain ⟨a, rfl⟩ := hover
      exact hno a
    · exact Machine.not_counts_of_resumes resumes fun a ha => hover ⟨a, ha⟩
  | cons y above => exact Machine.not_counts_of_confined (others.stack y (.head _))

/-- Whoever counts an attempt of the loop is about to call the thunk. -/
lemma Stage.tries_of_counts (hstage : prog.Stage t ρ b j m) (hcounts : m.Counts ρ) :
    ∃ n below, m.Tries t ρ n below ∧ prog.Follows t ρ b n j := by
  obtain ⟨w, stack⟩ := m
  cases hstage with
  | trying tries follows => exact ⟨_, _, tries, follows⟩
  | thinking _ _ _ _ stack resumes others =>
    cases stack
    exact absurd hcounts (not_counts_below others resumes fun p h => nomatch h.isCount)
  | telling _ _ _ _ _ stack resumes others =>
    cases stack
    exact absurd hcounts (not_counts_below others resumes fun _ h => nomatch h.isCount)
  | awaiting _ _ _ others => exact absurd hcounts others.not_counts
  | resting _ _ _ _ _ _ others => exact absurd hcounts others.not_counts
  | ended others => exact absurd hcounts (others.save (fun _ _ => False) fun _ => False).not_counts
  | reporting _ _ _ stack =>
    cases stack
    cases hcounts.isCount
  | pausing _ _ stack =>
    cases stack
    cases hcounts.isCount
  | starting _ _ _ stack =>
    cases stack
    obtain ⟨_, _, hstack⟩ := hcounts
    cases hstack
  | looking _ _ _ stack =>
    rw [Retry.nextAttempt_eq] at stack
    cases stack
    cases hcounts.isCount

/-- A script that a loop was given attempts to settle a promise, if it is not over. -/
lemma outside_below {α : Type} {s : Script P α} {f : α → Script P Unit} {x : Activity P}
    {above : List (Activity P)} (others : Machine.ConfinedTo (.withoutRetry ρ) ⟨w, above ++ below⟩)
    (resumes : x.Resumes (.withoutRetry ρ) s f) {p : PromiseId}
    (hno : ∀ a, ¬ Machine.Attempts ⟨w, .script (f a) :: below⟩ p)
    (hattempts : Machine.Attempts ⟨w, above ++ x :: below⟩ p) :
    (∃ s' rest, above ++ x :: below = .script s' :: rest ∧ s'.ConfinedTo (.withoutRetry ρ)) ∨
      ∃ (β : Type) (o : Op P β) (k : β → Script P α),
        above ++ x :: below = .script ((Script.op o k).bind f) :: below ∧ s.Rest (.op o k) := by
  obtain ⟨-, _, k, rest, hstack⟩ := id hattempts
  cases above with
  | nil =>
    right
    cases resumes with
    | @script s' left =>
      cases s' with
      | pure a => exact absurd hattempts (hno a)
      | op o k => exact ⟨_, o, k, rfl, left⟩
      | drive | attempt => cases hstack
    | drive => cases hstack
  | cons y above =>
    left
    have hy := others.stack y (.head _)
    cases hstack
    exact ⟨_, _, rfl, hy⟩

/-- Whoever attempts to settle the result is outside the loop, or it is an observer of the loop. -/
lemma Stage.outside (hstage : prog.Stage t ρ b j m) (hattempts : m.Attempts t.result) :
    t.Outside ρ m := by
  have hother : ∀ exempt : PromiseId → Nat → Prop,
      (∀ x ∈ m.stack, x.ConfinedTo (.withoutRetry ρ) exempt) → t.Outside ρ m := by
    intro exempt hall
    obtain ⟨-, s, k, rest, hstack⟩ := hattempts
    rw [hstack] at hall
    exact .other hstack (hall _ (.head rest))
  obtain ⟨w, stack⟩ := m
  cases hstage with
  | trying tries =>
    cases tries.stack
    cases hattempts.isSettle
  | thinking _ _ _ _ stack resumes others =>
    cases stack
    rcases outside_below others resumes (fun p h => nomatch h.isSettle) hattempts with
      ⟨s, rest, hstack, hs⟩ | ⟨_, o, k, hstack, left⟩
    · exact .other hstack hs
    · exact .thunk hstack left
  | telling _ _ _ _ _ stack resumes others =>
    cases stack
    rcases outside_below others resumes (fun p h => nomatch h.isSettle) hattempts with
      ⟨s, rest, hstack, hs⟩ | ⟨_, o, k, hstack, left⟩
    · exact .other hstack hs
    · exact .onError hstack left
  | awaiting _ _ _ others => exact hother _ others.stack
  | resting _ _ _ _ _ _ others => exact hother _ others.stack
  | ended others => exact hother _ others.stack
  | reporting _ _ _ stack =>
    cases stack
    cases hattempts.isSettle
  | pausing _ _ stack =>
    cases stack
    cases hattempts.isSettle
  | starting _ _ _ stack =>
    cases stack
    obtain ⟨-, _, _, _, hstack⟩ := hattempts
    cases hstack
  | looking _ _ _ stack =>
    rw [Retry.nextAttempt_eq] at stack
    cases stack
    cases hattempts.isSettle

/-! ## The calls of the thunk -/

lemma attempts_le {c' n' : Nat} {m' : Machine P} (hcc' : c ≤ c') (hc : prog.moment c = some m)
    (hn : m.world.retries[ρ.index]? = some { t with attempts := n })
    (hc' : prog.moment c' = some m')
    (hn' : m'.world.retries[ρ.index]? = some { t with attempts := n' }) : n ≤ n' := by
  have hcounted : ∃ i, n ≤ i ∧ m'.world.retries[ρ.index]? = some { t with attempts := i } := by
    refine carry (I := fun m' => ∃ i, n ≤ i ∧
      m'.world.retries[ρ.index]? = some { t with attempts := i }) ?_ hcc' hc
      ⟨n, Nat.le_refl _, hn⟩ hc'
    rintro m₁ m₂ ⟨i, hi, h₁⟩ hstep
    rcases hstep.retries h₁ with ⟨-, h₂⟩ | ⟨-, h₂⟩
    · exact ⟨i + 1, Nat.le_succ_of_le hi, h₂⟩
    · exact ⟨i, hi, h₂⟩
  obtain ⟨i, hi, h⟩ := hcounted
  have heq : i = n' := congrArg Retry.attempts (Option.some.inj (h.symm.trans hn'))
  exact heq ▸ hi

lemma lt_of_tries {c' n' : Nat} {below' : List (Activity P)} (hcc' : c < c')
    (hc : prog.At c fun m => m.Tries t ρ n below)
    (hc' : prog.At c' fun m => m.Tries t ρ n' below') : n < n' := by
  obtain ⟨m, hm, tries⟩ := hc
  obtain ⟨m', hm', tries'⟩ := hc'
  obtain ⟨m₁, h₁⟩ := exists_moment_of_le (Nat.succ_le_of_lt hcc') hm'
  rcases (step_of_moment hm h₁).retries tries.counted with ⟨-, hnext⟩ | ⟨hno, -⟩
  · exact attempts_le (Nat.succ_le_of_lt hcc') h₁ hnext hm' tries'.counted
  · exact absurd ⟨_, _, tries.stack⟩ hno

/-- The calls of the thunk are made in the order of their numbers, and each of them once. -/
lemma tries_in_order {c' n' : Nat} {below' : List (Activity P)}
    (hc : prog.At c fun m => m.Tries t ρ n below)
    (hc' : prog.At c' fun m => m.Tries t ρ n' below') : c < c' ↔ n < n' := by
  refine ⟨fun h => lt_of_tries h hc hc', fun hn => ?_⟩
  rcases Nat.lt_trichotomy c c' with hlt | rfl | hlt
  · exact hlt
  · obtain ⟨m, hm, tries⟩ := hc
    obtain ⟨m', hm', tries'⟩ := hc'
    cases hm.symm.trans hm'
    have heq : n = n' :=
      congrArg Retry.attempts (Option.some.inj (tries.counted.symm.trans tries'.counted))
    omega
  · have hlt' := lt_of_tries hlt hc' hc
    omega

/-- A call of the thunk that is not the first one follows on an attempt that has failed. -/
lemma round_of_tries (called : ∀ j m, prog.moment j = some m → m.Counts ρ →
      ∃ n below, m.Tries t ρ n below ∧ prog.Follows t ρ b n j)
    (hc : prog.At c fun m => m.Tries t ρ (n + 1) below) :
    ∃ A trace l h, A.number = n ∧ prog.Round t ρ A trace l h c := by
  obtain ⟨m, hm, tries⟩ := hc
  obtain ⟨n', below', tries', hfollows⟩ := called c m hm ⟨_, _, tries.stack⟩
  have heq : n' = n + 1 :=
    congrArg Retry.attempts (Option.some.inj (tries'.counted.symm.trans tries.counted))
  obtain ⟨rfl, -⟩ | ⟨A, trace, l, h, hnumber, hround⟩ := hfollows
  · cases heq
  · exact ⟨A, trace, l, h, by omega, hround⟩

lemma Round.called_lt {trace : Trace P.Error} {h : Nat} (hround : prog.Round t ρ A trace l h c) :
    A.called < l ∧ l < c := by
  have hobserved := hround.reports.fails.watches.lt
  have hfailed := hround.reports.fails.lt
  have hreported := hround.reports.lt
  have hwaited := hround.lt
  omega

/-- After each call of the thunk but the last one there was a round. -/
lemma exists_round (called : ∀ j m, prog.moment j = some m → m.Counts ρ →
      ∃ n below, m.Tries t ρ n below ∧ prog.Follows t ρ b n j) {n' : Nat} (hn : n < n')
    (hc : prog.At c fun m => m.Tries t ρ n' below) :
    ∃ A trace l h c', A.number = n ∧ prog.Round t ρ A trace l h c' ∧ c' ≤ c := by
  induction n', hn using Nat.le_induction generalizing c below with
  | base =>
    obtain ⟨A, trace, l, h, hnumber, hround⟩ := round_of_tries called hc
    exact ⟨A, trace, l, h, c, hnumber, hround, Nat.le_refl c⟩
  | succ n' hn ih =>
    obtain ⟨A, trace, l, h, rfl, hround⟩ := round_of_tries called hc
    obtain ⟨below', hbefore, -⟩ := hround.reports.fails.watches.returned
    obtain ⟨B, trace', l', h', c', hnumber, hround', hle⟩ := ih hbefore
    obtain ⟨hlt, hlt'⟩ := hround.called_lt
    exact ⟨B, trace', l', h', c', hnumber, hround', by omega⟩

/-! ## What a call of the thunk returns -/

/-- A call that has returned is over. -/
lemma Watches.not_lt (hA : prog.Watches t ρ A) (hB : prog.Watches t ρ B)
    (hcalled : A.called = B.called) : ¬ A.observed < B.observed := by
  intro hlt
  obtain ⟨below, ⟨m, hm, tries⟩, ⟨⟨w, stack⟩, h₁, hstack⟩, -⟩ := hA.returned
  obtain ⟨below', ⟨m', hm', tries'⟩, ⟨m₂, h₂, hstack'⟩, during⟩ := hB.returned
  rw [hcalled] at hm
  cases hm.symm.trans hm'
  obtain rfl : below = below' := (List.cons.inj (tries.stack.symm.trans tries'.stack)).2
  cases hstack
  have hcalled' := hA.lt
  -- the next step of the script is its last
  obtain ⟨m₃, h₃⟩ := exists_moment_of_le (Nat.succ_le_of_lt hlt) h₂
  cases step_of_moment h₁ h₃ with
  | operate performed =>
    have hle := le_of_above ⟨_, h₃, rfl⟩ during (by omega)
    obtain heq : B.observed = A.observed + 1 := by omega
    rw [heq] at h₂
    cases h₃.symm.trans h₂
    cases hstack'

lemma Watches.unique (hA : prog.Watches t ρ A) (hB : prog.Watches t ρ B)
    (hcalled : A.called = B.called) : A = B := by
  have hobserved : A.observed = B.observed := by
    have hle := hA.not_lt hB hcalled
    have hge := hB.not_lt hA hcalled.symm
    omega
  obtain ⟨below, ⟨m, hm, tries⟩, ⟨m₁, h₁, hstack⟩, -⟩ := hA.returned
  obtain ⟨below', ⟨m', hm', tries'⟩, ⟨m₂, h₂, hstack'⟩, -⟩ := hB.returned
  obtain ⟨m₃, h₃, -, hobserver⟩ := hA.registered
  obtain ⟨m₄, h₄, -, hobserver'⟩ := hB.registered
  obtain ⟨n, c, p, o, i⟩ := A
  obtain ⟨n', c', p', o', i'⟩ := B
  cases hcalled
  cases hobserved
  cases hm.symm.trans hm'
  cases h₁.symm.trans h₂
  cases h₁.symm.trans h₃
  cases h₁.symm.trans h₄
  obtain rfl : n = n' :=
    congrArg Retry.attempts (Option.some.inj (tries.counted.symm.trans tries'.counted))
  obtain rfl : p = p' := by
    cases hstack.symm.trans hstack'
    rfl
  obtain rfl : i = i' := hobserver.symm.trans hobserver'
  rfl

/-! ## What the observers do -/

namespace Watches

variable {body : Script P Unit} {v : P.Value} {trace : Trace P.Error}

/-- The observer is told of a value. -/
lemma of_value (h : prog.Watches t ρ A) (hm : prog.moment l = some m)
    (hcalls : m.Calls A.promise A.observer body)
    (hv : (m.world.view A.promise).result? = some (.ok v)) :
    A.observed < l ∧ body = Script.passValue t.result v := by
  obtain ⟨hlt, ⟨v', hv', handler⟩ | ⟨trace, herror, -, -⟩⟩ := h.toldOnce.given l m body hm hcalls
  · cases hv.symm.trans hv'
    cases handler
    exact ⟨hlt, rfl⟩
  · cases hv.symm.trans herror

/-- The observer is told of a failure. -/
lemma of_failure (h : prog.Watches t ρ A) (hm : prog.moment l = some m)
    (hcalls : m.Calls A.promise A.observer body)
    (htrace : (m.world.view A.promise).trace? = some trace) :
    prog.Fails t ρ A trace l ∧ body = t.afterFailure ρ (A.number + 1) trace := by
  obtain ⟨hlt, ⟨v, hv, -⟩ | ⟨trace', -, htrace', handler⟩⟩ := h.toldOnce.given l m body hm hcalls
  · cases hv.symm.trans (View.result?_of_trace? htrace)
  · cases htrace.symm.trans htrace'
    cases handler
    exact ⟨⟨h, hlt, m, hm, hcalls, htrace⟩, rfl⟩

end Watches

lemma moment_of_calls {p : PromiseId} {i : Nat} {body : Script P Unit}
    (hm : prog.moment l = some m) (hcalls : m.Calls p i body) :
    ∃ below, prog.moment (l + 1) = some ⟨m.world, .script body :: below⟩ := by
  obtain ⟨w, stack⟩ := m
  obtain ⟨o, r, rs, rest, rfl, -, handler⟩ := hcalls
  exact ⟨.delivery p o rs :: rest, moment_succ_eq_some_iff.mpr ⟨_, hm, .call handler⟩⟩

lemma promises_size_le {i : Nat} {m' : Machine P} (hij : i ≤ j) (hi : prog.moment i = some m)
    (hj : prog.moment j = some m') : m.world.promises.size ≤ m'.world.promises.size := by
  refine carry (I := fun m' => m.world.promises.size ≤ m'.world.promises.size) ?_ hij hi
    (Nat.le_refl _) hj
  intro m₁ m₂ h₁ hstep
  by_contra hlt
  have hsize : m₂.world.promises.size < m₁.world.promises.size := by omega
  obtain ⟨b, hb, -⟩ := hstep.grows (Array.getElem?_eq_getElem hsize)
  exact Nat.lt_irrefl _ (Array.getElem?_eq_some_iff.mp hb).1

/-- Once an observer of the loop was told of a value, the result is settled, and holds the value
unless it was settled before. -/
lemma settled_of_value {v : P.Value} (hresult : t.result.index < m.world.promises.size)
    (hm : prog.moment l = some m) {i : Nat} {p : PromiseId}
    (hcalls : m.Calls p i (Script.passValue t.result v)) {m' : Machine P} (hlj : l + 1 < j)
    (hm' : prog.moment j = some m') :
    (m'.world.view t.result).state ≠ .unresolved ∧
      ((m.world.view t.result).settlement? = none →
        (m'.world.view t.result).result? = some (.ok v)) := by
  obtain ⟨below, h₁⟩ := moment_of_calls hm hcalls
  obtain ⟨m₂, h₂⟩ := exists_moment_of_le (Nat.succ_le_of_lt hlj) hm'
  have hattempts : Machine.Attempts ⟨m.world, .script (Script.passValue t.result v) :: below⟩
      t.result := ⟨hresult, _, _, _, rfl⟩
  constructor
  · obtain ⟨s, hs⟩ := (step_of_moment h₁ h₂).settled_of_attempts hattempts
    rw [view_eq_of_settled (Nat.succ_le_of_lt hlj) h₂ hm' hs, View.state, hs]
    cases s <;> exact State.noConfusion
  · intro hunresolved
    have hs := settled_of_settles hlj h₁ ⟨hresult, hunresolved, _, _, rfl⟩ hm'
    rw [View.result?, hs]

/-- After an observer of the loop was told of a value, the thunk is not called any more. -/
lemma not_counts_of_value (called : ∀ j m, prog.moment j = some m → m.Counts ρ →
      ∃ n below, m.Tries t ρ n below ∧ prog.Follows t ρ b n j) (h : prog.Watches t ρ A)
    {v : P.Value} {body : Script P Unit} (hm : prog.moment l = some m)
    (hcalls : m.Calls A.promise A.observer body)
    (hv : (m.world.view A.promise).result? = some (.ok v)) (hlj : l < j) :
    ¬ prog.At j fun m => m.Counts ρ := by
  rintro ⟨m', hm', hcounts⟩
  obtain ⟨n, below, tries, -⟩ := called j m' hm' hcounts
  obtain ⟨below₀, htries, -⟩ := h.returned
  obtain ⟨hobserved, -⟩ := h.of_value hm hcalls hv
  have hlt := h.lt
  have hn := (tries_in_order htries ⟨m', hm', tries⟩).mp (by omega)
  -- the round that begins with the call says that its promise has failed
  obtain ⟨B, trace, l', h', c', hnumber, hround, -⟩ := exists_round called hn ⟨m', hm', tries⟩
  obtain ⟨below₁, htries', -⟩ := hround.reports.fails.watches.returned
  have hcalled : A.called = B.called := by
    have hle := tries_in_order htries htries'
    have hge := tries_in_order htries' htries
    omega
  obtain rfl := h.unique hround.reports.fails.watches hcalled
  obtain ⟨m₁, h₁, hcalls₁, htrace⟩ := hround.reports.fails.called
  obtain rfl := h.toldOnce.once l l' ⟨m, hm, body, hcalls⟩ ⟨m₁, h₁, _, hcalls₁⟩
  cases hm.symm.trans h₁
  cases hv.symm.trans (View.result?_of_trace? htrace)

/-! ## The law -/

/-- What a loop does from its first call on. -/
lemma law_of_tries (flat : prog.Flat) (hbefore : ∀ j < b, ¬ prog.At j fun m => m.Counts ρ)
    (hb : prog.At b fun m => m.Tries t ρ 0 below ∧ t.result.index < m.world.promises.size ∧
      Machine.ConfinedTo (.withoutRetry ρ) ⟨m.world, below⟩) : prog.RetryLaw t ρ b := by
  obtain ⟨m₀, h₀, tries₀, hresult₀, others₀⟩ := hb
  have hstages : ∀ j m, b ≤ j → prog.moment j = some m → prog.Stage t ρ b j m := fun j m hbj hm =>
    (stage_of_tries flat ⟨m₀, h₀, tries₀, others₀⟩ hbj hm).2
  have hfirst : ∀ j, prog.At j (fun m => m.Counts ρ) → b ≤ j :=
    fun j hat => Nat.not_lt.mp fun hlt => hbefore j hlt hat
  have hcalled : ∀ j m, prog.moment j = some m → m.Counts ρ →
      ∃ n below, m.Tries t ρ n below ∧ prog.Follows t ρ b n j := fun j m hm hcounts =>
    (hstages j m (hfirst j ⟨m, hm, hcounts⟩) hm).tries_of_counts hcounts
  refine
    { stages := hstages
      called := hcalled
      inOrder := fun _ _ _ _ _ _ => tries_in_order
      rounds := fun _ _ _ _ => exists_round hcalled
      returned := fun _ _ => Watches.unique
      watched := fun _ => Watches.toldOnce
      stops := ?_
      succeeds := ?_
      fails := ?_
      settles := ?_ }
  · rintro i j m s hij hi hs ⟨m', hm', hcounts⟩
    obtain ⟨n, below, tries, -⟩ := hcalled j m' hm' hcounts
    cases tries.unresolved.symm.trans (view_eq_of_settled hij hi hm' hs ▸ hs)
  · intro A v l m body h hm hcalls hv
    obtain ⟨hlt, rfl⟩ := h.of_value hm hcalls hv
    obtain ⟨below, h₁⟩ := moment_of_calls hm hcalls
    refine ⟨⟨_, h₁, rfl, _, _, rfl⟩, fun j m' hlj hm' => ?_,
      fun j hlj => not_counts_of_value hcalled h hm hcalls hv hlj⟩
    obtain ⟨below₁, ⟨m₁, hm₁, tries⟩, -⟩ := h.returned
    have hbl : b ≤ l := by
      have hle := hfirst A.called ⟨m₁, hm₁, _, _, tries.stack⟩
      have hlt' := h.lt
      omega
    have hlt := Nat.lt_of_lt_of_le hresult₀ (promises_size_le hbl h₀ hm)
    exact settled_of_value hlt hm hcalls hlj hm'
  · intro A trace l m body h hm hcalls htrace
    obtain ⟨hfails, rfl⟩ := h.of_failure hm hcalls htrace
    obtain ⟨below, h₁⟩ := moment_of_calls hm hcalls
    rw [Retry.afterFailure_eq] at h₁
    exact ⟨View.result?_of_trace? htrace, hfails, _, moment_of_operate h₁ rfl, below, rfl⟩
  · intro j m hbj hm hattempts
    by_cases htold : ∃ A l body, prog.Watches t ρ A ∧
        prog.At l (fun m => m.Calls A.promise A.observer body) ∧ j = l + 1
    · left
      obtain ⟨A, l, body, h, ⟨m₁, h₁, hcalls⟩, rfl⟩ := htold
      obtain ⟨below, h₂⟩ := moment_of_calls h₁ hcalls
      cases hm.symm.trans h₂
      obtain ⟨-, ⟨v, hv, handler⟩ | ⟨trace, -, -, handler⟩⟩ := h.toldOnce.given l m₁ body h₁ hcalls
      · cases handler
        exact ⟨A, l, v, h, rfl, m₁, h₁, hcalls, hv⟩
      · cases handler
        cases hattempts.isSettle
    · exact Or.inr ⟨(hstages j m hbj hm).outside hattempts,
        fun A l body h hcalls heq => htold ⟨A, l, body, h, hcalls, heq⟩⟩

/-- **What a retry loop does.**  In every run of a composed program in which no drive call is made
while another one is in progress, the call of a retry loop first calls the thunk, before it returns;
and from then on the loop does what the law of retry loops says (`RetryLaw`). -/
theorem keep_trying_law (composed : prog.main.Composed True) (flat : prog.Flat)
    (ha : prog.moment a =
      some ⟨w, .script ((Script.keepTrying thunk interval onError).bind k) :: rest⟩) :
    prog.At (a + 4) (fun m =>
        m.Tries ⟨⟨w.promises.size⟩, interval, thunk, onError, 0⟩ ⟨w.retries.size⟩ 0
          (.script (k ⟨w.promises.size⟩) :: rest)) ∧
      (∀ j < a + 4, ¬ prog.At j fun m => m.Counts ⟨w.retries.size⟩) ∧
      prog.RetryLaw ⟨⟨w.promises.size⟩, interval, thunk, onError, 0⟩ ⟨w.retries.size⟩ (a + 4) := by
  obtain ⟨hbefore, m, hm, tries, hresult, others⟩ := tries_of_call composed ha
  exact ⟨⟨m, hm, tries⟩, hbefore, law_of_tries flat hbefore ⟨m, hm, tries, hresult, others⟩⟩

/-- A retry loop whose first attempt fails and whose second one succeeds. -/
def secondAttempt : Retry Session.Play where
  result := ⟨0⟩
  interval := .millis 10
  thunk
    | 0 => Script.ofError (.failed "down")
    | _ + 1 => Script.ofValue (.value .null)
  onError _ := pure ()
  attempts := 0

/-- A program that calls this loop and runs tasks until none waits. -/
def retrying : Program Session.Play where
  settings := .withoutTraces
  walks _ := []
  internal := []
  store := {}
  main := do
    let _ ← Script.keepTrying secondAttempt.thunk secondAttempt.interval secondAttempt.onError
    discard Script.runAll

lemma composed_retrying : retrying.main.Composed True := by
  refine .bind (.keepTrying _ (fun n => ?_) fun _ => .pure ()) fun _ => ?_
  · cases n with
    | zero =>
      exact .bind (.once trivial) fun p =>
        .bind (.bind (.once trivial) fun _ => .pure ()) fun _ => .pure p
    | succ n =>
      exact .bind (.once trivial) fun p =>
        .bind (.bind (.once trivial) fun _ => .pure ()) fun _ => .pure p
  · exact .bind (.drive .all fun n => .pure n) fun _ => .pure ()

lemma flat_retrying : retrying.Flat := by
  refine flat_of_ends (n := 34) rfl ?_
  decide +kernel

/-- In `retrying` the second call of the thunk follows on the first one, and it is the last. -/
theorem keep_trying_law_retrying :
    retrying.RetryLaw secondAttempt ⟨0⟩ 4 ∧
      (∃ A trace l h, A.number = 0 ∧ retrying.Round secondAttempt ⟨0⟩ A trace l h 20) ∧
      (∃ m, retrying.moment 29 = some m ∧
        (m.world.view ⟨0⟩).result? = some (.ok (.value .null))) ∧
      ∀ j, 29 ≤ j → ¬ retrying.At j fun m => m.Counts ⟨0⟩ := by
  obtain ⟨w, k, rest, ha, hpromises, hretries⟩ : ∃ w k rest, retrying.moment 0 = some
        ⟨w, .script ((Script.keepTrying secondAttempt.thunk secondAttempt.interval
          secondAttempt.onError).bind k) :: rest⟩ ∧
      w.promises.size = 0 ∧ w.retries.size = 0 := ⟨_, _, _, rfl, rfl, rfl⟩
  obtain ⟨-, -, hlaw⟩ := keep_trying_law composed_retrying flat_retrying ha
  rw [hpromises, hretries] at hlaw
  have hsecond : retrying.At 20 fun m => m.Counts ⟨0⟩ ∧
      (m.world.retries[0]?).map Retry.attempts = some 1 := ⟨_, rfl, ⟨_, _, rfl⟩, rfl⟩
  obtain ⟨m, hm, hcounts, hattempts⟩ := hsecond
  obtain ⟨n, below, tries, hfollows⟩ := hlaw.called 20 m hm hcounts
  rw [tries.counted, Option.map_some, Option.some.injEq] at hattempts
  obtain ⟨m', hm', s, hs, hresult⟩ : ∃ m', retrying.moment 29 = some m' ∧ ∃ s,
      (m'.world.view ⟨0⟩).settlement? = some s ∧
        (m'.world.view ⟨0⟩).result? = some (.ok (.value .null)) := ⟨_, rfl, _, rfl, rfl⟩
  refine ⟨hlaw, ?_, ⟨m', hm', hresult⟩, fun j hj => hlaw.stops 29 j m' s hj hm' hs⟩
  obtain ⟨rfl, -⟩ | ⟨A, trace, l, h, rfl, hround⟩ := hfollows
  · cases hattempts
  · exact ⟨A, trace, l, h, Nat.succ.inj hattempts, hround⟩

end Program

end Eventual
