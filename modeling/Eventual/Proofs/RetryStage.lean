import Eventual.Proofs.Retrying

/-!
# Where a retry loop stands

At every moment exactly one thing that belongs to a retry loop is in flight: a call of its thunk,
the observer of the promise that this has given, a call of its callback for errors, the task for the
next attempt, or a short passage between two of these; or the loop is over (`Program.Stage`).
Everything else is confined to the scope without the loop, so that nothing but this one thing can go
on with it, and a step leads from one stage to the next.  The stages remember how the loop came
there, since the thunk was called last (`Program.Reports`) and from one call to the next
(`Program.Round`).
-/

namespace Eventual

variable {P : Payload}

/-- The thunk of a loop is about to be called for the `n`-th time, counted from zero. -/
structure Machine.Tries (m : Machine P) (t : Retry P) (ρ : RetryId) (n : Nat)
    (below : List (Activity P)) : Prop where
  /-- So many calls have been made before. -/
  counted : m.world.retries[ρ.index]? = some { t with attempts := n }
  /-- Nobody has settled the result yet. -/
  unresolved : (m.world.view t.result).settlement? = none
  stack : m.stack = .script (t.trial ρ n) :: below

/-- A call of the thunk of a loop, and what became of it. -/
structure Attempt where
  /-- The number of calls before it. -/
  number : Nat
  /-- The moment of the call. -/
  called : Nat
  /-- The promise that it has returned. -/
  promise : PromiseId
  /-- The moment at which it has returned, and the promise is observed. -/
  observed : Nat
  /-- The number of observers that the promise had before. -/
  observer : Nat

namespace Program

/-! ## From one call of the thunk to the next -/

/-- A call of the thunk has returned a promise, on which an observer is about to be registered. -/
structure Watches (prog : Program P) (t : Retry P) (ρ : RetryId) (A : Attempt) : Prop where
  lt : A.called < A.observed
  /-- The call was made, was under way ever since, and has returned. -/
  returned : ∃ below, prog.At A.called (fun m => m.Tries t ρ A.number below) ∧
    prog.At A.observed (fun m => m.stack = .script (t.await ρ A.number A.promise) :: below) ∧
    ∀ i, A.called < i → i ≤ A.observed → prog.At i fun m => m.Above below
  registered : prog.At A.observed fun m =>
    A.promise.index < m.world.promises.size ∧ m.world.observed A.promise = A.observer

/-- The promise of an attempt has failed, and at moment `l` the observer is about to be called with
the trace of the failure. -/
structure Fails (prog : Program P) (t : Retry P) (ρ : RetryId) (A : Attempt)
    (trace : Trace P.Error) (l : Nat) : Prop where
  watches : prog.Watches t ρ A
  lt : A.observed < l
  called : prog.At l fun m =>
    m.Calls A.promise A.observer (t.afterFailure ρ (A.number + 1) trace) ∧
      (m.world.view A.promise).trace? = some trace

/-- The callback for errors was called with the trace of the failure, and has returned at moment
`h`, when the next attempt is about to be set for later.  No time has passed. -/
structure Reports (prog : Program P) (t : Retry P) (ρ : RetryId) (A : Attempt)
    (trace : Trace P.Error) (l h : Nat) : Prop where
  fails : prog.Fails t ρ A trace l
  lt : l + 2 < h
  /-- The call was made, was under way ever since, and has returned. -/
  returned : ∃ below, prog.At (l + 2) (fun m =>
      m.stack = .script ((t.onError trace).bind fun _ => t.again ρ) :: below) ∧
    prog.At h (fun m => m.stack = .script (t.pause ρ) :: below) ∧
    ∀ i, l + 2 ≤ i → i ≤ h → prog.At i fun m => m.Above below
  instant : ∀ m m', prog.moment l = some m → prog.moment h = some m' →
    m'.world.clock = m.world.clock

/-- After an attempt that has failed the next one is made at moment `c`, the interval of the loop
after the failure was told. -/
structure Round (prog : Program P) (t : Retry P) (ρ : RetryId) (A : Attempt)
    (trace : Trace P.Error) (l h c : Nat) : Prop where
  reports : prog.Reports t ρ A trace l h
  lt : h < c
  instant : ∀ m m', prog.moment l = some m → prog.moment c = some m' →
    m.world.clock.add? t.interval = some m'.world.clock

/-- The thunk is called for the `n`-th time at moment `j`: it is the first call, at moment `b`, or
follows on an attempt that has failed. -/
def Follows (prog : Program P) (t : Retry P) (ρ : RetryId) (b n j : Nat) : Prop :=
  (n = 0 ∧ j = b) ∨ ∃ A trace l h, n = A.number + 1 ∧ prog.Round t ρ A trace l h j

/-! ## The stages -/

/-- Where a loop stands at moment `j`, if its thunk was called at moment `b` for the first time. -/
inductive Stage (prog : Program P) (t : Retry P) (ρ : RetryId) (b j : Nat) (m : Machine P) : Prop
  /-- The thunk is about to be called. -/
  | trying {n : Nat} {below : List (Activity P)} (tries : m.Tries t ρ n below)
      (follows : prog.Follows t ρ b n j)
      (others : Machine.ConfinedTo (.withoutRetry ρ) ⟨m.world, below⟩)
  /-- The thunk was called, and the call is under way. -/
  | thinking {n c : Nat} {above below : List (Activity P)} {x : Activity P}
      (call : prog.At c fun m => m.Tries t ρ n below) (lt : c < j)
      (during : ∀ i, c < i → i ≤ j → prog.At i fun m => m.Above below)
      (counted : m.world.retries[ρ.index]? = some { t with attempts := n + 1 })
      (stack : m.stack = above ++ x :: below)
      (resumes : x.Resumes (.withoutRetry ρ) (t.thunk n) (t.await ρ n))
      (others : Machine.ConfinedTo (.withoutRetry ρ) ⟨m.world, above ++ below⟩)
  /-- An observer waits for the promise that a call of the thunk has given, or for its turn to be
  told. -/
  | awaiting {A : Attempt} (watches : prog.Watches t ρ A) (lt : A.observed < j)
      (counted : m.world.retries[ρ.index]? = some { t with attempts := A.number + 1 })
      (others : m.ConfinedSave (.withoutRetry ρ) (fun p i => p = A.promise ∧ i = A.observer)
        fun _ => False)
  /-- The observer was told of a failure. -/
  | reporting {A : Attempt} {trace : Trace P.Error} {l : Nat} {o : Outcome P.Value P.Error}
      {rs : List (Registration P)} {below : List (Activity P)} (fails : prog.Fails t ρ A trace l)
      (now : j = l + 1)
      (counted : m.world.retries[ρ.index]? = some { t with attempts := A.number + 1 })
      (stack : m.stack = .script (t.afterFailure ρ (A.number + 1) trace) ::
        .delivery A.promise o rs :: below)
      (others : Machine.ConfinedTo (.withoutRetry ρ) ⟨m.world, .delivery A.promise o rs :: below⟩)
  /-- The callback for errors was called, and the call is under way. -/
  | telling {A : Attempt} {trace : Trace P.Error} {l : Nat} {o : Outcome P.Value P.Error}
      {rs : List (Registration P)} {above below : List (Activity P)} {x : Activity P}
      (fails : prog.Fails t ρ A trace l) (lt : l + 2 ≤ j)
      (call : prog.At (l + 2) fun m => m.stack =
        .script ((t.onError trace).bind fun _ => t.again ρ) :: .delivery A.promise o rs :: below)
      (during : ∀ i, l < i → i ≤ j →
        prog.At i fun m => m.Above (.delivery A.promise o rs :: below))
      (counted : m.world.retries[ρ.index]? = some { t with attempts := A.number + 1 })
      (stack : m.stack = above ++ x :: .delivery A.promise o rs :: below)
      (resumes : x.Resumes (.withoutRetry ρ) (t.onError trace) fun _ => t.again ρ)
      (others : Machine.ConfinedTo (.withoutRetry ρ)
        ⟨m.world, above ++ .delivery A.promise o rs :: below⟩)
  /-- The next attempt is about to be set for later. -/
  | pausing {A : Attempt} {trace : Trace P.Error} {l : Nat} {below : List (Activity P)}
      (reports : prog.Reports t ρ A trace l j)
      (counted : m.world.retries[ρ.index]? = some { t with attempts := A.number + 1 })
      (stack : m.stack = .script (t.pause ρ) :: below)
      (others : Machine.ConfinedTo (.withoutRetry ρ) ⟨m.world, below⟩)
  /-- A task waits for the instant of the next attempt. -/
  | resting {A : Attempt} {trace : Trace P.Error} {l h : Nat} {u : Task (Work P)}
      (reports : prog.Reports t ρ A trace l h) (lt : h < j)
      (counted : m.world.retries[ρ.index]? = some { t with attempts := A.number + 1 })
      (waits : u ∈ m.world.queue.waiting) (body : u.body = .script (.attempt ρ (.pure ())))
      (instant : ∀ m, prog.moment l = some m → m.world.clock.add? t.interval = some u.due)
      (others : m.ConfinedSave (.withoutRetry ρ) (fun _ _ => False) (· = u.turn))
  /-- The task for the next attempt was started. -/
  | starting {A : Attempt} {trace : Trace P.Error} {l h : Nat} {below : List (Activity P)}
      (reports : prog.Reports t ρ A trace l h) (lt : h < j)
      (counted : m.world.retries[ρ.index]? = some { t with attempts := A.number + 1 })
      (stack : m.stack = .script (.attempt ρ (.pure ())) :: below)
      (instant : ∀ m₀, prog.moment l = some m₀ →
        m₀.world.clock.add? t.interval = some m.world.clock)
      (others : Machine.ConfinedTo (.withoutRetry ρ) ⟨m.world, below⟩)
  /-- The result is about to be looked at, whether it is still unresolved. -/
  | looking {A : Attempt} {trace : Trace P.Error} {l h : Nat} {below : List (Activity P)}
      (reports : prog.Reports t ρ A trace l h) (lt : h < j)
      (counted : m.world.retries[ρ.index]? = some { t with attempts := A.number + 1 })
      (stack : m.stack =
        .script (({ t with attempts := A.number + 1 } : Retry P).nextAttempt ρ) :: below)
      (instant : ∀ m₀, prog.moment l = some m₀ →
        m₀.world.clock.add? t.interval = some m.world.clock)
      (others : Machine.ConfinedTo (.withoutRetry ρ) ⟨m.world, below⟩)
  /-- Nothing belongs to the loop any more. -/
  | ended (others : m.ConfinedTo (.withoutRetry ρ))

/-! ## From one stage to the next -/

namespace Watches

variable {prog : Program P} {t : Retry P} {ρ : RetryId} {A : Attempt}

lemma observes (h : prog.Watches t ρ A) : prog.At A.observed fun m =>
    m.Observes A.promise (t.watcher ρ A.number) ∧ m.world.observed A.promise = A.observer := by
  obtain ⟨below, -, ⟨m, hm, hstack⟩, -⟩ := h.returned
  obtain ⟨m', hm', hindex, hobserved⟩ := h.registered
  cases hm.symm.trans hm'
  exact ⟨m, hm, ⟨hindex, _, _, hstack⟩, hobserved⟩

lemma toldOnce (h : prog.Watches t ρ A) :
    prog.ToldOnce A.observed A.promise A.observer (t.watcher ρ A.number) := by
  obtain ⟨m, hm, hobserves, hobserved⟩ := h.observes
  rw [← hobserved]
  exact Program.toldOnce hm hobserves

end Watches

namespace Stage

variable {prog : Program P} {t : Retry P} {ρ : RetryId} {b j n c l h : Nat} {m m' : Machine P}
  {A : Attempt} {trace : Trace P.Error} {o : Outcome P.Value P.Error} {rs : List (Registration P)}
  {above below : List (Activity P)} {x : Activity P} {u : Task (Work P)}

/-- What the loop was given is confined. -/
lemma given {t₀ : Retry P} (counted : m.world.retries[ρ.index]? = some { t₀ with attempts := n })
    (others : Machine.ConfinedTo (.withoutRetry ρ) ⟨m.world, below⟩) :
    (∀ n, (t₀.thunk n).ConfinedTo (.withoutRetry ρ)) ∧
      ∀ trace, (t₀.onError trace).ConfinedTo (.withoutRetry ρ) := by
  obtain ⟨hthunk, honError⟩ := others.world.loops ρ.index _ counted
  exact ⟨hthunk, fun trace => honError trace trivial⟩

lemma of_trying (hm : prog.moment j = some m) (hm' : prog.moment (j + 1) = some m')
    (tries : m.Tries t ρ n below)
    (others : Machine.ConfinedTo (.withoutRetry ρ) ⟨m.world, below⟩) :
    prog.Stage t ρ b (j + 1) m' := by
  obtain ⟨hthunk, -⟩ := given tries.counted others
  have hstep := step_of_moment hm hm'
  obtain ⟨w, stack⟩ := m
  obtain ⟨counted, -, rfl⟩ := id tries
  have counted' : m'.world.retries[ρ.index]? = some { t with attempts := n + 1 } := by
    rcases hstep.retries counted with ⟨-, hnext⟩ | ⟨hno, -⟩
    · exact hnext
    · exact absurd ⟨_, _, rfl⟩ hno
  cases hstep with
  | @operate _ w' _ _ _ _ _ performed =>
    cases performed
    have hstack : Activity.script ((t.thunk n).bind (t.await ρ n)) :: below =
        [] ++ .script ((t.thunk n).bind (t.await ρ n)) :: below := rfl
    have habove : prog.At (j + 1) fun m => m.Above below := ⟨_, hm', [_], by simp, rfl⟩
    refine .thinking ⟨_, hm, tries⟩ (Nat.lt_succ_self j) (fun i hi hle => ?_) counted' hstack
      (.script .all (hthunk n)) ⟨?_, others.stack⟩
    · obtain rfl : i = j + 1 := Nat.le_antisymm hle hi
      exact habove
    · exact others.world.perform (o := .countAttempt ρ) trivial rfl

lemma of_thinking (hm : prog.moment j = some m) (hm' : prog.moment (j + 1) = some m')
    (call : prog.At c fun m => m.Tries t ρ n below) (lt : c < j)
    (during : ∀ i, c < i → i ≤ j → prog.At i fun m => m.Above below)
    (counted : m.world.retries[ρ.index]? = some { t with attempts := n + 1 })
    (stack : m.stack = above ++ x :: below)
    (resumes : x.Resumes (.withoutRetry ρ) (t.thunk n) (t.await ρ n))
    (others : Machine.ConfinedTo (.withoutRetry ρ) ⟨m.world, above ++ below⟩) :
    prog.Stage t ρ b (j + 1) m' := by
  have hstep := step_of_moment hm hm'
  obtain ⟨w, stack⟩ := m
  cases stack
  rcases hstep.resumes_below counted others resumes with
    ⟨rfl, p, rfl⟩ | ⟨counted', above', y, hstack, hy, others'⟩
  · -- the call returns, and its promise is observed
    have counted' := hstep.retries_eq counted fun hcounts => nomatch hcounts.isCount
    cases hstep with
    | operate performed =>
      cases performed
      have hrest : ∀ exempt : PromiseId → Nat → Prop, ∀ y ∈ Activity.script (.pure ()) :: below,
          y.ConfinedTo (.withoutRetry ρ) exempt := by
        intro exempt y hy
        rcases List.mem_cons.mp hy with rfl | hy
        · exact .pure ()
        · exact (others.stack y hy).mono fun _ _ h => h.elim
      by_cases hp : p.index < w.promises.size
      · have watches : prog.Watches t ρ ⟨n, c, p, j, w.observed p⟩ :=
          ⟨lt, ⟨below, call, ⟨_, hm, rfl⟩, during⟩, _, hm, hp, rfl⟩
        refine .awaiting watches (Nat.lt_succ_self j) counted' ⟨?_, hrest _⟩
        have hw : w.ConfinedTo (.withoutRetry ρ) (fun q i => q = p ∧ i = w.observed p)
            fun _ => False := others.world.mono (fun _ _ h => h.elim) fun _ h => h
        exact hw.perform (o := .observe p (t.watcher ρ n)) (Or.inl ⟨rfl, rfl⟩) rfl
      · -- there is no such promise
        have hsame : w.observe p (t.watcher ρ n) = w :=
          World.observe_missing (Array.getElem?_eq_none (Nat.not_lt.mp hp))
        refine .ended ⟨?_, hrest _⟩
        change World.ConfinedTo _ _ _ (w.observe p (t.watcher ρ n))
        rw [hsame]
        exact others.world
  · refine .thinking call (Nat.lt_succ_of_lt lt) (fun i hi hle => ?_) counted' hstack hy others'
    rcases Nat.le_succ_iff.mp hle with hle | rfl
    · exact during i hi hle
    · exact ⟨m', hm', above' ++ [y], by simp, by simp [hstack]⟩

lemma of_awaiting (hm : prog.moment j = some m) (hm' : prog.moment (j + 1) = some m')
    (watches : prog.Watches t ρ A) (lt : A.observed < j)
    (counted : m.world.retries[ρ.index]? = some { t with attempts := A.number + 1 })
    (others : m.ConfinedSave (.withoutRetry ρ) (fun p i => p = A.promise ∧ i = A.observer)
      fun _ => False) :
    prog.Stage t ρ b (j + 1) m' := by
  have hstep := step_of_moment hm hm'
  have counted' := hstep.retries_eq counted others.not_counts
  have announces : World.Announces (.withoutRetry ρ) m.world m'.world :=
    World.announces_withoutRetry (Array.getElem?_eq_some_iff.mp counted).1
  rcases hstep.confinedSave others announces with
    others' | ⟨_, _, body, ⟨rfl, rfl⟩, hcalls, hworld, o, rs, rest, hstack, hrest⟩ | ⟨_, -, hfalse⟩
  · exact .awaiting watches (Nat.lt_succ_of_lt lt) counted' others'
  · -- the observer is told, and no other one has its number
    have hgone := hstep.knows_of_calls (fate hm hm' _) (numbered hm _) hcalls
    have others' : Machine.ConfinedTo (.withoutRetry ρ)
        ⟨m.world, .delivery A.promise o rs :: rest⟩ := by
      refine hrest.confinedTo ?_ fun _ _ => id
      rintro p r hr ⟨rfl, hnumber⟩
      refine hgone.outstanding r ?_ hnumber
      rw [← Machine.outstanding_script _ body, ← hworld, ← hstack] at hr
      exact hr
    obtain ⟨-, ⟨v, -, handler⟩ | ⟨trace, -, htrace, handler⟩⟩ :=
      watches.toldOnce.given j m body hm hcalls
    · cases handler
      refine .ended ⟨hworld ▸ others'.world, fun y hy => ?_⟩
      rw [hstack] at hy
      rcases List.mem_cons.mp hy with rfl | hy
      · exact Script.confinedTo_passValue t.result v
      · exact others'.stack y hy
    · cases handler
      exact .reporting ⟨watches, lt, m, hm, hcalls, htrace⟩ rfl counted' hstack (hworld ▸ others')
  · exact hfalse.elim

lemma of_reporting (hm : prog.moment j = some m) (hm' : prog.moment (j + 1) = some m')
    (fails : prog.Fails t ρ A trace l) (now : j = l + 1)
    (counted : m.world.retries[ρ.index]? = some { t with attempts := A.number + 1 })
    (stack : m.stack = .script (t.afterFailure ρ (A.number + 1) trace) ::
      .delivery A.promise o rs :: below)
    (others : Machine.ConfinedTo (.withoutRetry ρ)
      ⟨m.world, .delivery A.promise o rs :: below⟩) :
    prog.Stage t ρ b (j + 1) m' := by
  obtain ⟨-, honError⟩ := given counted others
  have hstep := step_of_moment hm hm'
  obtain ⟨w, stack⟩ := m
  cases stack
  have counted' := hstep.retries_eq counted fun hcounts => nomatch hcounts.isCount
  cases hstep with
  | operate performed =>
    cases performed
    have hstack : Activity.script ((t.onError trace).bind fun _ => t.again ρ) ::
        .delivery A.promise o rs :: below =
          [] ++ .script ((t.onError trace).bind fun _ => t.again ρ) ::
            .delivery A.promise o rs :: below := rfl
    subst now
    refine .telling fails (Nat.le_refl _) ⟨_, hm', rfl⟩ (fun i hi hle => ?_) counted' hstack
      (.script .all (honError trace)) ⟨?_, others.stack⟩
    · rcases Nat.le_succ_iff.mp hle with hle | rfl
      · obtain rfl : i = l + 1 := Nat.le_antisymm hle hi
        exact ⟨_, hm, [_], by simp, rfl⟩
      · exact ⟨_, hm', [_], by simp, rfl⟩
    · exact others.world.emit _

lemma of_telling (flat : prog.Flat) (hm : prog.moment j = some m)
    (hm' : prog.moment (j + 1) = some m') (fails : prog.Fails t ρ A trace l) (lt : l + 2 ≤ j)
    (call : prog.At (l + 2) fun m => m.stack =
      .script ((t.onError trace).bind fun _ => t.again ρ) :: .delivery A.promise o rs :: below)
    (during : ∀ i, l < i → i ≤ j → prog.At i fun m => m.Above (.delivery A.promise o rs :: below))
    (counted : m.world.retries[ρ.index]? = some { t with attempts := A.number + 1 })
    (stack : m.stack = above ++ x :: .delivery A.promise o rs :: below)
    (resumes : x.Resumes (.withoutRetry ρ) (t.onError trace) fun _ => t.again ρ)
    (others : Machine.ConfinedTo (.withoutRetry ρ)
      ⟨m.world, above ++ .delivery A.promise o rs :: below⟩) :
    prog.Stage t ρ b (j + 1) m' := by
  have hstep := step_of_moment hm hm'
  have habove : ∀ above', m'.stack = above' ++ .delivery A.promise o rs :: below → above' ≠ [] →
      ∀ i, l < i → i ≤ j + 1 → prog.At i fun m => m.Above (.delivery A.promise o rs :: below) := by
    intro above' hstack hne i hi hle
    rcases Nat.le_succ_iff.mp hle with hle | rfl
    · exact during i hi hle
    · exact ⟨m', hm', above', hne, hstack⟩
  obtain ⟨w, stack⟩ := m
  cases stack
  rcases hstep.resumes_below counted others resumes with
    ⟨rfl, -, rfl⟩ | ⟨counted', above', y, hstack, hy, others'⟩
  · -- the call returns
    have counted' := hstep.retries_eq counted fun hcounts => nomatch hcounts.isCount
    cases hstep with
    | operate performed =>
      cases performed
      have hlast := habove [.script (t.pause ρ)] rfl (by simp)
      refine .pausing ⟨fails, Nat.lt_succ_of_le lt, ⟨_, call, ⟨_, hm', rfl⟩,
        fun i hi hle => hlast i (by omega) hle⟩, ?_⟩ counted' rfl ⟨?_, others.stack⟩
      · -- the clock stands still above the delivery
        intro ml mh hml hmh
        obtain ⟨m₀, h₀, hcalls, -⟩ := fails.called
        cases hml.symm.trans h₀
        obtain ⟨m₁, h₁⟩ := exists_moment_of_le (i := l + 1) (by omega) hm
        have hclock := flat.passive.clock_eq_of_above (by omega) h₁ hmh
          fun i hi hlt => hlast i (by omega) (by omega)
        exact hclock.trans (clock_of_calls hml hcalls h₁)
      · exact others.world.emit _
  · have hsplit : m'.stack = (above' ++ [y]) ++ .delivery A.promise o rs :: below := by
      simp [hstack]
    exact .telling fails (Nat.le_succ_of_le lt) call (habove _ hsplit (by simp)) counted' hstack hy
      others'

lemma of_pausing (hm : prog.moment j = some m) (hm' : prog.moment (j + 1) = some m')
    (reports : prog.Reports t ρ A trace l j)
    (counted : m.world.retries[ρ.index]? = some { t with attempts := A.number + 1 })
    (stack : m.stack = .script (t.pause ρ) :: below)
    (others : Machine.ConfinedTo (.withoutRetry ρ) ⟨m.world, below⟩) :
    prog.Stage t ρ b (j + 1) m' := by
  have hstep := step_of_moment hm hm'
  obtain ⟨w, stack⟩ := m
  cases stack
  have counted' := hstep.retries_eq counted fun hcounts => nomatch hcounts.isCount
  cases hstep with
  | @operate _ w' _ _ _ _ _ performed =>
    obtain ⟨due, hdue, hw'⟩ := World.schedule_eq_answer_iff.mp performed
    have others' : World.ConfinedTo (.withoutRetry ρ) (fun _ _ => False)
        (· = w.queue.scheduled) w' := by
      have hw : w.ConfinedTo (.withoutRetry ρ) (fun _ _ => False) (· = w.queue.scheduled) :=
        others.world.mono (fun _ _ h => h) fun _ h => h.elim
      exact hw.perform (o := .schedule t.interval (.attempt ρ (.pure ()))) (Or.inl rfl) performed
    subst hw'
    refine .resting (u := ⟨due, w.queue.scheduled, .script (.attempt ρ (.pure ()))⟩) reports
      (Nat.lt_succ_self j) counted' (Queue.mem_insertTask.mpr (Or.inl rfl)) rfl ?_ ⟨others', ?_⟩
    · intro ml hml
      rw [← reports.instant ml _ hml hm]
      exact hdue
    · intro y hy
      rcases List.mem_cons.mp hy with rfl | hy
      · exact .pure ()
      · exact others.stack y hy

lemma of_resting (hm : prog.moment j = some m) (hm' : prog.moment (j + 1) = some m')
    (reports : prog.Reports t ρ A trace l h) (lt : h < j)
    (counted : m.world.retries[ρ.index]? = some { t with attempts := A.number + 1 })
    (waits : u ∈ m.world.queue.waiting) (body : u.body = .script (.attempt ρ (.pure ())))
    (instant : ∀ m, prog.moment l = some m → m.world.clock.add? t.interval = some u.due)
    (others : m.ConfinedSave (.withoutRetry ρ) (fun _ _ => False) (· = u.turn)) :
    prog.Stage t ρ b (j + 1) m' := by
  have hstep := step_of_moment hm hm'
  have counted' := hstep.retries_eq counted others.not_counts
  have announces : World.Announces (.withoutRetry ρ) m.world m'.world :=
    World.announces_withoutRetry (Array.getElem?_eq_some_iff.mp counted).1
  rcases hstep.waiting_or_starts waits with waits' | hstarts
  · rcases hstep.confinedSave others announces with
      others' | ⟨_, _, _, hfalse, -⟩ | ⟨u', hstarts, hturn⟩
    · exact .resting reports (Nat.lt_succ_of_lt lt) counted' waits' body instant others'
    · exact hfalse.elim
    · -- a task that has started has a turn behind it that no other one has
      exact absurd hturn ((hstarts.passed (timely hm) hstep).precedes u waits').2
  · have hpassed := hstarts.passed (timely hm) hstep
    have hclock := hstarts.clock_eq (timely hm) hstep
    obtain ⟨w, stack⟩ := m
    obtain ⟨hor, ran, k, rest, q, rfl, taken⟩ := hstarts
    cases hstep.unique (.start taken)
    have hwaiting := (Queue.next?_eq_some_iff.mp taken).1
    have hrest : Machine.ConfinedSave (.withoutRetry ρ) (fun _ _ => False) (· = u.turn)
        ⟨{ w with queue := q, clock := w.clock.later u.due }, .drive hor (ran + 1) k :: rest⟩ := by
      refine ⟨⟨others.world.traces, others.world.waiting,
        fun v hv => others.world.tasks v (hwaiting ▸ .tail u hv), others.world.loops⟩,
        fun y hy => ?_⟩
      rcases List.mem_cons.mp hy with rfl | hy
      · have hdrive : (Activity.drive hor ran k).ConfinedTo (.withoutRetry ρ) fun _ _ => False :=
          others.stack _ (.head rest)
        exact hdrive
      · exact others.stack y (.tail _ hy)
    refine .starting reports (Nat.lt_succ_of_lt lt) counted' (congrArg (· :: _) ?_) ?_
      (hrest.confinedTo (fun _ _ _ => id) fun v hv heq => (hpassed.precedes v hv).2 heq.symm)
    · rw [body]
      rfl
    · rw [hclock]
      exact instant

lemma of_starting (hm : prog.moment j = some m) (hm' : prog.moment (j + 1) = some m')
    (reports : prog.Reports t ρ A trace l h) (lt : h < j)
    (counted : m.world.retries[ρ.index]? = some { t with attempts := A.number + 1 })
    (stack : m.stack = .script (.attempt ρ (.pure ())) :: below)
    (instant : ∀ m₀, prog.moment l = some m₀ →
      m₀.world.clock.add? t.interval = some m.world.clock)
    (others : Machine.ConfinedTo (.withoutRetry ρ) ⟨m.world, below⟩) :
    prog.Stage t ρ b (j + 1) m' := by
  have hstep := step_of_moment hm hm'
  obtain ⟨w, stack⟩ := m
  cases stack
  cases hstep with
  | attempt =>
    have hnext : w.nextAttempt ρ =
        ({ t with attempts := A.number + 1 } : Retry P).nextAttempt ρ := by
      simp only [World.nextAttempt, counted]
    have hstack : Activity.script (w.nextAttempt ρ) :: .script (.pure ()) :: below =
        .script (({ t with attempts := A.number + 1 } : Retry P).nextAttempt ρ) ::
          .script (.pure ()) :: below := by rw [hnext]
    refine .looking reports (Nat.lt_succ_of_lt lt) counted hstack instant
      ⟨others.world, fun y hy => ?_⟩
    rcases List.mem_cons.mp hy with rfl | hy
    · exact .pure ()
    · exact others.stack y hy

lemma of_looking (hm : prog.moment j = some m) (hm' : prog.moment (j + 1) = some m')
    (reports : prog.Reports t ρ A trace l h) (lt : h < j)
    (counted : m.world.retries[ρ.index]? = some { t with attempts := A.number + 1 })
    (stack : m.stack =
      .script (({ t with attempts := A.number + 1 } : Retry P).nextAttempt ρ) :: below)
    (instant : ∀ m₀, prog.moment l = some m₀ →
      m₀.world.clock.add? t.interval = some m.world.clock)
    (others : Machine.ConfinedTo (.withoutRetry ρ) ⟨m.world, below⟩) :
    prog.Stage t ρ b (j + 1) m' := by
  have hstep := step_of_moment hm hm'
  obtain ⟨w, stack⟩ := m
  rw [Retry.nextAttempt_eq] at stack
  cases stack
  cases hstep with
  | operate performed =>
    cases performed
    rcases hsettled : (w.view t.result).isSettled with _ | _
    · -- the result is unresolved, and the thunk is called again
      have hunresolved : (w.view t.result).settlement? = none := by
        rcases hs : (w.view t.result).settlement? with _ | s
        · rfl
        · simp [View.isSettled, View.state, hs] at hsettled
          cases s <;> cases hsettled
      refine .trying (n := A.number + 1) ⟨counted, hunresolved, ?_⟩
        (Or.inr ⟨A, trace, l, h, rfl, reports, Nat.lt_succ_of_lt lt, ?_⟩) others
      · simp [hsettled]
      · intro ml mc hml hmc
        cases hm'.symm.trans hmc
        exact instant ml hml
    · refine .ended ⟨others.world, fun y hy => ?_⟩
      simp only [hsettled, if_true] at hy
      rcases List.mem_cons.mp hy with rfl | hy
      · exact Script.confinedTo_emit _
      · exact others.stack y hy

/-- **From one moment to the next.**  A loop makes one step from stage to stage, or stays where it
is. -/
theorem succ (flat : prog.Flat) (hρ : ρ.index < m.world.retries.size)
    (hm : prog.moment j = some m) (hm' : prog.moment (j + 1) = some m')
    (hstage : prog.Stage t ρ b j m) : prog.Stage t ρ b (j + 1) m' := by
  cases hstage with
  | trying tries _ others => exact of_trying hm hm' tries others
  | thinking call lt during counted stack resumes others =>
    exact of_thinking hm hm' call lt during counted stack resumes others
  | awaiting watches lt counted others => exact of_awaiting hm hm' watches lt counted others
  | reporting fails now counted stack others =>
    exact of_reporting hm hm' fails now counted stack others
  | telling fails lt call during counted stack resumes others =>
    exact of_telling flat hm hm' fails lt call during counted stack resumes others
  | pausing reports counted stack others => exact of_pausing hm hm' reports counted stack others
  | resting reports lt counted waits body instant others =>
    exact of_resting hm hm' reports lt counted waits body instant others
  | starting reports lt counted stack instant others =>
    exact of_starting hm hm' reports lt counted stack instant others
  | looking reports lt counted stack instant others =>
    exact of_looking hm hm' reports lt counted stack instant others
  | ended others =>
    exact .ended ((step_of_moment hm hm').confinedTo others (World.announces_withoutRetry hρ))

end Stage

end Program

end Eventual
