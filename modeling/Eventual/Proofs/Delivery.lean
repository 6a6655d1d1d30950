import Eventual.Proofs.Registration

/-!
# Callbacks run once, and never at once

Whoever is registered on a promise is told exactly once how it ended, whether it was registered
before or after the settlement: `Program.ToldOnce` says what this means for one registration.  The
callbacks run in deliveries, and a delivery is a task that a drive has started; so no operation and
no combinator runs a callback of anybody, unless a drive call is made in it.
-/

namespace Eventual

variable {P : Payload}

/-- Something is under way on top of some activities. -/
def Machine.Above (m : Machine P) (below : List (Activity P)) : Prop :=
  ∃ above, above ≠ [] ∧ m.stack = above ++ below

namespace Program

/-- A task is under way: a drive has started it, and lies below it ever since. -/
def Runs (prog : Program P) (n : Nat) (t : Task (Work P)) (below : List (Activity P)) : Prop :=
  ∃ h ran k rest i, below = .drive h (ran + 1) k :: rest ∧ i < n ∧
    prog.At i (fun m => m.stack = .drive h ran k :: rest ∧ m.Starts t) ∧
    ∀ j, i < j → j ≤ n → prog.At j fun m => m.Above below

/-- What it means that the `n`-th observer of a promise, registered at moment `i`, is told once. -/
structure ToldOnce (prog : Program P) (i : Nat) (p : PromiseId) (n : Nat) (ob : Observer P) :
    Prop where
  /-- Its callback runs later, for the side that occurred, and with the value or with the error and
  the trace of the promise. -/
  given : ∀ j m body, prog.moment j = some m → m.Calls p n body → i < j ∧
    ((∃ v, (m.world.view p).result? = some (.ok v) ∧
        ob.handler? (.succeeded v) = some body) ∨
      ∃ t, (m.world.view p).result? = some (.error t.error) ∧
        (m.world.view p).trace? = some t ∧ ob.handler? (.failed t) = some body)
  /-- Its callback runs in a delivery that is a task started by a drive. -/
  inTask : ∀ j m body, prog.moment j = some m → m.Calls p n body →
    ∃ t o rs rs₀ below, t.body = .delivery p o rs₀ ∧ m.stack = .delivery p o rs :: below ∧
      prog.Runs j t below
  /-- Its callback runs at most once. -/
  once : ∀ j j', prog.At j (fun m => ∃ body, m.Calls p n body) →
    prog.At j' (fun m => ∃ body, m.Calls p n body) → j = j'
  /-- When the promise has ended as it waits for, no task waits and no delivery of the promise under
  way has callbacks left, its callback has run. -/
  told : ∀ j m o, i < j → prog.moment j = some m → (m.world.view p).outcome? = some o →
    ob.awaits o = true → m.world.queue.waiting = [] →
    (∀ o rs, .delivery p o rs ∈ m.stack → rs = []) →
    ∃ l, i < l ∧ l < j ∧ prog.At l fun m => ∃ body, m.Calls p n body

end Program

/-! ## One registration, step by step -/

namespace Machine

/-- The `n`-th observer of a promise has been registered, and while it is outstanding it has a
property. -/
structure Knows (m : Machine P) (p : PromiseId) (n : Nat) (Q : Observer P → Prop) : Prop where
  lt_observed : n < m.world.observed p
  outstanding : ∀ r ∈ m.outstanding p, r.number = n → Q r.observer

variable {m m' : Machine P} {p : PromiseId} {n : Nat} {ob : Observer P} {Q : Observer P → Prop}

lemma Fate.knows (h : Fate m m' p) (hm : m.Knows p n Q) : m'.Knows p n Q := by
  refine ⟨Nat.lt_of_lt_of_le hm.lt_observed h.observed_le, fun r hr hn => ?_⟩
  rcases h.mem_before hr with hr | ⟨heq, -, -⟩
  · exact hm.outstanding r hr hn
  · exact absurd hm.lt_observed (by rw [← hn, heq]; exact Nat.lt_irrefl _)

/-- After its registration an observer is outstanding, unless it waits for something else than what
the promise has ended with. -/
lemma Fate.of_observes (h : Fate m m' p) (hm : m.Numbered p) (hob : m.Observes p ob) :
    m'.Knows p (m.world.observed p) (· = ob) ∧
      (⟨m.world.observed p, ob⟩ ∈ m'.outstanding p ∨
        ∃ o, (m'.world.view p).outcome? = some o ∧ ¬ ob.awaits o = true) := by
  have hother : ∀ ob', m.Observes p ob' → ob' = ob := by
    rintro ob' ⟨-, _, _, hstack'⟩
    obtain ⟨-, _, _, hstack⟩ := hob
    cases hstack.symm.trans hstack'
    rfl
  have hold : ∀ r ∈ m.outstanding p, r.number ≠ m.world.observed p :=
    fun r hr => Nat.ne_of_lt (hm.lt_observed r hr)
  cases h with
  | keep _ silent => exact absurd hob (silent ob)
  | register ob' observes outstanding observed =>
    cases hother ob' observes
    rw [outstanding]
    refine ⟨⟨by rw [observed]; exact Nat.lt_succ_self _, fun r hr hn => ?_⟩,
      Or.inl (Multiset.mem_cons_self _ _)⟩
    rw [outstanding] at hr
    rcases Multiset.mem_cons.mp hr with rfl | hr
    · rfl
    · exact absurd hn (hold r hr)
  | miss ob' observes unmatched outstanding observed =>
    cases hother ob' observes
    refine ⟨⟨by rw [observed]; exact Nat.lt_succ_self _, fun r hr hn => ?_⟩, Or.inr unmatched⟩
    exact absurd hn (hold r (outstanding ▸ hr))
  | call _ _ calls =>
    obtain ⟨_, _, _, _, hstack, -, -⟩ := calls
    obtain ⟨-, _, _, hstack'⟩ := hob
    cases hstack.symm.trans hstack'

/-- Nothing is outstanding once the promise is settled, no task waits and the deliveries of the
promise that are under way have no callbacks left. -/
lemma outstanding_eq_zero {o : Outcome P.Value P.Error}
    (hsettled : (m.world.view p).outcome? = some o) (hqueue : m.world.queue.waiting = [])
    (hstack : ∀ o rs, .delivery p o rs ∈ m.stack → rs = []) : m.outstanding p = 0 := by
  obtain ⟨s, hs, -⟩ := Option.map_eq_some_iff.mp hsettled
  obtain ⟨a, ha, hslot⟩ := World.settlement?_view_eq_some_iff.mp hs
  have htold : m.stack.flatMap (·.toTell p) = [] := by
    rw [List.flatMap_eq_nil_iff]
    intro x hx
    rcases x with s | ⟨q, o, rs⟩ | ⟨h, ran, k⟩
    · rfl
    · by_cases hq : q = p
      · subst hq
        rw [Activity.toTell, if_pos rfl, hstack o rs hx]
      · exact if_neg hq
    · rfl
  rw [outstanding, World.outstanding_of_eq_some ha, hslot, Queue.toTell, hqueue, htold]
  rfl

/-- As long as a promise is unresolved, its observers are outstanding on its list only. -/
lemma Truthful.outstanding_eq (hm : m.Truthful)
    (hunresolved : (m.world.view p).settlement? = none) :
    m.outstanding p = ↑(m.world.waitingFor p) := by
  have hno : ∀ o rs, ¬ m.Delivers p o rs := by
    intro o rs hd
    have ho := (hm p o rs hd).1
    rw [View.outcome?, hunresolved] at ho
    cases ho
  have hqueue : m.world.queue.waiting.flatMap (fun t => t.body.toTell p) = [] := by
    rw [List.flatMap_eq_nil_iff]
    intro t ht
    rcases hbody : t.body with body | ⟨q, o, rs⟩
    · rfl
    · refine if_neg ?_
      rintro rfl
      exact hno o rs (Or.inl ⟨t, ht, hbody⟩)
  have hstack : m.stack.flatMap (·.toTell p) = [] := by
    rw [List.flatMap_eq_nil_iff]
    intro x hx
    rcases x with s | ⟨q, o, rs⟩ | ⟨h, ran, k⟩
    · rfl
    · refine if_neg ?_
      rintro rfl
      exact hno o rs (Or.inr hx)
    · rfl
  rw [outstanding, World.outstanding, Queue.toTell, hqueue, hstack, Multiset.coe_nil, add_zero,
    add_zero]

/-- The observer whose callback is run is outstanding no more. -/
lemma Step.knows_of_calls {body : Script P Unit} (h : m.Step m') (hfate : m.Fate m' p)
    (hm : m.Numbered p) (hcalls : m.Calls p n body) : m'.Knows p n fun _ => False := by
  obtain ⟨r, rfl, houtstanding⟩ := h.outstanding_of_calls hcalls
  have hlt := hm.lt_observed r (houtstanding ▸ Multiset.mem_cons_self r _)
  have hnodup := hm.nodup
  rw [houtstanding, Multiset.map_cons, Multiset.nodup_cons] at hnodup
  exact ⟨Nat.lt_of_lt_of_le hlt hfate.observed_le,
    fun r' hr' heq => hnodup.1 (heq ▸ Multiset.mem_map_of_mem _ hr')⟩

/-- A script that does not drive the clock is followed by scripts only. -/
lemma Step.of_script {w : World P} {s : Script P Unit} {rest : List (Activity P)}
    (h : Step ⟨w, .script s :: rest⟩ m') (hno : ¬ Drives ⟨w, .script s :: rest⟩) :
    ∃ new, m'.stack = new ++ rest ∧ ∀ x ∈ new, ∃ s, x = .script s := by
  cases h with
  | finish => exact ⟨[], rfl, by simp⟩
  | @operate _ w' _ _ k r => exact ⟨[.script (k r)], rfl, by simp⟩
  | @drive _ d _ k => exact absurd ⟨d, k, rest, rfl⟩ hno
  | @attempt _ r k => exact ⟨[.script (w.nextAttempt r), .script k], rfl, by simp⟩

end Machine

namespace Program

variable {prog : Program P} {i j n : Nat} {m m' : Machine P} {p : PromiseId}

lemma truthful (h : prog.moment n = some m) : m.Truthful := by
  refine invariant (I := Machine.Truthful) ?_ (fun _ _ hm hstep => hstep.truthful hm) h
  rintro p o rs (⟨t, ht, -⟩ | hmem)
  · cases ht
  · cases List.mem_singleton.mp hmem

lemma fate (h : prog.moment n = some m) (h' : prog.moment (n + 1) = some m') (p : PromiseId) :
    m.Fate m' p :=
  (step_of_moment h h').fate (truthful h) p

lemma outstanding_start (prog : Program P) (p : PromiseId) : prog.start.outstanding p = 0 := rfl

lemma numbered (h : prog.moment n = some m) (p : PromiseId) : m.Numbered p := by
  induction n generalizing m with
  | zero =>
    cases h
    refine ⟨?_, ?_⟩ <;> rw [outstanding_start]
    · exact Multiset.nodup_zero
    · exact fun r hr => absurd hr (Multiset.notMem_zero r)
  | succ n ih =>
    obtain ⟨m₁, h₁, -⟩ := moment_succ_eq_some_iff.mp h
    exact (fate h₁ h p).numbered (ih h₁)

/-! ## One registration, in a run -/

/-- An observer that was registered is known, and is outstanding until it is called; or it waits for
something else than what the promise has ended with. -/
lemma registered {ob : Observer P} (hi : prog.moment i = some m) (hob : m.Observes p ob)
    (hij : i < j) (hj : prog.moment j = some m') :
    m'.Knows p (m.world.observed p) (· = ob) ∧
      (⟨m.world.observed p, ob⟩ ∈ m'.outstanding p ∨
        (∃ l, i < l ∧ l < j ∧
          prog.At l fun m₁ => ∃ body, m₁.Calls p (m.world.observed p) body) ∨
        ∃ o, (m'.world.view p).outcome? = some o ∧ ¬ ob.awaits o = true) := by
  induction j, hij using Nat.le_induction generalizing m' with
  | base =>
    obtain ⟨hknows, hfate⟩ := (fate hi hj p).of_observes (numbered hi p) hob
    exact ⟨hknows, hfate.imp_right Or.inr⟩
  | succ j hij ih =>
    obtain ⟨m₁, h₁, hstep⟩ := moment_succ_eq_some_iff.mp hj
    have hfate := fate h₁ hj p
    obtain ⟨hknows, hwhere⟩ := ih h₁
    refine ⟨hfate.knows hknows, ?_⟩
    -- once called it has been called, and once missed it is missed for ever
    rcases hwhere with hmem | ⟨l, hil, hlj, hcalled⟩ | ⟨o, ho, hawaits⟩
    · rcases hfate.mem_after hmem with hmem | hcalls | hunmatched
      · exact Or.inl hmem
      · exact Or.inr (Or.inl ⟨j, hij, Nat.lt_succ_self j, m₁, h₁, hcalls⟩)
      · exact Or.inr (Or.inr hunmatched)
    · exact Or.inr (Or.inl ⟨l, hil, Nat.lt_succ_of_lt hlj, hcalled⟩)
    · exact Or.inr (Or.inr ⟨o, hstep.outcome?_eq ho, hawaits⟩)

lemma observed_le (hij : i ≤ j) (hi : prog.moment i = some m) (hj : prog.moment j = some m') :
    m.world.observed p ≤ m'.world.observed p := by
  induction j, hij using Nat.le_induction generalizing m' with
  | base =>
    cases hi.symm.trans hj
    exact Nat.le_refl _
  | succ j hij ih =>
    obtain ⟨m₁, h₁, -⟩ := moment_succ_eq_some_iff.mp hj
    exact Nat.le_trans (ih h₁) (fate h₁ hj p).observed_le

/-- The callback of an observer runs only after its registration. -/
lemma lt_of_calls {body : Script P Unit} (hi : prog.moment i = some m)
    (hj : prog.moment j = some m') (hcalls : m'.Calls p (m.world.observed p) body) : i < j := by
  obtain ⟨-, -, r, hr, hn, -⟩ := hcalls.truthful (truthful hj)
  by_contra hle
  have hlt := (numbered hj p).lt_observed r hr
  have hobserved := observed_le (p := p) (Nat.not_lt.mp hle) hj hi
  omega

/-- A callback that has run does not run again. -/
lemma not_calls_of_lt {body body' : Script P Unit} (hij : i < j) (hi : prog.moment i = some m)
    (hcalls : m.Calls p n body) (hj : prog.moment j = some m') : ¬ m'.Calls p n body' := by
  have hgone : m'.Knows p n fun _ => False := by
    induction j, hij using Nat.le_induction generalizing m' with
    | base => exact (step_of_moment hi hj).knows_of_calls (fate hi hj p) (numbered hi p) hcalls
    | succ j hij ih =>
      obtain ⟨m₁, h₁, -⟩ := moment_succ_eq_some_iff.mp hj
      exact (fate h₁ hj p).knows (ih h₁)
  intro hcalls'
  obtain ⟨-, -, r, hr, hn, -⟩ := hcalls'.truthful (truthful hj)
  exact hgone.outstanding r hr hn

/-! ## Deliveries are tasks -/

/-- A delivery is a task that the drive below it has started, with no fewer observers. -/
lemma runs_of_delivery {o : Outcome P.Value P.Error} {rs : List (Registration P)}
    {above below : List (Activity P)} (h : prog.moment n = some m)
    (hstack : m.stack = above ++ .delivery p o rs :: below) :
    ∃ t rs₀, t.body = .delivery p o rs₀ ∧ (∀ r ∈ rs, r ∈ rs₀) ∧ prog.Runs n t below := by
  induction n generalizing m above rs with
  | zero =>
    cases h
    have hmem : Activity.delivery p o rs ∈ prog.start.stack := by
      rw [hstack]
      exact List.mem_append_right _ (.head below)
    cases List.mem_singleton.mp hmem
  | succ n ih =>
    obtain ⟨m₁, h₁, hstep⟩ := moment_succ_eq_some_iff.mp h
    have hlast : prog.At (n + 1) fun m => m.Above below :=
      ⟨m, h, above ++ [.delivery p o rs], by simp, by simp [hstack]⟩
    rcases hstep.delivery hstack with
      ⟨above₀, rs₀, hbefore, hsub⟩ | ⟨hor, ran, k, rest, t, hdrive, hstarts, hbody, hbelow⟩
    · obtain ⟨t, rs₁, hbody, hsub₁, hor, ran, k, rest, i, hbelow, hi, hstarts, habove⟩ :=
        ih h₁ hbefore
      refine ⟨t, rs₁, hbody, fun r hr => hsub₁ r (hsub r hr), hor, ran, k, rest, i, hbelow,
        Nat.lt_succ_of_lt hi, hstarts, ?_⟩
      intro j hij hj
      rcases Nat.lt_succ_iff_lt_or_eq.mp (Nat.lt_succ_of_le hj) with hj | rfl
      · exact habove j hij (Nat.le_of_lt_succ hj)
      · exact hlast
    · refine ⟨t, rs, hbody, fun _ hr => hr, hor, ran, k, rest, n, hbelow, Nat.lt_succ_self n,
        ⟨m₁, h₁, hdrive, hstarts⟩, fun j hnj hj => ?_⟩
      obtain rfl : j = n + 1 := Nat.le_antisymm hj hnj
      exact hlast

lemma not_above {below : List (Activity P)} (hn : prog.moment n = some m)
    (hstack : m.stack = below) : ¬ prog.At n fun m => m.Above below := by
  rintro ⟨m', hm', above, hne, habove⟩
  cases hn.symm.trans hm'
  rw [hstack] at habove
  exact hne (List.append_left_eq_self.mp habove.symm)

/-- A script that has nothing more to do is over. -/
lemma le_of_above {l : Nat} {below : List (Activity P)}
    (hi : prog.At i fun m => m.stack = .script (.pure ()) :: below)
    (habove : ∀ i', l < i' → i' ≤ j → prog.At i' fun m => m.Above below) (hli : l ≤ i) : j ≤ i := by
  by_contra hij
  obtain ⟨⟨w, stack⟩, hm, rfl⟩ := hi
  obtain ⟨m', hm', hafter⟩ := habove (i + 1) (Nat.lt_succ_of_le hli) (Nat.not_le.mp hij)
  cases step_of_moment hm hm' with
  | finish => exact not_above hm' rfl ⟨_, hm', hafter⟩

/-- While a script runs that makes no drive call, there are only scripts above what was below it. -/
lemma scripts_above {a b l : Nat} {rest : List (Activity P)}
    (ha : prog.At a fun m => ∃ s, m.stack = .script s :: rest)
    (during : ∀ i, a ≤ i → i ≤ b → prog.At i fun m => m.Above rest)
    (hno : ∀ i, a ≤ i → i < b → ¬ prog.At i fun m => m.Drives) (hal : a ≤ l) (hlb : l ≤ b) :
    prog.At l fun m => ∃ above, m.stack = above ++ rest ∧ ∀ x ∈ above, ∃ s, x = .script s := by
  induction l, hal using Nat.le_induction with
  | base =>
    obtain ⟨m, hm, s, hstack⟩ := ha
    exact ⟨m, hm, [.script s], hstack, by simp⟩
  | succ l hal ih =>
    obtain ⟨⟨w, stack⟩, hm, above, hstack, hscripts⟩ := ih (Nat.le_of_succ_le hlb)
    obtain ⟨m', hm', -⟩ := during (l + 1) (Nat.le_succ_of_le hal) hlb
    obtain ⟨m₁, hm₁, above₁, hne, hstack₁⟩ := during l hal (Nat.le_of_succ_le hlb)
    cases hm.symm.trans hm₁
    -- there is an innermost activity above `rest`, and it is a script
    obtain rfl : above = above₁ := List.append_cancel_right (hstack.symm.trans hstack₁)
    obtain ⟨x, above, rfl⟩ := List.exists_cons_of_ne_nil hne
    obtain ⟨s, rfl⟩ := hscripts x (.head above)
    cases hstack
    obtain ⟨new, hnew, hplain⟩ := (step_of_moment hm hm').of_script fun hdrives =>
      hno l hal hlb ⟨_, hm, hdrives⟩
    refine ⟨m', hm', new ++ above, by rw [hnew, List.append_assoc]; rfl, fun y hy => ?_⟩
    rcases List.mem_append.mp hy with hy | hy
    · exact hplain y hy
    · exact hscripts y (.tail _ hy)

/-! ## Who is told of a settlement -/

/-- An outstanding observer has been registered. -/
lemma registered_of_mem {r : Registration P} (h : prog.moment n = some m)
    (hr : r ∈ m.outstanding p) : ∃ j < n, prog.At j fun m => m.Observes p r.observer := by
  induction n generalizing m with
  | zero =>
    cases h
    rw [outstanding_start] at hr
    exact absurd hr (Multiset.notMem_zero r)
  | succ n ih =>
    obtain ⟨m₁, h₁, -⟩ := moment_succ_eq_some_iff.mp h
    rw [before_succ_iff h₁]
    rcases (fate h₁ h p).mem_before hr with hr | ⟨-, hobserves, -⟩
    · exact Or.inl (ih h₁ hr)
    · exact Or.inr hobserves

lemma outcome?_of_le (hij : i ≤ j) (hi : prog.moment i = some m) (hj : prog.moment j = some m')
    {o : Outcome P.Value P.Error} (ho : (m.world.view p).outcome? = some o) :
    (m'.world.view p).outcome? = some o :=
  carry (I := fun m => (m.world.view p).outcome? = some o)
    (fun _ _ h hstep => hstep.outcome?_eq h) hij hi ho hj

/-- While a promise is unresolved, those who wait on its list are those who have been registered. -/
lemma exists_waiting_iff {Q : Observer P → Prop} (h : prog.moment n = some m)
    (hunresolved : (m.world.view p).settlement? = none) :
    (∃ r ∈ m.world.waitingFor p, Q r.observer) ↔
      ∃ j < n, prog.At j fun m => ∃ ob, m.Observes p ob ∧ Q ob := by
  have houtstanding := (truthful h).outstanding_eq hunresolved
  have hno : ∀ o, (m.world.view p).outcome? ≠ some o := by
    intro o ho
    rw [View.outcome?, hunresolved] at ho
    cases ho
  constructor
  · rintro ⟨r, hr, hQ⟩
    have hmem : r ∈ m.outstanding p := houtstanding ▸ hr
    obtain ⟨j, hj, m₁, h₁, hobserves⟩ := registered_of_mem h hmem
    exact ⟨j, hj, m₁, h₁, r.observer, hobserves, hQ⟩
  · rintro ⟨j, hj, m₁, h₁, ob, hobserves, hQ⟩
    rcases (registered h₁ hobserves hj h).2 with
      hmem | ⟨l, -, hln, m₂, h₂, body, hcalls⟩ | ⟨o, ho, -⟩
    · rw [houtstanding] at hmem
      exact ⟨_, hmem, hQ⟩
    · -- callbacks run after the settlement only
      obtain ⟨o, ho, -⟩ := hcalls.truthful (truthful h₂)
      exact absurd (outcome?_of_le (Nat.le_of_lt hln) h₂ h ho) (hno o)
    · exact absurd ho (hno o)

/-- An observer is told once. -/
lemma toldOnce {ob : Observer P} (hi : prog.moment i = some m) (hob : m.Observes p ob) :
    prog.ToldOnce i p (m.world.observed p) ob where
  given := by
    intro j m' body hj hcalls
    have hij := lt_of_calls hi hj hcalls
    obtain ⟨o, ho, r, hr, hn, handler⟩ := hcalls.truthful (truthful hj)
    rw [(registered hi hob hij hj).1.outstanding r hr hn] at handler
    refine ⟨hij, ?_⟩
    cases o with
    | succeeded v => exact Or.inl ⟨v, View.outcome?_eq_succeeded_iff.mp ho, handler⟩
    | failed t =>
      have htrace := View.outcome?_eq_failed_iff.mp ho
      exact Or.inr ⟨t, View.result?_of_trace? htrace, htrace, handler⟩
  inTask := by
    rintro j m' body hj ⟨o, r, rs, below, hstack, -, -⟩
    have htop : m'.stack = [] ++ .delivery p o (r :: rs) :: below := hstack
    obtain ⟨t, rs₀, hbody, -, hruns⟩ := runs_of_delivery hj htop
    exact ⟨t, o, r :: rs, rs₀, below, hbody, hstack, hruns⟩
  once := by
    rintro j j' ⟨m₁, h₁, body, hcalls⟩ ⟨m₂, h₂, body', hcalls'⟩
    rcases Nat.lt_trichotomy j j' with hlt | heq | hlt
    · exact absurd hcalls' (not_calls_of_lt hlt h₁ hcalls h₂)
    · exact heq
    · exact absurd hcalls (not_calls_of_lt hlt h₂ hcalls' h₁)
  told := by
    intro j m' o hij hj ho hawaits hqueue hstack
    rcases (registered hi hob hij hj).2 with hmem | hcalled | ⟨o', ho', hnot⟩
    · rw [Machine.outstanding_eq_zero ho hqueue hstack] at hmem
      exact absurd hmem (Multiset.notMem_zero _)
    · exact hcalled
    · cases ho.symm.trans ho'
      exact absurd hawaits hnot

/-! ## What is handed over -/

/-- A settlement hands over one task if an observer that was registered before waits for it. -/
lemma queue_of_settle {w : World P} {s : Settlement P.Value P.Error} {k : Bool → Script P Unit}
    {rest : List (Activity P)}
    (hi : prog.moment i = some ⟨w, .script (.op (.settle p s) k) :: rest⟩)
    (hp : p.index < w.promises.size) (hunresolved : (w.view p).settlement? = none) :
    ∃ w', prog.moment (i + 1) = some ⟨w', .script (k true) :: rest⟩ ∧
      ((∃ j < i, prog.At j fun m =>
          ∃ ob, m.Observes p ob ∧ ob.awaits (s.outcome (w.view p).segment?) = true) →
        w'.queue = w.queue.add w.clock (.delivery p (s.outcome (w.view p).segment?)
          ((w.waitingFor p).filter (·.observer.awaits (s.outcome (w.view p).segment?))))) ∧
      ((¬ ∃ j < i, prog.At j fun m =>
          ∃ ob, m.Observes p ob ∧ ob.awaits (s.outcome (w.view p).segment?) = true) →
        w'.queue = w.queue) := by
  rw [← exists_waiting_iff (Q := fun ob => ob.awaits (s.outcome (w.view p).segment?) = true) hi
    hunresolved]
  obtain ⟨⟨segment?, observed, waiting | s₀⟩, ha⟩ : ∃ a, w.promises[p.index]? = some a :=
    ⟨_, Array.getElem?_eq_getElem hp⟩
  · have hview : w.view p = ⟨segment?, none⟩ := World.view_of_eq_some ha
    have hlist : w.waitingFor p = waiting := World.waitingFor_of_eq_some ha
    have hstep : Machine.Step ⟨w, .script (.op (.settle p s) k) :: rest⟩
        ⟨(w.settle p s).2, .script (k (w.settle p s).1) :: rest⟩ := .operate rfl
    rw [World.settle_unresolved ha] at hstep
    refine ⟨_, moment_succ_eq_some_iff.mpr ⟨_, hi, hstep⟩, ?_, ?_⟩
    · rw [World.queue_deliver, hview, hlist]
      exact Queue.deliver_of_exists
    · rw [World.queue_deliver, hview, hlist]
      exact fun hno => Queue.deliver_of_forall_not fun r hr ho => hno ⟨r, hr, ho⟩
  · have hview : w.view p = ⟨segment?, some s₀⟩ := World.view_of_eq_some ha
    rw [hview] at hunresolved
    cases hunresolved

/-- The registration of an observer on a settled promise hands over one task if the observer waits
for what the promise ended with. -/
lemma queue_of_observe {w : World P} {ob : Observer P} {o : Outcome P.Value P.Error}
    {k : Unit → Script P Unit} {rest : List (Activity P)}
    (hi : prog.moment i = some ⟨w, .script (.op (.observe p ob) k) :: rest⟩)
    (ho : (w.view p).outcome? = some o) :
    ∃ w', prog.moment (i + 1) = some ⟨w', .script (k ()) :: rest⟩ ∧
      (ob.awaits o = true →
        w'.queue = w.queue.add w.clock (.delivery p o [⟨w.observed p, ob⟩])) ∧
      (ob.awaits o = false → w'.queue = w.queue) := by
  obtain ⟨s, hs, -⟩ := Option.map_eq_some_iff.mp ho
  obtain ⟨⟨segment?, observed, slot⟩, ha, rfl⟩ := World.settlement?_view_eq_some_iff.mp hs
  have hobserved : w.observed p = observed := World.observed_of_eq_some ha
  cases ho.symm.trans (World.outcome?_view_of_settled ha)
  have hstep : Machine.Step ⟨w, .script (.op (.observe p ob) k) :: rest⟩
      ⟨w.observe p ob, .script (k ()) :: rest⟩ := .operate rfl
  rw [World.observe_settled ha] at hstep
  refine ⟨_, moment_succ_eq_some_iff.mpr ⟨_, hi, hstep⟩, fun hawaits => ?_, fun hnot => ?_⟩
  · rw [World.queue_deliver, hobserved, Queue.deliver_of_exists ⟨_, .head [], hawaits⟩,
      List.filter_cons, if_pos hawaits]
    rfl
  · rw [World.queue_deliver, Queue.deliver_of_forall_not]
    · rfl
    · simp [hnot]

/-- **Callbacks run exactly once, and never inline.**  In every run:

* an observer is told once, at whatever moment it was registered on whatever promise;
* while a script runs, and whatever it runs itself, no callback runs unless a drive call is made;
* a settlement hands over exactly one task if an observer that was registered before waits for it,
  and none otherwise;
* the registration of an observer on a settled promise hands over exactly one task if the observer
  waits for what the promise ended with, and none otherwise. -/
theorem callbacks_run_once (prog : Program P) :
    (∀ i m p ob, prog.moment i = some m → m.Observes p ob →
      prog.ToldOnce i p (m.world.observed p) ob) ∧
    (∀ a b rest, a ≤ b → prog.At a (fun m => ∃ s, m.stack = .script s :: rest) →
      (∀ i, a ≤ i → i ≤ b → prog.At i fun m => m.Above rest) →
      (∀ i, a ≤ i → i < b → ¬ prog.At i fun m => m.Drives) →
      ¬ prog.At b fun m => ∃ p n body, m.Calls p n body) ∧
    (∀ i w p s k rest,
      prog.moment i = some ⟨w, .script (.op (.settle p s) k) :: rest⟩ →
      p.index < w.promises.size → (w.view p).settlement? = none →
      ∃ w', prog.moment (i + 1) = some ⟨w', .script (k true) :: rest⟩ ∧
        ((∃ j < i, prog.At j fun m =>
            ∃ ob, m.Observes p ob ∧ ob.awaits (s.outcome (w.view p).segment?) = true) →
          w'.queue = w.queue.add w.clock (.delivery p (s.outcome (w.view p).segment?)
            ((w.waitingFor p).filter (·.observer.awaits (s.outcome (w.view p).segment?))))) ∧
        ((¬ ∃ j < i, prog.At j fun m =>
            ∃ ob, m.Observes p ob ∧ ob.awaits (s.outcome (w.view p).segment?) = true) →
          w'.queue = w.queue)) ∧
    ∀ i w p ob o k rest,
      prog.moment i = some ⟨w, .script (.op (.observe p ob) k) :: rest⟩ →
      (w.view p).outcome? = some o →
      ∃ w', prog.moment (i + 1) = some ⟨w', .script (k ()) :: rest⟩ ∧
        (ob.awaits o = true →
          w'.queue = w.queue.add w.clock (.delivery p o [⟨w.observed p, ob⟩])) ∧
        (ob.awaits o = false → w'.queue = w.queue) := by
  refine ⟨fun i m p ob => toldOnce, ?_, fun i w p s k rest => queue_of_settle,
    fun i w p ob o k rest => queue_of_observe⟩
  rintro a b rest hab ha during hno ⟨m, hm, p, n, body, o, r, rs, below, hstack, -, -⟩
  obtain ⟨m₁, hm₁, above, hscripts, hplain⟩ := scripts_above ha during hno hab (Nat.le_refl b)
  obtain ⟨m₂, hm₂, above₂, hne, habove⟩ := during b hab (Nat.le_refl b)
  cases hm.symm.trans hm₁
  cases hm.symm.trans hm₂
  obtain rfl : above = above₂ := List.append_cancel_right (hscripts.symm.trans habove)
  obtain ⟨x, above, rfl⟩ := List.exists_cons_of_ne_nil hne
  obtain ⟨s, rfl⟩ := hplain x (.head above)
  cases hstack.symm.trans hscripts

/-- A program that registers an observer of each kind on a promise, one before it is fulfilled and
one after its callbacks have run. -/
def observedTwice : Program Session.Play where
  settings := .withoutTraces
  walks _ := []
  internal := []
  store := {}
  main := do
    let p ← Script.create
    Script.observe p (.onSuccess fun _ => pure ())
    discard (Script.fulfill p (.value .null))
    discard Script.runUntilIdle
    Script.observe p (.onFailure fun _ => pure ())
    discard Script.runUntilIdle

/-- In `observedTwice` the first callback runs once, and the second never. -/
theorem callbacks_run_once_observedTwice :
    (∃ l, 1 < l ∧ l < 9 ∧ observedTwice.At l fun m => ∃ body, m.Calls ⟨0⟩ 0 body) ∧
      ∀ l, ¬ observedTwice.At l fun m => ∃ body, m.Calls ⟨0⟩ 1 body := by
  obtain ⟨htold, -, -, -⟩ := callbacks_run_once observedTwice
  obtain ⟨m₁, h₁, hfirst, hzero⟩ : ∃ m, observedTwice.moment 1 = some m ∧
      m.Observes ⟨0⟩ (.onSuccess fun _ => pure ()) ∧ m.world.observed ⟨0⟩ = 0 :=
    ⟨_, rfl, ⟨by decide, _, _, rfl⟩, rfl⟩
  obtain ⟨m₂, h₂, hsecond, hone, hended, hqueue, hstack⟩ : ∃ m, observedTwice.moment 9 = some m ∧
      m.Observes ⟨0⟩ (.onFailure fun _ => pure ()) ∧ m.world.observed ⟨0⟩ = 1 ∧
      (m.world.view ⟨0⟩).outcome? = some (.succeeded (.value .null)) ∧
      m.world.queue.waiting = [] ∧ ∀ o rs, .delivery ⟨0⟩ o rs ∈ m.stack → rs = [] := by
    refine ⟨_, rfl, ⟨by decide, _, _, rfl⟩, rfl, rfl, rfl, ?_⟩
    rintro o rs hmem
    cases List.mem_singleton.mp hmem
  have honce := htold 1 m₁ ⟨0⟩ _ h₁ hfirst
  have hnever := htold 9 m₂ ⟨0⟩ _ h₂ hsecond
  rw [hzero] at honce
  rw [hone] at hnever
  refine ⟨honce.told 9 m₂ _ (by decide) h₂ hended rfl hqueue hstack, ?_⟩
  rintro l ⟨m, h, body, hcalls⟩
  obtain ⟨hlate, ⟨v, -, hhandler⟩ | ⟨t, -, htrace, -⟩⟩ := hnever.given l m body h hcalls
  · cases hhandler
  · have hstays := outcome?_of_le (Nat.le_of_lt hlate) h₂ h hended
    cases hstays.symm.trans (View.outcome?_eq_failed_iff.mpr htrace)

end Program

end Eventual
