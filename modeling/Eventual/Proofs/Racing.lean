import Eventual.Proofs.Alarm
import Eventual.Proofs.Selecting

/-!
# What becomes of a promise with a time limit

A call with a time limit makes a promise that fails after the limit, the trigger, and selects from
its input and the trigger.  The trigger fails at exactly the deadline, so the result ends as the
input if this is settled before, and fails at the deadline if it is not.  If both happen at the same
instant, the order decides in which they happen (`Program.TimeoutLaw`).
-/

namespace Eventual

variable {P : Payload}

/-- One promise has ended as another one: with its value, or with its error and a trace that is one
link longer. -/
def View.EndsAs {V E : Type} (v' v : View V E) : Prop :=
  (∃ x, v.result? = some (.ok x) ∧ v'.result? = some (.ok x)) ∨
    ∃ t t', v.trace? = some t ∧ v'.trace? = some t' ∧ t'.error = t.error ∧ t'.parent? = some t ∧
      t'.depth = t.depth + 1

/-- A promise has failed with an error, after another one had failed with it on its own. -/
def View.FailedTwice {V E : Type} (v : View V E) (e : E) : Prop :=
  ∃ t, v.trace? = some t ∧ t.depth = 2 ∧ ∀ l ∈ t.links, l.error = e

lemma View.endsAs_of_passed {V E : Type} {v v' : View V E} {o : Outcome V E}
    (ho : v.outcome? = some o) (hs : v'.settlement? = some o.passed) : v'.EndsAs v := by
  cases o with
  | succeeded x =>
    refine Or.inl ⟨x, View.outcome?_eq_succeeded_iff.mp ho, ?_⟩
    rw [View.result?, hs]
    rfl
  | failed t =>
    refine Or.inr ⟨t, Trace.ofFailure t.error v'.segment? (some t),
      View.outcome?_eq_failed_iff.mp ho, ?_, Trace.error_ofFailure _ _ _,
      Trace.parent?_ofFailure _ _ _, rfl⟩
    rw [View.trace?, hs]
    rfl

lemma View.failedTwice_of_passed {V E : Type} {v v' : View V E} {o : Outcome V E} {e : E}
    (hs : v.settlement? = some (.failed e none)) (ho : v.outcome? = some o)
    (hs' : v'.settlement? = some o.passed) : v'.FailedTwice e := by
  rw [View.outcome?_of_settlement? hs] at ho
  cases ho
  refine ⟨Trace.ofFailure e v'.segment? (some ⟨⟨e, v.segment?⟩, []⟩), ?_, rfl, ?_⟩
  · rw [View.trace?, hs']
    rfl
  · intro l hl
    simp only [Trace.links, Trace.ofFailure, List.mem_reverse, List.mem_cons, List.not_mem_nil,
      or_false] at hl
    obtain rfl | rfl := hl <;> rfl

lemma Script.withTimeout_bind {α : Type} (p : PromiseId) (limit : Duration)
    (k : PromiseId → Script P α) :
    (withTimeout p limit).bind k =
      (settleAfter ⟨limit, .error (P.timeout limit)⟩).bind fun x => (select [p, x]).bind k :=
  bind_assoc _ k (failAfter (P.timeout limit) limit)

namespace Program

/-- What has become of the result `r` of a call with a time limit, made at moment `a` and the
instant `start`, at a later moment `j`.  Its trigger is `x`, and its deadline is `deadline`. -/
structure TimeoutLaw (prog : Program P) (a : Nat) (p x r : PromiseId)
    (limit start deadline : Duration) (j : Nat) (m : Machine P) : Prop where
  /-- If the input was settled before the call, or is settled before the deadline, the result has
  ended as the input, and at once. -/
  in_time : ∀ c s T, c < j → prog.SettledAt c p s T → c < a ∨ T < deadline →
    m.Quiet ∨ start.later T < m.world.clock → (m.world.view r).EndsAs (m.world.view p) ∧
      ∃ c' < j, ∃ s', prog.SettledAt c' r s' (start.later T)
  /-- If the input is not settled when the clock passes the deadline, the result has failed, at the
  deadline. -/
  too_late : deadline < m.world.clock →
    (∀ c s T, c < j → prog.SettledAt c p s T → deadline < T) →
    (m.world.view r).FailedTwice (P.timeout limit) ∧
      ∃ c' < j, ∃ s', prog.SettledAt c' r s' deadline
  /-- If the input is settled at the deadline, the result has ended as that one of the input and the
  trigger that was settled first. -/
  tie : ∀ c s, c < j → a ≤ c → prog.SettledAt c p s deadline →
    m.Quiet ∨ deadline < m.world.clock →
    (((∀ c' s' T', c' < j → prog.SettledAt c' x s' T' → c < c') ∧
        (m.world.view r).EndsAs (m.world.view p)) ∨
      (∃ c' s' T', c' < c ∧ prog.SettledAt c' x s' T') ∧
        (m.world.view r).FailedTwice (P.timeout limit)) ∧
      ∃ c' < j, ∃ s', prog.SettledAt c' r s' deadline

variable {prog : Program P} {a f : Nat} {inputs : List PromiseId} {p x r : PromiseId}
  {limit start deadline : Duration} {i j l c : Nat} {body : Script P Unit} {m : Machine P}
  {s : Settlement P.Value P.Error} {t : Task (Work P)}

/-! ## The first input that is settled -/

namespace Listens

/-- When the instant at which the observer of a settled input is told is past, or at a quiet moment,
it has been told, and so has settled the result. -/
lemma settled_of_past (h : prog.Listens a f inputs (fun _ => Script.forwarder r) start)
    (exists_r : prog.At (f + inputs.length) fun m => r.index < m.world.promises.size)
    (passive : prog.Passive) (hj : f + inputs.length ≤ j) (hm : prog.moment j = some m)
    {q : PromiseId} {T : Duration} (hq : inputs[i]? = some q) (hc : prog.SettledAt c q s T)
    (hcj : c < j) (hpast : m.Quiet ∨ start.later T < m.world.clock) :
    ∃ c' s', c' < j ∧ prog.At c' fun m => m.Settles r s' := by
  obtain ⟨mc, hmc, hsettles, hT⟩ := id hc
  have ho := View.outcome?_of_settlement? (settled_of_settles hcj hmc hsettles hm)
  rcases hpast with hquiet | hlate
  · obtain ⟨l, body, c', s', -, -, hcj', hat⟩ :=
      h.settled_of_quiet (fun _ => Script.handler?_forwarder r) exists_r hj hm hquiet hq ho
    exact ⟨c', s', hcj', hat⟩
  · obtain ⟨l, body, hlj, hears⟩ := h.hears_of_lt passive hj hm hq hc hcj hlate
    -- the clock stands still when a callback is called
    have hlj₁ : l + 1 < j := by
      rcases Nat.lt_or_eq_of_le (Nat.succ_le_of_lt hlj) with hlt | rfl
      · exact hlt
      · rw [h.clock_of_called passive hq hc hears hm] at hlate
        exact absurd hlate (Nat.lt_irrefl _)
    obtain ⟨c', s', hc', hat⟩ :=
      h.settled_of_shot (fun _ => Script.handler?_forwarder r) exists_r hears hlj₁ hm
    exact ⟨c', s', by omega, hat⟩

/-- **The first input that is settled decides**, once its observer has been told. -/
lemma settles_as_first (h : prog.Listens a f inputs (fun _ => Script.forwarder r) start)
    (exists_r : prog.At (f + inputs.length) fun m => r.index < m.world.promises.size)
    (passive : prog.Passive)
    (owned : ∀ c < j, prog.At c (fun m => m.Attempts r) → prog.DoneBy a (f + inputs.length) c)
    (hj : f + inputs.length ≤ j) (hm : prog.moment j = some m)
    {q : PromiseId} {T : Duration} (hq : inputs[i]? = some q) (hc : prog.SettledAt c q s T)
    (hcj : c < j) (hpast : m.Quiet ∨ start.later T < m.world.clock)
    (first : ∀ i' q' c' s' T', i' ≠ i → inputs[i']? = some q' → c' < j →
      prog.SettledAt c' q' s' T' → Sooner a c i c' i') :
    ∃ o, (m.world.view q).outcome? = some o ∧ (m.world.view r).settlement? = some o.passed ∧
      ∃ c' < j, ∃ s', prog.SettledAt c' r s' (start.later T) := by
  obtain ⟨c', s', hcj', mr, hmr, hsettles⟩ :=
    h.settled_of_past exists_r passive hj hm hq hc hcj hpast
  obtain ⟨i', l', q', o, body', hq', hears', rfl, -, hpassed, ml, hml, ho⟩ :=
    h.of_shot (fun _ => Script.handler?_forwarder r) (owned c' hcj' ⟨mr, hmr, hsettles.attempts⟩)
      hmr hsettles.attempts
  obtain rfl := hpassed s' hsettles
  obtain ⟨s₀, hs₀, -⟩ := Option.map_eq_some_iff.mp ho
  obtain ⟨c₀, hc₀, m₀, h₀, hsettles₀⟩ := exists_settles hml hs₀
  have hat₀ : prog.SettledAt c₀ q' s₀ m₀.world.clock := ⟨m₀, h₀, hsettles₀, rfl⟩
  obtain rfl : i' = i := by
    by_contra hne
    -- the callback of the first input would have run before
    have hsooner := first i' q' c₀ s₀ _ hne hq' (by omega) hat₀
    obtain ⟨l, body, hll', hears⟩ := h.hears_before passive hq hc hq' hat₀ hears' hsooner
    obtain ⟨c'', s'', hc'', hat''⟩ := h.settled_of_shot (fun _ => Script.handler?_forwarder r)
      exists_r hears (j := l' + 1) (by omega) hmr
    have heq := settles_unique hat'' ⟨mr, hmr, hsettles⟩
    omega
  cases hq.symm.trans hq'
  refine ⟨o, outcome?_of_le (by omega) hml hm ho, settled_of_settles hcj' hmr hsettles hm, l' + 1,
    hcj', _, mr, hmr, hsettles, h.clock_of_called passive hq hc hears' hmr⟩

end Listens

/-! ## The call -/

/-- A call with a time limit is made at moment `a` and the instant `start`: it sets a timer for its
trigger, and then selects from its input and the trigger. -/
structure Races (prog : Program P) (a : Nat) (p x r : PromiseId) (limit start deadline : Duration)
    (t : Task (Work P)) : Prop where
  arms : prog.Arms a x (.error (P.timeout limit)) deadline t
  listens : prog.Listens (a + 3) (a + 4) [p, x] (fun _ => Script.forwarder r) start
  /-- Its select hands over no task. -/
  idle : ∀ j, a + 3 ≤ j → j < a + 4 → ∀ t, ¬ prog.At j fun m => m.Schedules t
  due : start.add? limit = some deadline
  lt : p.index < x.index ∧ x.index < r.index
  exists_r : prog.At (a + 6) fun m => r.index < m.world.promises.size

section Call

variable {w : World P} {k : PromiseId → Script P Unit} {rest : List (Activity P)}

/-- A call with a time limit is made, and returns its result. -/
theorem races_of_withTimeout
    (ha : prog.moment a = some ⟨w, .script ((Script.withTimeout p limit).bind k) :: rest⟩)
    (hdue : w.clock.add? limit = some deadline) (exist : p.index < w.promises.size) :
    prog.At (a + 6) (fun m => m.stack = .script (k ⟨w.promises.size + 1⟩) :: rest ∧
        (m.world.view ⟨w.promises.size + 1⟩).settlement? = none) ∧
      ∃ t, prog.Races a p ⟨w.promises.size⟩ ⟨w.promises.size + 1⟩ limit w.clock deadline t := by
  rw [Script.withTimeout_bind] at ha
  obtain ⟨⟨w₃, stack⟩, h₃⟩ := exists_of_settleAfter ha hdue
  obtain ⟨hstack, hsize, -, due, t, hdue', arms⟩ := arms_of_settleAfter ha h₃
  cases hdue.symm.trans hdue'
  cases hstack
  have hclock : w₃.clock = w.clock :=
    (running_settleAfter ha (a + 3) _ (Nat.le_add_right a 3) (Nat.le_refl _) h₃).2
  obtain ⟨⟨m, hm, hstack, hlt, hnone⟩, hlistens⟩ := listens_of_select h₃ (by simp [hsize]; omega)
  rw [hsize] at hstack hlt hnone hlistens
  refine ⟨⟨m, hm, hstack, hnone⟩, t, arms, hclock ▸ hlistens, ?_, hdue, ?_, m, hm, hlt⟩
  · -- a select first makes its result
    rintro j haj hj t ⟨m', hm', ht⟩
    obtain rfl : j = a + 3 := by omega
    cases h₃.symm.trans hm'
    rw [Script.select_bind] at ht
    cases ht.isSchedule
  · exact ⟨exist, Nat.lt_succ_self _⟩

end Call

namespace Races

/-- What the call attempts after it has returned: to settle its trigger at the deadline, and to
settle its result. -/
lemma of_attempts (h : prog.Races a p x r limit start deadline t)
    (hc : prog.OnBehalf (Set.Ico a (a + 6)) c) (hm : prog.moment c = some m) {q : PromiseId}
    (hattempts : m.Attempts q) :
    (q = x ∧ a + 3 ≤ c ∧ m.world.clock = deadline ∧
        ∀ s, m.Settles q s → s = .failed (P.timeout limit) none) ∨
      q = r ∧ prog.DoneBy (a + 3) (a + 6) c := by
  rcases hc.split (a + 3) with htimer | hselect
  · obtain ⟨hac, rfl, hclock, hsettles⟩ := h.arms.of_attempts htimer hm hattempts
    exact Or.inl ⟨rfl, hac, hclock, hsettles⟩
  · have hdone : prog.DoneBy (a + 3) (a + 6) c := h.listens.doneBy_of_onBehalf h.idle
      (fun _ o body hbody => ⟨r, o.passed, by
        rw [Script.handler?_forwarder] at hbody
        exact (Option.some.inj hbody).symm⟩) hselect
    obtain ⟨-, -, -, -, -, -, -, -, hqr, -⟩ :=
      h.listens.of_shot (fun _ => Script.handler?_forwarder r) hdone hm hattempts
    exact Or.inr ⟨hqr, hdone⟩

section Owned

variable (h : prog.Races a p x r limit start deadline t)
  (owned : ∀ c < j, ∀ q, q = x ∨ q = r → prog.At c (fun m => m.Attempts q) →
    prog.OnBehalf (Set.Ico a (a + 6)) c)

include h owned

/-- If nobody else settles the trigger, it fails at the deadline. -/
lemma of_trigger {T : Duration} (hcj : c < j) (hc : prog.SettledAt c x s T) :
    a + 3 ≤ c ∧ T = deadline ∧ s = .failed (P.timeout limit) none := by
  obtain ⟨m, hm, hsettles, rfl⟩ := hc
  have hbehalf := owned c hcj x (Or.inl rfl) ⟨m, hm, hsettles.attempts⟩
  rcases h.of_attempts hbehalf hm hsettles.attempts with ⟨-, hac, hclock, hs⟩ | ⟨hxr, -⟩
  · exact ⟨hac, hclock, hs s hsettles⟩
  · exact absurd h.lt.2 (hxr ▸ Nat.lt_irrefl _)

/-- If nobody else settles the result, a callback does. -/
lemma doneBy (hcj : c < j) (hc : prog.At c fun m => m.Attempts r) :
    prog.DoneBy (a + 3) (a + 6) c := by
  obtain ⟨m, hm, hattempts⟩ := hc
  rcases h.of_attempts (owned c hcj r (Or.inr rfl) ⟨m, hm, hattempts⟩) hm hattempts with
    ⟨hrx, -⟩ | ⟨-, hdone⟩
  · exact absurd h.lt.2 (hrx ▸ Nat.lt_irrefl _)
  · exact hdone

/-- When the clock has passed the deadline, the trigger has failed. -/
lemma exists_trigger (hj : a + 6 ≤ j) (hm : prog.moment j = some m)
    (hlate : deadline < m.world.clock) :
    ∃ c < j, prog.SettledAt c x (.failed (P.timeout limit) none) deadline := by
  obtain ⟨c', hcj', hattempts⟩ := h.arms.exists_attempts (by omega) hm (Or.inl hlate)
  obtain ⟨c, s, hc, m', hm', hsettles⟩ :=
    settled_of_attempts (hattempts.imp fun _ h => ⟨h.1, h.2.1⟩) hcj' hm
  have hat : prog.SettledAt c x s m'.world.clock := ⟨m', hm', hsettles, rfl⟩
  obtain ⟨-, hT, rfl⟩ := h.of_trigger owned (by omega) hat
  exact ⟨c, by omega, hT ▸ hat⟩

/-- If the trigger is settled before the input, the result fails at the deadline. -/
lemma failedTwice (passive : prog.Passive) (hj : a + 6 ≤ j) (hm : prog.moment j = some m)
    {T : Duration} (hcj : c < j) (hc : prog.SettledAt c x s T)
    (hpast : m.Quiet ∨ deadline < m.world.clock)
    (first : ∀ c' s' T', c' < j → prog.SettledAt c' p s' T' → c < c') :
    (m.world.view r).FailedTwice (P.timeout limit) ∧
      ∃ c' < j, ∃ s', prog.SettledAt c' r s' deadline := by
  obtain ⟨hac, rfl, rfl⟩ := h.of_trigger owned hcj hc
  have hlater : start.later T = T := Duration.later_eq_right (Duration.le_of_add?_eq_some h.due)
  obtain ⟨o, ho, hs, hat⟩ := h.listens.settles_as_first (i := 1) h.exists_r passive
    (fun c hcj hc => h.doneBy owned hcj hc) hj hm rfl hc hcj (hlater.symm ▸ hpast) (by
      intro i' q' c' s' T' hne hq' hcj' hc'
      obtain rfl : i' = 0 := by
        have hlt := (List.getElem?_eq_some_iff.mp hq').1
        simp only [List.length_cons, List.length_nil] at hlt
        omega
      cases hq'
      have hlt := first c' s' T' hcj' hc'
      exact Or.inr ⟨by omega, hlt⟩)
  obtain ⟨mc, hmc, hsettles, -⟩ := hc
  exact ⟨View.failedTwice_of_passed (settled_of_settles hcj hmc hsettles hm) ho hs, hlater ▸ hat⟩

/-- If the input is settled before the trigger, the result ends as the input. -/
lemma endsAs (passive : prog.Passive) (hj : a + 6 ≤ j) (hm : prog.moment j = some m)
    {T : Duration} (hcj : c < j) (hc : prog.SettledAt c p s T)
    (hpast : m.Quiet ∨ start.later T < m.world.clock)
    (first : ∀ c' s' T', c' < j → prog.SettledAt c' x s' T' → c < c') :
    (m.world.view r).EndsAs (m.world.view p) ∧
      ∃ c' < j, ∃ s', prog.SettledAt c' r s' (start.later T) := by
  obtain ⟨o, ho, hs, hat⟩ := h.listens.settles_as_first (i := 0) h.exists_r passive
    (fun c hcj hc => h.doneBy owned hcj hc) hj hm rfl hc hcj hpast (by
      intro i' q' c' s' T' hne hq' hcj' hc'
      obtain rfl : i' = 1 := by
        have hlt := (List.getElem?_eq_some_iff.mp hq').1
        simp only [List.length_cons, List.length_nil] at hlt
        omega
      cases hq'
      exact Or.inr ⟨(h.of_trigger owned hcj' hc').1, first c' s' T' hcj' hc'⟩)
  exact ⟨View.endsAs_of_passed ho hs, hat⟩

/-- **What becomes of a promise with a time limit** that nobody else settles. -/
theorem law (passive : prog.Passive) (hj : a + 6 ≤ j) (hm : prog.moment j = some m) :
    prog.TimeoutLaw a p x r limit start deadline j m where
  in_time c s T hcj hc hearly hpast := by
    refine h.endsAs owned passive hj hm hcj hc hpast fun c' s' T' hcj' hc' => ?_
    obtain ⟨hac', rfl, -⟩ := h.of_trigger owned hcj' hc'
    rcases hearly with hca | hT
    · omega
    · -- an earlier instant is an earlier moment
      by_contra hle
      obtain ⟨mc, hmc, -, rfl⟩ := hc
      obtain ⟨mc', hmc', -, rfl⟩ := hc'
      exact absurd hT (Nat.not_lt.mpr (clock_le (Nat.not_lt.mp hle) hmc' hmc))
  too_late hlate hnot := by
    obtain ⟨c, hcj, hc⟩ := h.exists_trigger owned hj hm hlate
    refine h.failedTwice owned passive hj hm hcj hc (Or.inr hlate) fun c' s' T' hcj' hc' => ?_
    have hT := hnot c' s' T' hcj' hc'
    by_contra hle
    obtain ⟨mc, hmc, -, rfl⟩ := hc
    obtain ⟨mc', hmc', -, rfl⟩ := hc'
    exact absurd hT (Nat.not_lt.mpr (clock_le (Nat.not_lt.mp hle) hmc' hmc))
  tie c s hcj hac hc hpast := by
    have hlater : start.later deadline = deadline :=
      Duration.later_eq_right (Duration.le_of_add?_eq_some h.due)
    by_cases hsooner : ∃ c' s' T', c' < c ∧ prog.SettledAt c' x s' T'
    · obtain ⟨c', s', T', hcc', hc'⟩ := hsooner
      obtain ⟨hfailed, hat⟩ := h.failedTwice owned passive hj hm (Nat.lt_trans hcc' hcj) hc' hpast
        fun c'' s'' T'' hcj'' hc'' => by
          have heq := settles_unique (hc.imp fun _ h => ⟨h.1, h.2.1⟩)
            (hc''.imp fun _ h => ⟨h.1, h.2.1⟩)
          omega
      exact ⟨Or.inr ⟨⟨c', s', T', hcc', hc'⟩, hfailed⟩, hat⟩
    · have hfirst : ∀ c' s' T', c' < j → prog.SettledAt c' x s' T' → c < c' := by
        intro c' s' T' hcj' hc'
        rcases Nat.lt_trichotomy c c' with hlt | rfl | hlt
        · exact hlt
        · exact absurd h.lt.1 (promise_unique hc hc' ▸ Nat.lt_irrefl _)
        · exact absurd ⟨c', s', T', hlt, hc'⟩ hsooner
      obtain ⟨hends, hat⟩ := h.endsAs owned passive hj hm hcj hc (hlater.symm ▸ hpast) hfirst
      exact ⟨Or.inl ⟨hfirst, hends⟩, hlater ▸ hat⟩

end Owned

/-- When the clock has passed the deadline the result is settled, whoever does it. -/
lemma settled_of_lt (h : prog.Races a p x r limit start deadline t) (passive : prog.Passive)
    (hj : a + 6 ≤ j) (hm : prog.moment j = some m) (hlate : deadline < m.world.clock) :
    (m.world.view r).state ≠ .unresolved := by
  obtain ⟨c', hcj', hattempts⟩ := h.arms.exists_attempts (by omega) hm (Or.inl hlate)
  obtain ⟨c, s, hc, m₁, h₁, hsettles⟩ :=
    settled_of_attempts (hattempts.imp fun _ h => ⟨h.1, h.2.1⟩) hcj' hm
  obtain ⟨m₂, h₂, -, rfl⟩ := hattempts
  have hle : start.later m₁.world.clock ≤ m₂.world.clock :=
    Duration.later_le (Duration.le_of_add?_eq_some h.due) (clock_le hc h₁ h₂)
  obtain ⟨c₃, s₃, hcj₃, m₃, h₃, hsettles₃⟩ := h.listens.settled_of_past (i := 1) h.exists_r passive
    hj hm rfl ⟨m₁, h₁, hsettles, rfl⟩ (by omega) (Or.inr (Nat.lt_of_le_of_lt hle hlate))
  rw [Ne, View.state_eq_unresolved_iff, settled_of_settles hcj₃ h₃ hsettles₃ hm]
  exact Option.some_ne_none _

end Races

/-- **What becomes of a promise with a time limit.**  In every run in which no callback makes a
drive call, if the deadline exists:

* a call with a time limit returns its result after six steps, unresolved;
* nothing that is done on behalf of the call is an attempt to settle its input;
* in every later state whose clock is beyond the deadline the result is settled;
* once it is settled nothing changes it;
* unless somebody else has attempted to settle the result or the trigger of the call, it is at every
  later moment as the law of time limits says (`Program.TimeoutLaw`): it has ended as the input, at
  the instant of its settlement or of the call, if this is before the deadline; it has failed at the
  deadline if the input is not settled then; and if it is settled at the deadline itself, the order
  decides in which the input and the trigger were settled. -/
theorem timeout_outcome (prog : Program P) (passive : prog.Passive) {a : Nat} {w : World P}
    {p : PromiseId} {limit deadline : Duration} {k : PromiseId → Script P Unit}
    {rest : List (Activity P)}
    (ha : prog.moment a = some ⟨w, .script ((Script.withTimeout p limit).bind k) :: rest⟩)
    (hdue : w.clock.add? limit = some deadline) (exist : p.index < w.promises.size) :
    prog.At (a + 6) (fun m => m.stack = .script (k ⟨w.promises.size + 1⟩) :: rest ∧
        (m.world.view ⟨w.promises.size + 1⟩).state = .unresolved) ∧
      (∀ c, prog.OnBehalf (Set.Ico a (a + 6)) c → ¬ prog.At c fun m => m.Attempts p) ∧
      (∀ j m, a + 6 ≤ j → prog.moment j = some m → deadline < m.world.clock →
        (m.world.view ⟨w.promises.size + 1⟩).state ≠ .unresolved) ∧
      (∀ j j' m m', j ≤ j' → prog.moment j = some m → prog.moment j' = some m' →
        (m.world.view ⟨w.promises.size + 1⟩).state ≠ .unresolved →
        m'.world.view ⟨w.promises.size + 1⟩ = m.world.view ⟨w.promises.size + 1⟩) ∧
      ∀ j m, a + 6 ≤ j → prog.moment j = some m →
        (∀ c < j, ∀ q, q = ⟨w.promises.size⟩ ∨ q = ⟨w.promises.size + 1⟩ →
          prog.At c (fun m => m.Attempts q) → prog.OnBehalf (Set.Ico a (a + 6)) c) →
        prog.TimeoutLaw a p ⟨w.promises.size⟩ ⟨w.promises.size + 1⟩ limit w.clock deadline j m := by
  obtain ⟨⟨m₀, h₀, hstack, hnone⟩, t, hraces⟩ := races_of_withTimeout ha hdue exist
  refine ⟨⟨m₀, h₀, hstack, View.state_eq_unresolved_iff.mpr hnone⟩, ?_, ?_, ?_, ?_⟩
  · rintro c hc ⟨m, hm, hattempts⟩
    rcases hraces.of_attempts hc hm hattempts with ⟨rfl, -⟩ | ⟨rfl, -⟩
    · exact Nat.lt_irrefl _ hraces.lt.1
    · exact Nat.lt_irrefl _ (Nat.lt_trans hraces.lt.1 hraces.lt.2)
  · exact fun j m hj hm hlate => hraces.settled_of_lt passive hj hm hlate
  · intro j j' m m' hjj' hm hm' hsettled
    obtain ⟨s, hs⟩ := Option.ne_none_iff_exists'.mp (mt View.state_eq_unresolved_iff.mpr hsettled)
    exact view_eq_of_settled hjj' hm hm' hs
  · exact fun j m hj hm owned => hraces.law owned passive hj hm

/-- A program that waits for a promise with a time limit of two milliseconds.  The promise fails
after five. -/
def limited : Program Session.Play where
  settings := .withoutTraces
  walks _ := []
  internal := []
  store := {}
  main := do
    let p ← Script.create
    let _ ← Script.withTimeout p (.millis 2)
    Script.schedule (.millis 5) (discard (Script.fail p (.failed "late")))
    discard Script.runAll

namespace limited

lemma passive : limited.Passive := by
  refine (flat_of_ends (n := 28) rfl ?_).passive
  decide +kernel

/-- What is attempted by the timer and by the callbacks of the call is done on its behalf. -/
lemma onBehalf {c : Nat} (hc : c = 10 ∨ c = 14 ∨ c = 22) :
    limited.OnBehalf (Set.Ico 1 7) c := by
  obtain rfl | rfl | rfl := hc
  · have hbusy : limited.Busy 10 ⟨.millis 2, 0, .script (discard (Script.fail ⟨1⟩
        (.timeout (.millis 2))))⟩ := by
      refine ⟨[_], [_], ⟨_, _, _, _, 9, rfl, by decide, ⟨_, rfl, rfl, _, _, _, _, _, rfl, rfl⟩,
        fun i hi hle => ?_⟩, _, rfl, rfl, by simp⟩
      obtain rfl : i = 10 := by omega
      exact ⟨_, rfl, [_], by simp, rfl⟩
    exact .task (.root ⟨by decide, by decide⟩) (i := 3)
      ⟨_, rfl, _, _, _, _, rfl, rfl, rfl, rfl⟩ hbusy
  · refine .callback (.root ⟨by decide, by decide⟩) (i := 6) (p := ⟨1⟩) (n := 0)
      ⟨_, rfl, ⟨_, by decide, _, _, rfl⟩, rfl⟩
      ⟨13, _, _, _, _, by decide, ⟨_, rfl, rfl⟩, rfl, fun i hi hle => ?_⟩
    obtain rfl : i = 14 := by omega
    exact ⟨_, rfl, [_], by simp, rfl⟩
  · refine .callback (.root ⟨by decide, by decide⟩) (i := 5) (p := ⟨0⟩) (n := 0)
      ⟨_, rfl, ⟨_, by decide, _, _, rfl⟩, rfl⟩
      ⟨21, _, _, _, _, by decide, ⟨_, rfl, rfl⟩, rfl, fun i hi hle => ?_⟩
    obtain rfl : i = 22 := by omega
    exact ⟨_, rfl, [_], by simp, rfl⟩

end limited

/-- In `limited` the result has failed because of the limit when the drive is over. -/
theorem timeout_outcome_limited : ∃ m, limited.moment 26 = some m ∧
    (m.world.view ⟨2⟩).result? = some (.error (.timeout (.millis 2))) ∧
    limited.TimeoutLaw 1 ⟨0⟩ ⟨1⟩ ⟨2⟩ (.millis 2) .zero (.millis 2) 26 m := by
  obtain ⟨w, k, rest, ha, hsize, hclock⟩ : ∃ w k rest,
      limited.moment 1 = some ⟨w, .script ((Script.withTimeout ⟨0⟩ (.millis 2)).bind k) :: rest⟩ ∧
        w.promises.size = 1 ∧ w.clock = .zero := ⟨_, _, _, rfl, rfl, rfl⟩
  obtain ⟨m, hm, hfailed⟩ : ∃ m, limited.moment 26 = some m ∧
      (m.world.view ⟨2⟩).result? = some (.error (.timeout (.millis 2))) := ⟨_, rfl, rfl⟩
  have hdue : w.clock.add? (.millis 2) = some (.millis 2) := by
    rw [hclock]
    rfl
  obtain ⟨-, -, -, -, hlaw⟩ := timeout_outcome limited limited.passive ha hdue (by simp [hsize])
  rw [hsize, hclock] at hlaw
  refine ⟨m, hm, hfailed, hlaw 26 m (by decide) hm fun c hc q hq hat => limited.onBehalf ?_⟩
  rcases hq with rfl | rfl
  · exact Or.inl (of_attempted (Q := (· = 10)) (by decide +kernel) hc hat)
  · exact Or.inr (of_attempted (Q := fun i => i = 14 ∨ i = 22) (by decide +kernel) hc hat)

end Program

end Eventual
