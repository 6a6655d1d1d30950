import Eventual.Proofs.Ownership

/-!
# What becomes of a pipeline

What becomes of the promise of a pipeline is what the rules of `Pipeline.Ends` say: a promise that
follows on another one ends at the instant at which this ends, or at the instant of the call if that
is later, and one that follows on the promise for a value ends when this does.  The callbacks and
the timers take turns in between, and other tasks may come first; but at a moment at which nothing
is due and nothing is under way for the pipeline the rules are exact (`Pipeline.sound`).
-/

namespace Eventual

variable {P : Payload}

/-- The value or the error of a settlement. -/
def Settlement.result {V E : Type} : Settlement V E → Except E V
  | .fulfilled v => .ok v
  | .failed e _ => .error e

/-- The value or the error of an outcome. -/
def Outcome.result {V E : Type} : Outcome V E → Except E V
  | .succeeded v => .ok v
  | .failed t => .error t.error

section Results

variable {V E : Type}

@[simp] lemma Settlement.result_ofResult (R : Except E V) :
    (Settlement.ofResult R).result = R := by
  cases R <;> rfl

lemma Settlement.result_outcome (s : Settlement V E) (segment? : Option Segment) :
    (s.outcome segment?).result = s.result := by
  cases s with
  | fulfilled v => rfl
  | failed e cause? => exact congrArg Except.error (Trace.error_ofFailure e segment? cause?)

lemma Outcome.result_mapped (f : V → Except E V) (o : Outcome V E) :
    (o.mapped f).result = o.result >>= f := by
  cases o with
  | succeeded v => exact Settlement.result_ofResult (f v)
  | failed t => rfl

lemma Outcome.passed_eq_mapped (o : Outcome V E) : o.passed = o.mapped .ok := by
  cases o <;> rfl

lemma View.result?_of_settlement? {v : View V E} {s : Settlement V E}
    (h : v.settlement? = some s) : v.result? = some s.result := by
  rw [View.result?, h]
  cases s <;> rfl

end Results

namespace Program

/-- Before moment `j` a promise was settled at the instant `T`, with the value or the error `R`. -/
def Ended (prog : Program P) (j : Nat) (p : PromiseId) (R : Except P.Error P.Value)
    (T : Duration) : Prop :=
  ∃ c < j, ∃ s, prog.SettledAt c p s T ∧ s.result = R

end Program

/-- What becomes of the promise of a pipeline that is called at an instant: it ends with a value or
an error at an instant.  What has become of the promises that were there already is seen at moment
`j`, and timers are heard up to the instant `now`. -/
inductive Pipeline.Ends (prog : Program P) (j : Nat) (now : Duration) :
    Pipeline P → Duration → Except P.Error P.Value → Duration → Prop
  /-- It has ended as the promise that was there. -/
  | existing {p : PromiseId} {start T : Duration} {R : Except P.Error P.Value}
      (ended : prog.Ended j p R T) : Ends prog j now (existing p) start R T
  /-- It is settled at once. -/
  | settled {R : Except P.Error P.Value} {start : Duration} :
      Ends prog j now (settled R) start R start
  /-- It is settled when its timer goes off. -/
  | timed {t : Timed P} {start T : Duration} (due : start.add? t.delay = some T) (past : T ≤ now) :
      Ends prog j now (timed t) start t.result T
  /-- It is settled when its timer goes off, with what the function gives. -/
  | deferred {t : Timed P} {start T : Duration} (due : start.add? t.delay = some T)
      (past : T ≤ now) : Ends prog j now (deferred t) start t.result T
  /-- It ends with what the function makes of the value. -/
  | andThen {source : Pipeline P} {f : P.Value → Except P.Error P.Value} {start T : Duration}
      {R : Except P.Error P.Value} (ends : Ends prog j now source start R T) :
      Ends prog j now (andThen source f) start (R >>= f) (start.later T)
  /-- It fails as the promise that it follows on. -/
  | failed {source : Pipeline P} {F : P.Value → Pipeline P} {start T : Duration} {e : P.Error}
      (ends : Ends prog j now source start (.error e) T) :
      Ends prog j now (lazily source F) start (.error e) (start.later T)
  /-- It ends as the promise for the value, whose pipeline is called when the value is there. -/
  | chained {source : Pipeline P} {F : P.Value → Pipeline P} {start T T' : Duration} {v : P.Value}
      {R : Except P.Error P.Value} (ends : Ends prog j now source start (.ok v) T)
      (next : Ends prog j now (F v) (start.later T) R T') :
      Ends prog j now (lazily source F) start R ((start.later T).later T')

namespace Program

variable {prog : Program P} {a b c i j l f : Nat} {m : Machine P} {w : World P}
  {p x r : PromiseId} {ob : Observer P} {start T T' : Duration} {R R' : Except P.Error P.Value}
  {body : Script P Unit}

/-! ## How promises have ended -/

lemma Ended.unique (h : prog.Ended j p R T) (h' : prog.Ended j p R' T') : R = R' ∧ T = T' := by
  obtain ⟨c, -, s, hat, rfl⟩ := h
  obtain ⟨c', -, s', hat', rfl⟩ := h'
  obtain ⟨-, rfl, rfl⟩ := hat.unique hat'
  exact ⟨rfl, rfl⟩

/-- What can be read of a promise is how it has ended. -/
lemma result?_eq_some_iff (hm : prog.moment j = some m) :
    (m.world.view p).result? = some R ↔ ∃ T, prog.Ended j p R T := by
  constructor
  · intro hR
    rcases hs : (m.world.view p).settlement? with _ | s
    · rw [View.result?, hs] at hR
      cases hR
    · rw [View.result?_of_settlement? hs] at hR
      obtain ⟨c, hcj, mc, hmc, hsettles⟩ := exists_settles hm hs
      exact ⟨_, c, hcj, s, ⟨mc, hmc, hsettles, rfl⟩, Option.some.inj hR⟩
  · rintro ⟨T, c, hcj, s, ⟨mc, hmc, hsettles, -⟩, rfl⟩
    exact View.result?_of_settlement? (settled_of_settles hcj hmc hsettles hm)

/-- A promise whose outcome is known was settled before. -/
lemma settledAt_of_outcome? {o : Outcome P.Value P.Error}
    (ho : prog.At l fun m => (m.world.view p).outcome? = some o) :
    ∃ c < l, ∃ s T, prog.SettledAt c p s T ∧ s.result = o.result := by
  obtain ⟨m, hm, ho⟩ := ho
  obtain ⟨s, hs, rfl⟩ := Option.map_eq_some_iff.mp ho
  obtain ⟨c, hc, mc, hmc, hsettles⟩ := exists_settles hm hs
  exact ⟨c, hc, s, _, ⟨mc, hmc, hsettles, rfl⟩, (s.result_outcome _).symm⟩

/-- **One promise that gets what a function makes of the value of another one**, at a quiet
moment. -/
theorem Listens.ended_iff {g : P.Value → Except P.Error P.Value}
    (h : prog.Listens a f [x] (fun _ => ob) start)
    (shots : ∀ o, ob.handler? o = some (.op (.settle r (o.mapped g)) fun _ => .pure ()))
    (exists_r : prog.At (f + 1) fun m => r.index < m.world.promises.size)
    (passive : prog.Passive)
    (owned : ∀ c < j, prog.At c (fun m => m.Attempts r) → prog.DoneBy a (f + 1) c)
    (hj : f + 1 ≤ j) (hm : prog.moment j = some m) (hquiet : m.Quiet) :
    prog.Ended j r R T ↔ ∃ R' T', prog.Ended j x R' T' ∧ R = R' >>= g ∧ T = start.later T' := by
  have hforward : ∀ {R T}, prog.Ended j r R T →
      ∃ R' T', prog.Ended j x R' T' ∧ R = R' >>= g ∧ T = start.later T' := by
    rintro R T ⟨c, hcj, s, ⟨mc, hmc, hsettles, rfl⟩, rfl⟩
    obtain ⟨i, l, p, o, body, hp, hears, rfl, -, hs, ho⟩ := h.of_shot (fun _ => shots)
      (owned c hcj ⟨mc, hmc, hsettles.attempts⟩) hmc hsettles.attempts
    obtain ⟨c₀, hc₀, s₀, T₀, hat, hresult⟩ := settledAt_of_outcome? ho
    have hi := (List.getElem?_eq_some_iff.mp hp).1
    obtain rfl : i = 0 := by simpa using hi
    cases Option.some.inj hp
    refine ⟨s₀.result, T₀, ⟨c₀, by omega, s₀, hat, rfl⟩, ?_,
      h.clock_of_called passive rfl hat hears hmc⟩
    rw [hs s hsettles, Outcome.result_mapped, hresult]
  refine ⟨hforward, ?_⟩
  rintro ⟨R', T', hended, rfl, rfl⟩
  obtain ⟨c, hcj, s, ⟨mc, hmc, hsettles, -⟩, -⟩ := id hended
  have ho := View.outcome?_of_settlement? (settled_of_settles hcj hmc hsettles hm)
  obtain ⟨-, -, c', s', -, -, hcj', mr, hmr, hsettles'⟩ :=
    h.settled_of_quiet (i := 0) (fun _ => shots) exists_r hj hm hquiet rfl ho
  have hr : prog.Ended j r s'.result mr.world.clock :=
    ⟨c', hcj', s', ⟨mr, hmr, hsettles', rfl⟩, rfl⟩
  obtain ⟨R'', T'', hended', hR, hT⟩ := hforward hr
  obtain ⟨rfl, rfl⟩ := hended.unique hended'
  rw [← hR, ← hT]
  exact hr

/-- At a quiet moment the observer of a promise that has ended was told how. -/
lemma Listens.hears_of_ended (h : prog.Listens a f [x] (fun _ => ob) start) (hj : f + 1 ≤ j)
    (hm : prog.moment j = some m) (hquiet : m.Quiet) (hended : prog.Ended j x R T) :
    ∃ l body o, l + 1 < j ∧ prog.Hears f [x] 0 l body ∧
      prog.At l (fun m => (m.world.view x).outcome? = some o) ∧ o.result = R ∧
      ob.handler? o = some body := by
  obtain ⟨c, hcj, s, ⟨mc, hmc, hsettles, -⟩, -⟩ := id hended
  obtain ⟨l, body, hlj, hears⟩ := h.hears_of_quiet (i := 0) hj hm hquiet rfl
    (View.outcome?_of_settlement? (settled_of_settles hcj hmc hsettles hm))
  obtain ⟨-, p, ml, o, hp, hml, ho, hhandler⟩ := h.of_hears hears
  cases Option.some.inj hp
  obtain ⟨c₀, hc₀, s₀, T₀, hat, hresult⟩ := settledAt_of_outcome? ⟨ml, hml, ho⟩
  obtain ⟨rfl, -⟩ := hended.unique ⟨c₀, by omega, s₀, hat, rfl⟩
  exact ⟨l, body, o, hears.lt_of_quiet hm hquiet hlj, hears, ⟨ml, hml, ho⟩, hresult.symm, hhandler⟩

/-! ## A promise that ends as the one for a value -/

namespace Attaches

variable {F : P.Value → Pipeline P} {v : P.Value} {e : P.Error} {below : List (Activity P)}

section Chainer

variable (h : prog.Attaches a x r (Script.chainer (fun v => (F v).script) r) start)
  (known : ∀ v, (F v).Known r.index) (hprivate : prog.Private a (a + 2) j)

include h hprivate

/-- If the promise has ended, so has the one that it follows on. -/
lemma ended_of_chained (hended : prog.Ended j r R T) : ∃ R' T', prog.Ended j x R' T' := by
  obtain ⟨c, hcj, s, ⟨mc, hmc, hsettles, -⟩, -⟩ := hended
  have hat : prog.At c fun m => m.Attempts r := ⟨mc, hmc, hsettles.attempts⟩
  obtain ⟨l, body, q, o', rs, below, hears, -, hbehalf⟩ :=
    h.under_of_attempts (h.onBehalf_of_attempts hprivate hcj hat) hat
  have hlc : l < c := hbehalf.le (a := l + 1) fun i hi => hi.1
  obtain ⟨-, p, m₀, o, hp, h₀, ho, -⟩ := h.listens.of_hears hears
  cases Option.some.inj hp
  obtain ⟨c₀, hc₀, s₀, T₀, hat₀, -⟩ := settledAt_of_outcome? ⟨m₀, h₀, ho⟩
  exact ⟨_, T₀, c₀, by omega, s₀, hat₀, rfl⟩

/-- If the promise that it follows on has failed, it fails. -/
lemma ended_iff_of_error (passive : prog.Passive) (hj : a + 2 ≤ j) (hm : prog.moment j = some m)
    (hquiet : m.Quiet) (hended : prog.Ended j x (.error e) T') :
    prog.Ended j r R T ↔ R = .error e ∧ T = start.later T' := by
  obtain ⟨l, body, o, hlj, hears, ho, hresult, hhandler⟩ :=
    h.listens.hears_of_ended hj hm hquiet hended
  cases o with
  | succeeded v => cases hresult
  | failed t =>
    cases hresult
    cases hhandler
    obtain ⟨m₁, h₁⟩ := exists_moment_of_le (Nat.le_of_lt hlj) hm
    have hforward : ∀ {R T}, prog.Ended j r R T → R = .error t.error ∧ T = start.later T' := by
      rintro R T ⟨c, hcj, s, ⟨mc, hmc, hsettles, rfl⟩, rfl⟩
      have hat : prog.At c fun m => m.Attempts r := ⟨mc, hmc, hsettles.attempts⟩
      obtain ⟨rfl, -, -, hs⟩ := (h.shoots_of_attempts hears ho
        (h.onBehalf_of_attempts hprivate hcj hat) hat).of_attempts hmc hsettles.attempts
      obtain ⟨c₀, -, s₀, hat₀, -⟩ := hended
      rw [hs s hsettles]
      exact ⟨rfl, h.listens.clock_of_called passive rfl hat₀ hears hmc⟩
    refine ⟨hforward, ?_⟩
    rintro ⟨rfl, rfl⟩
    -- the callback has made its attempt
    obtain ⟨q, o, rs, below, hstack⟩ := hears.exists_stack h₁
    have hlate := Nat.lt_succ_of_lt (Nat.lt_of_succ_lt (h.lt_of_hears hears))
    obtain ⟨m₁', h₁', hlt⟩ := h.exists_r hlate h₁
    cases h₁.symm.trans h₁'
    obtain ⟨c, s, hc, mc, hmc, hsettles⟩ :=
      settled_of_attempts ⟨m₁, h₁, hlt, _, _, _, hstack⟩ hlj hm
    have hr : prog.Ended j r s.result mc.world.clock :=
      ⟨c, by omega, s, ⟨mc, hmc, hsettles, rfl⟩, rfl⟩
    obtain ⟨hR, hT⟩ := hforward hr
    exact hR ▸ hT ▸ hr

/-- Nobody else settles the promises of the pipeline that the callback carries out. -/
lemma private_of_passesOn (hm : prog.moment j = some m) (hquiet : m.Quiet) (hlj : l < j)
    (hears : prog.Hears (a + 1) [x] 0 l body) (hpasses : prog.PassesOn l (F v) r w below) :
    prog.Private (l + 1) (l + 1 + (F v).steps) j := by
  have hover := hpasses.lt_of_quiet hm hquiet hlj
  intro i c z hcj hi hcreates hat
  have hi' : prog.OnBehalf (Set.Ico a (a + 2)) i := hi.trans fun i' hi' =>
    h.onBehalf_of_under hears hpasses (hpasses.under_of_mem hm (by omega) hi')
  rcases h.of_attempts hears hpasses (hprivate i c z hcj hi' hcreates hat) hat with
    hpipeline | hforward
  · exact hpipeline
  · -- what is passed on is for a promise that was made before
    exfalso
    obtain ⟨me, hme⟩ := exists_moment_of_le (i := l + 1 + (F v).steps) (by omega) hm
    obtain ⟨mc, hmc, hattempts⟩ := hat
    obtain ⟨-, -, -, -, -, -, -, -, rfl, -⟩ := (hpasses.listens hme).2.of_shot
      (fun _ => Script.handler?_forwarder r) (hpasses.doneBy hme hforward) hmc hattempts
    have heq := creates_unique hcreates (h.creates.imp fun _ h => ⟨h.1, h.2.1⟩)
    have hle : l + 1 ≤ i := hi.le fun i' hi' => hi'.1
    have hlt := h.lt_of_hears hears
    omega

/-- All attempts to settle the promise are to pass on what becomes of the promise of the
pipeline. -/
lemma doneBy_of_passesOn (hm : prog.moment j = some m) (hquiet : m.Quiet) (hlj : l < j)
    (hears : prog.Hears (a + 1) [x] 0 l body) (hpasses : prog.PassesOn l (F v) r w below)
    (hcj : c < j) (hat : prog.At c fun m => m.Attempts r) :
    prog.DoneBy (l + 1 + (F v).steps) (l + 1 + (F v).steps + 1) c := by
  have hover := hpasses.lt_of_quiet hm hquiet hlj
  obtain ⟨me, hme⟩ := exists_moment_of_le (i := l + 1 + (F v).steps) (by omega) hm
  rcases h.of_attempts hears hpasses (h.onBehalf_of_attempts hprivate hcj hat) hat with
    hpipeline | hforward
  · -- the pipeline settles only promises that it has made
    exfalso
    obtain ⟨i, hi, hcreates⟩ := (F v).tidy hm hquiet hpasses.called hpasses.known (by omega) c r hcj
      hpipeline hat
    have heq := creates_unique hcreates (h.creates.imp fun _ h => ⟨h.1, h.2.1⟩)
    have hle : l + 1 ≤ i := hi.le fun i' hi' => hi'.1
    have hlt := h.lt_of_hears hears
    omega
  · exact hpasses.doneBy hme hforward

include known

/-- If the promise that it follows on has a value, it ends as the promise of the pipeline for
this. -/
lemma ended_iff_of_ok (passive : prog.Passive) (hj : a + 2 ≤ j) (hm : prog.moment j = some m)
    (hquiet : m.Quiet) (hidle : ¬ prog.OnBehalf (Set.Ico a (a + 2)) j)
    (sound : ∀ {l w below}, prog.PassesOn l (F v) r w below → l + 1 + (F v).steps ≤ j →
      prog.Private (l + 1) (l + 1 + (F v).steps) j →
      ¬ prog.OnBehalf (Set.Ico (l + 1) (l + 1 + (F v).steps)) j → ∀ {R T},
      prog.Ended j ((F v).result w.promises.size) R T ↔
        (F v).Ends prog j m.world.clock w.clock R T)
    (hended : prog.Ended j x (.ok v) T') :
    prog.Ended j r R T ↔ ∃ T'', (F v).Ends prog j m.world.clock (start.later T') R T'' ∧
      T = (start.later T').later T'' := by
  obtain ⟨l, body, o, hlj, hears, ho, hresult, -⟩ := h.listens.hears_of_ended hj hm hquiet hended
  cases o with
  | failed t => cases hresult
  | succeeded v' =>
    cases hresult
    obtain ⟨⟨w₁, stack⟩, h₁⟩ := exists_moment_of_le (Nat.le_of_lt hlj) hm
    obtain ⟨below, hpasses⟩ := h.passesOn known hears ho h₁
    have hover := hpasses.lt_of_quiet hm hquiet (by omega)
    obtain ⟨me, hme⟩ := exists_moment_of_le (i := l + 1 + (F v).steps) (by omega) hm
    obtain ⟨me', hme'⟩ := exists_moment_of_le (Nat.le_of_lt hover) hm
    have hclock : w₁.clock = start.later T' := by
      obtain ⟨c₀, -, s₀, hat₀, -⟩ := hended
      exact h.listens.clock_of_called passive rfl hat₀ hears h₁
    have hforward := (hpasses.listens hme).2.ended_iff (R := R) (T := T)
      (fun o => Outcome.passed_eq_mapped o ▸ Script.handler?_forwarder r o)
      (h.exists_r (by have := h.lt_of_hears hears; omega) hme') passive
      (fun c hcj hat => h.doneBy_of_passesOn hprivate hm hquiet (by omega) hears hpasses hcj hat)
      (Nat.le_of_lt hover) hm hquiet
    have hsound := fun {R T} => sound (R := R) (T := T) hpasses (by omega)
      (h.private_of_passesOn hprivate hm hquiet (by omega) hears hpasses)
      fun hj => hidle (hj.trans fun i hi =>
        h.onBehalf_of_under hears hpasses (hpasses.under_of_mem hm (by omega) hi))
    have hpure : ∀ R : Except P.Error P.Value, R >>= .ok = R := bind_pure
    rw [hforward, ← hclock]
    constructor
    · rintro ⟨R', T'', hended', rfl, rfl⟩
      exact ⟨T'', (hpure R').symm ▸ hsound.mp hended', rfl⟩
    · rintro ⟨T'', hends, rfl⟩
      exact ⟨R, T'', hsound.mpr hends, (hpure R).symm, rfl⟩

end Chainer

end Attaches

end Program

/-! ## The rules -/

namespace Pipeline

open Program

section Rules

variable {prog : Program P} {j : Nat} {now start T : Duration} {source : Pipeline P}
  {R : Except P.Error P.Value}

lemma ends_timed_iff {t : Timed P} : (timed t).Ends prog j now start R T ↔
    R = t.result ∧ start.add? t.delay = some T ∧ T ≤ now := by
  constructor
  · rintro ⟨⟩
    exact ⟨rfl, ‹_›, ‹_›⟩
  · rintro ⟨rfl, hdue, hpast⟩
    exact .timed hdue hpast

lemma ends_deferred_iff {t : Timed P} :
    (deferred t).Ends prog j now start R T ↔ (timed t).Ends prog j now start R T := by
  constructor
  · rintro ⟨⟩
    exact .timed ‹_› ‹_›
  · rintro ⟨⟩
    exact .deferred ‹_› ‹_›

lemma ends_andThen_iff {f : P.Value → Except P.Error P.Value} :
    (andThen source f).Ends prog j now start R T ↔ ∃ R' T', source.Ends prog j now start R' T' ∧
      R = R' >>= f ∧ T = start.later T' := by
  constructor
  · intro h
    cases h with
    | andThen hends => exact ⟨_, _, hends, rfl, rfl⟩
  · rintro ⟨R', T', hends, rfl, rfl⟩
    exact .andThen hends

lemma ends_lazily_iff {F : P.Value → Pipeline P} :
    (lazily source F).Ends prog j now start R T ↔
      (∃ e T', source.Ends prog j now start (.error e) T' ∧ R = .error e ∧ T = start.later T') ∨
        ∃ v T' T'', source.Ends prog j now start (.ok v) T' ∧
          (F v).Ends prog j now (start.later T') R T'' ∧ T = (start.later T').later T'' := by
  constructor
  · intro h
    cases h with
    | failed hends => exact Or.inl ⟨_, _, hends, rfl, rfl⟩
    | chained hends hnext => exact Or.inr ⟨_, _, _, hends, hnext, rfl⟩
  · rintro (⟨e, T', hends, rfl, rfl⟩ | ⟨v, T', T'', hends, hnext, rfl⟩)
    · exact .failed hends
    · exact .chained hends hnext

end Rules

variable {prog : Program P} {j : Nat} {m : Machine P}

/-- A promise that is settled after a delay has ended if its timer has gone off. -/
lemma ended_iff_of_timed {t : Timed P} {a : Nat} {w : World P} {k : PromiseId → Script P Unit}
    {rest : List (Activity P)} (hm : prog.moment j = some m) (hquiet : m.Quiet)
    (ha : prog.moment a = some ⟨w, .script ((Script.settleAfter t).bind k) :: rest⟩)
    (hj : a + 3 ≤ j) (hprivate : prog.Private a (a + 3) j)
    (hidle : ¬ prog.OnBehalf (Set.Ico a (a + 3)) j) {R : Except P.Error P.Value} {T : Duration} :
    prog.Ended j ⟨w.promises.size⟩ R T ↔
      R = t.result ∧ w.clock.add? t.delay = some T ∧ T ≤ m.world.clock := by
  obtain ⟨m₃, h₃⟩ := exists_moment_of_le hj hm
  obtain ⟨-, -, -, due, task, hdue, arms⟩ := arms_of_settleAfter ha h₃
  have hroot : ∀ {i}, a ≤ i → i < a + 3 → prog.OnBehalf (Set.Ico a (a + 3)) i :=
    fun hai hi => .root ⟨hai, hi⟩
  have hforward : ∀ {R T}, prog.Ended j ⟨w.promises.size⟩ R T →
      R = t.result ∧ T = due ∧ T ≤ m.world.clock := by
    rintro R T ⟨c, hcj, s, ⟨mc, hmc, hsettles, rfl⟩, rfl⟩
    have hc := hprivate a c _ hcj (hroot (Nat.le_refl a) (by omega))
      (arms.creates.imp fun _ h => ⟨h.1, h.2.1⟩) ⟨mc, hmc, hsettles.attempts⟩
    obtain ⟨-, -, hclock, hs⟩ := arms.of_attempts hc hmc hsettles.attempts
    rw [hs s hsettles]
    exact ⟨Settlement.result_ofResult _, hclock, clock_le (Nat.le_of_lt hcj) hmc hm⟩
  constructor
  · intro hended
    obtain ⟨hR, rfl, hT⟩ := hforward hended
    exact ⟨hR, hdue, hT⟩
  · rintro ⟨rfl, hT, hpast⟩
    cases hdue.symm.trans hT
    obtain ⟨c', hcj', hattempts⟩ := arms.exists_attempts hj hm (Or.inr ⟨hpast, hquiet.nothingDue,
      fun hbusy => hidle (.task (hroot (Nat.le_add_right a 2) (by omega)) arms.schedules hbusy)⟩)
    obtain ⟨c, s, hc, mc, hmc, hsettles⟩ :=
      settled_of_attempts (hattempts.imp fun _ h => ⟨h.1, h.2.1⟩) hcj' hm
    have hended : prog.Ended j ⟨w.promises.size⟩ s.result mc.world.clock :=
      ⟨c, by omega, s, ⟨mc, hmc, hsettles, rfl⟩, rfl⟩
    obtain ⟨hR, hT, -⟩ := hforward hended
    exact hR ▸ hT ▸ hended

/-- **What becomes of the promise of a pipeline** is what the rules say, whatever else the run does,
if nobody else settles the promises that are made for the pipeline. -/
theorem sound (π : Pipeline P) (passive : prog.Passive) (hm : prog.moment j = some m)
    (hquiet : m.Quiet) {a : Nat} {w : World P} {k : PromiseId → Script P Unit}
    {rest : List (Activity P)}
    (ha : prog.moment a = some ⟨w, .script (π.script.bind k) :: rest⟩)
    (known : π.Known w.promises.size) (hj : a + π.steps ≤ j)
    (hprivate : prog.Private a (a + π.steps) j)
    (hidle : ¬ prog.OnBehalf (Set.Ico a (a + π.steps)) j) (R : Except P.Error P.Value)
    (T : Duration) :
    prog.Ended j (π.result w.promises.size) R T ↔ π.Ends prog j m.world.clock w.clock R T := by
  induction π generalizing a w k rest R T with
  | existing p =>
    constructor
    · exact .existing
    · rintro ⟨hended⟩
      exact hended
  | settled R₀ =>
    obtain ⟨-, -, -, hsettles⟩ := settles_of_ofResult ha
    have hended : prog.Ended j ⟨w.promises.size⟩ R₀ w.clock :=
      ⟨a + 1, by simp only [steps] at hj; omega, _, hsettles, Settlement.result_ofResult R₀⟩
    constructor
    · intro h
      obtain ⟨rfl, rfl⟩ := hended.unique h
      exact .settled
    · rintro ⟨⟩
      exact hended
  | timed t | deferred t =>
    simp only [script_timed, script_deferred] at ha
    rw [result, ended_iff_of_timed hm hquiet ha hj hprivate hidle]
    simp only [ends_deferred_iff, ends_timed_iff]
  | andThen source f ih =>
    have hrunning := ((andThen source f).returns ha known).1.scripts hm hj
    simp only [steps, ← Nat.add_assoc] at hj hprivate hidle hrunning
    obtain ⟨mb, hmb⟩ := exists_moment_of_le (i := a + source.steps) (by omega) hm
    have hattaches := attaches_of_andThen ha known hmb
    have hshots := Script.handler?_mapper f ((andThen source f).result w.promises.size)
    rw [script_andThen_bind] at ha
    have hsource := ih ha known (by omega)
      (hprivate.first passive hrunning (hattaches.tidy_of_shots hshots) (Nat.le_add_right _ _))
      fun h => hidle (h.mono (Set.Ico_subset_Ico_right (Nat.le_add_right _ _)))
    have hfollow := hprivate.second passive hrunning
      (source.tidy hm hquiet ha known (by omega)) (Nat.le_add_right _ _)
    obtain ⟨me, hme⟩ := exists_moment_of_le hj hm
    rw [hattaches.listens.ended_iff hshots (hattaches.exists_r (by omega) hme) passive
      (fun c hcj hat => hattaches.doneBy hshots (hattaches.onBehalf_of_attempts hfollow hcj hat))
      hj hm hquiet, ends_andThen_iff]
    simp only [hsource]
  | lazily source F ih ihF =>
    have hrunning := ((lazily source F).returns ha known).1.scripts hm hj
    simp only [steps, ← Nat.add_assoc] at hj hprivate hidle hrunning
    obtain ⟨mb, hmb⟩ := exists_moment_of_le (i := a + source.steps) (by omega) hm
    have hattaches := attaches_of_lazily ha known.1 hmb
    have hknown : ∀ v, (F v).Known ((lazily source F).result w.promises.size).index :=
      fun v => (known.2 v).mono (Nat.le_add_right _ _)
    rw [script_lazily_bind] at ha
    have hsource := ih ha known.1 (by omega)
      (hprivate.first passive hrunning (hattaches.tidy_of_chainer hknown hm hquiet
        fun v l w' below hpasses hle => (F v).tidy hm hquiet hpasses.called hpasses.known hle)
        (Nat.le_add_right _ _))
      fun h => hidle (h.mono (Set.Ico_subset_Ico_right (Nat.le_add_right _ _)))
    have hfollow := hprivate.second passive hrunning
      (source.tidy hm hquiet ha known.1 (by omega)) (Nat.le_add_right _ _)
    have hidle' : ¬ prog.OnBehalf (Set.Ico (a + source.steps) (a + source.steps + 2)) j :=
      fun h => hidle (h.mono (Set.Ico_subset_Ico_left (Nat.le_add_right _ _)))
    have herror : ∀ {e T'}, prog.Ended j (source.result w.promises.size) (.error e) T' →
        (prog.Ended j ((lazily source F).result w.promises.size) R T ↔
          R = .error e ∧ T = w.clock.later T') :=
      fun h => hattaches.ended_iff_of_error hfollow passive hj hm hquiet h
    have hok : ∀ {v T'}, prog.Ended j (source.result w.promises.size) (.ok v) T' →
        (prog.Ended j ((lazily source F).result w.promises.size) R T ↔
          ∃ T'', (F v).Ends prog j m.world.clock (w.clock.later T') R T'' ∧
            T = (w.clock.later T').later T'') :=
      fun {v _} h => hattaches.ended_iff_of_ok hknown hfollow passive hj hm hquiet hidle'
        (fun {l w' below} hpasses hle hprivate hidle {R T} =>
          ihF v hpasses.called hpasses.known hle hprivate hidle R T) h
    rw [ends_lazily_iff]
    constructor
    · intro hended
      obtain ⟨R', T', hended'⟩ := hattaches.ended_of_chained hfollow hended
      cases R' with
      | error e => exact Or.inl ⟨e, T', (hsource _ _).mp hended', (herror hended').mp hended⟩
      | ok v =>
        obtain ⟨T'', hends, hT⟩ := (hok hended').mp hended
        exact Or.inr ⟨v, T', T'', (hsource _ _).mp hended', hends, hT⟩
    · rintro (⟨e, T', hends, hR, hT⟩ | ⟨v, T', T'', hends, hnext, hT⟩)
      · exact (herror ((hsource _ _).mpr hends)).mpr ⟨hR, hT⟩
      · exact (hok ((hsource _ _).mpr hends)).mpr ⟨T'', hnext, hT⟩

end Pipeline

end Eventual
