import Eventual.Proofs.Selecting

/-!
# What becomes of a measurement

A measurement makes its result, reads the clock and registers one observer on its input, which reads
the clock again and fulfills the result with the difference, whatever the input has ended with.  The
second reading is made in a task of its own, after the settlement; but the clock stands still until
this task is over, so what is measured is exact (`Program.ElapsedLaw`).
-/

namespace Eventual

variable {P : Payload}

/-- The observer by which the result of a measurement gets the time that has passed. -/
def Script.stopwatch (r : PromiseId) (start : Duration) : Observer P :=
  .onEither (fun _ => fulfillSince r start) fun _ => fulfillSince r start

namespace Script

variable {α : Type} {r : PromiseId} {start : Duration}

lemma fulfillSince_eq (r : PromiseId) (start : Duration) :
    (fulfillSince r start : Script P Unit) = .op .now fun clock =>
      .op (.settle r (.fulfilled (P.span (clock.monus start)))) fun _ => .pure () :=
  rfl

lemma handler?_stopwatch (r : PromiseId) (start : Duration) (o : Outcome P.Value P.Error) :
    (stopwatch r start : Observer P).handler? o = some (fulfillSince r start) := by
  cases o <;> rfl

lemma awaits_stopwatch (r : PromiseId) (start : Duration) (o : Outcome P.Value P.Error) :
    (stopwatch r start : Observer P).awaits o = true := by
  cases o <;> rfl

lemma elapsed_bind (p : PromiseId) (k : PromiseId → Script P α) :
    (elapsed p).bind k = .op .create fun r => .op .now fun start =>
      (observeEach (fun _ => stopwatch r start) 0 [p]).bind fun _ => k r :=
  rfl

end Script

namespace Program

/-- What has become of a measurement, called at moment `a` and the instant `start`, at a later
moment `j`. -/
structure ElapsedLaw (prog : Program P) (a : Nat) (p r : PromiseId) (start : Duration) (j : Nat)
    (m : Machine P) : Prop where
  /-- It has succeeded if its input is settled, in whichever way. -/
  succeeded_iff : (m.world.view r).state = .succeeded ↔ (m.world.view p).state ≠ .unresolved
  /-- Its value is the time from the call to the settlement, or none if this was before the call;
  and it has it at once. -/
  measured : ∀ c s T, c < j → prog.SettledAt c p s T →
    ∃ d, (m.world.view r).result? = some (.ok (P.span d)) ∧ (c < a → d = .zero) ∧
      (a ≤ c → d.nanos + start.nanos = T.nanos) ∧
      ∃ c' < j, prog.SettledAt c' r (.fulfilled (P.span d)) (start.later T)

variable {prog : Program P} {a f : Nat} {p r : PromiseId} {start : Duration} {i j l c : Nat}
  {body : Script P Unit} {m : Machine P} {s : Settlement P.Value P.Error}

/-- A reading of the clock changes nothing. -/
lemma moment_of_now {w : World P} {k : Duration → Script P Unit} {rest : List (Activity P)}
    (h : prog.moment i = some ⟨w, .script (.op .now k) :: rest⟩) :
    prog.moment (i + 1) = some ⟨w, .script (k w.clock) :: rest⟩ :=
  have performed : w.perform .now = .answer w.clock w := rfl
  moment_of_operate h performed

/-! ## The call -/

section Call

variable {w : World P} {k : PromiseId → Script P Unit} {rest : List (Activity P)}

/-- A measurement is called, and returns its result. -/
theorem listens_of_elapsed
    (ha : prog.moment a = some ⟨w, .script ((Script.elapsed p).bind k) :: rest⟩)
    (exist : p.index < w.promises.size) :
    prog.At (a + 3) (fun m => m.stack = .script (k ⟨w.promises.size⟩) :: rest ∧
        w.promises.size < m.world.promises.size ∧
        (m.world.view ⟨w.promises.size⟩).settlement? = none) ∧
      prog.Listens a (a + 2) [p] (fun _ => Script.stopwatch ⟨w.promises.size⟩ w.clock) w.clock := by
  obtain ⟨w₁, segment?, performed, promises, clock, -⟩ := World.perform_create w
  rw [Script.elapsed_bind] at ha
  have h₁ := moment_of_operate ha performed
  have h₂ := moment_of_now h₁
  have hsize : w₁.promises.size = w.promises.size + 1 := by rw [promises, Array.size_push]
  have hview : (w₁.view ⟨w.promises.size⟩).settlement? = none := by
    simp [World.view, promises, Promise.view]
  have hlistens := listens_of_observeEach (a := a) (f := a + 2) (Nat.le_add_right a 2)
    (fun _ o => Script.awaits_stopwatch _ _ o) h₂ (by simp [hsize]; omega) ?_
  · rw [clock] at hlistens
    obtain ⟨⟨m, hm, hstack, hsize', hview'⟩, hlistens⟩ := hlistens
    refine ⟨⟨m, hm, hstack, ?_, (congrArg View.settlement? (hview' _)).trans hview⟩, hlistens⟩
    rw [hsize', hsize]
    exact Nat.lt_succ_self _
  · -- before it registers its observer, a measurement makes its result and reads the clock
    intro j haj hj
    obtain rfl | rfl : j = a ∨ j = a + 1 := by omega
    · refine ⟨_, ha, clock.symm, fun p ob hob => ?_, fun p hattempts => ?_⟩
      · cases hob.isObserve
      · cases hattempts.isSettle
    · refine ⟨_, h₁, rfl, fun p ob hob => ?_, fun p hattempts => ?_⟩
      · cases hob.isObserve
      · cases hattempts.isSettle

end Call

/-! ## The callback of a measurement -/

namespace Listens

/-- The callback reads the clock and then makes its attempt, at the same instant. -/
lemma measures (h : prog.Listens a f [p] (fun _ => Script.stopwatch r start) start)
    (hears : prog.Hears f [p] i l body) (hm : prog.moment (l + 2) = some m) :
    (∃ k q o rs below, m.stack =
        .script (.op (.settle r (.fulfilled (P.span (m.world.clock.monus start)))) k) ::
          .delivery q o rs :: below) ∧
      prog.At l fun m' => m.world.clock = m'.world.clock := by
  obtain ⟨-, q, ml, o, -, hml, -, hhandler⟩ := h.of_hears hears
  rw [Script.handler?_stopwatch] at hhandler
  cases hhandler
  obtain ⟨⟨w₁, stack⟩, h₁⟩ := exists_moment_of_le (Nat.le_succ (l + 1)) hm
  obtain ⟨q', o', rs, below, rfl⟩ := hears.exists_stack h₁
  obtain ⟨_, n, -, -, ml', hml', hcalls⟩ := hears
  cases hml.symm.trans hml'
  have hclock := clock_of_calls hml hcalls h₁
  cases (moment_of_now h₁).symm.trans hm
  exact ⟨⟨_, q', o', rs, below, rfl⟩, ml, hml, hclock⟩

/-- Whatever attempt the call makes through its observer, it is one to fulfill the result with the
time that has passed since the call. -/
lemma of_measures (h : prog.Listens a f [p] (fun _ => Script.stopwatch r start) start)
    (owned : prog.DoneBy a (f + 1) c) (hm : prog.moment c = some m) {q : PromiseId}
    {k : Bool → Script P Unit} {rest : List (Activity P)}
    (hstack : m.stack = .script (.op (.settle q s) k) :: rest)
    (hq : q.index < m.world.promises.size) :
    ∃ i l body, prog.Hears f [p] i l body ∧ c = l + 2 ∧ q = r ∧
      s = .fulfilled (P.span (m.world.clock.monus start)) := by
  have hattempts : prog.At c fun m => m.Attempts q := ⟨m, hm, hq, s, k, rest, hstack⟩
  obtain ⟨i, l, body, p', o, rs, below, hears, hlc, hbody, habove⟩ := h.of_attempts owned hattempts
  obtain ⟨-, p'', ml, o', -, -, -, hhandler⟩ := h.of_hears hears
  rw [Script.handler?_stopwatch] at hhandler
  cases hhandler
  have hlc₁ : c ≠ l + 1 := by
    rintro rfl
    obtain ⟨⟨w₁, stack⟩, h₁, hstack₁⟩ := hbody
    obtain ⟨m', h', hat⟩ := hattempts
    cases h'.symm.trans h₁
    rw [Script.fulfillSince_eq] at hstack₁
    cases hstack₁
    cases hat.isSettle
  obtain ⟨m₂, h₂⟩ := exists_moment_of_le (i := l + 2) (by omega) hm
  obtain ⟨⟨w₁, stack⟩, h₁, rfl⟩ := hbody
  have hafter := moment_of_now h₁
  obtain rfl : c = l + 2 := eq_of_attempts (l := l + 1) hattempts (by omega)
    (fun i' hi' hle => habove i' (by omega) hle) ⟨_, hafter, rfl⟩
  cases hm.symm.trans hafter
  cases hstack
  exact ⟨i, l, _, hears, rfl, rfl, rfl⟩

/-! ## The law -/

/-- A measurement whose result nobody else settles has measured what has passed until the settlement
of its input. -/
lemma measured_of_settles (h : prog.Listens a f [p] (fun _ => Script.stopwatch r start) start)
    (passive : prog.Passive) (hc : prog.At c fun m => m.Settles r s)
    (owned : prog.DoneBy a (f + 1) c) :
    ∃ c₀ s₀ T d, c₀ < c ∧ prog.SettledAt c₀ p s₀ T ∧ s = .fulfilled (P.span d) ∧
      (c₀ < a → d = .zero) ∧ (a ≤ c₀ → d.nanos + start.nanos = T.nanos) ∧
      prog.SettledAt c r s (start.later T) := by
  obtain ⟨mc, hmc, hsettles⟩ := hc
  obtain ⟨hlt, -, k, rest, hstack⟩ := id hsettles
  obtain ⟨i, l, body, hears, rfl, -, rfl⟩ := h.of_measures owned hmc hstack hlt
  obtain ⟨-, ml, hml, hclock⟩ := h.measures hears hmc
  obtain ⟨-, q, ml', o, hq, hml', ho, -⟩ := h.of_hears hears
  cases hml.symm.trans hml'
  have hi : i < [p].length := (List.getElem?_eq_some_iff.mp hq).1
  obtain rfl : i = 0 := by simpa using hi
  obtain rfl : p = q := Option.some.inj hq
  -- the input was settled before the callback was called
  obtain ⟨s₀, hs₀, -⟩ := Option.map_eq_some_iff.mp ho
  obtain ⟨c₀, hc₀, m₀, h₀, hsettles₀⟩ := exists_settles hml hs₀
  have hat : prog.SettledAt c₀ p s₀ m₀.world.clock := ⟨m₀, h₀, hsettles₀, rfl⟩
  obtain ⟨ml', hml', hlater⟩ := h.clock_of_hears passive rfl hat hears
  cases hml.symm.trans hml'
  have hlate := hclock.trans hlater
  obtain ⟨ma, hma, rfl⟩ := h.instant a (Nat.le_refl a) (Nat.le_trans h.le (Nat.le_add_right f _))
  refine ⟨c₀, s₀, _, _, by omega, hat, rfl, fun hca => ?_, fun hac => ?_, mc, hmc, hsettles, hlate⟩
  · rw [hlate, Duration.later_eq_left (clock_le (Nat.le_of_lt hca) h₀ hma), Duration.ext_iff]
    exact Nat.sub_self _
  · have hle := clock_le hac hma h₀
    rw [hlate, Duration.later_eq_right hle]
    exact Nat.sub_add_cancel hle

/-- Once the input of a measurement is settled, so is the result, at a quiet moment. -/
lemma settled_of_measures (h : prog.Listens a f [p] (fun _ => Script.stopwatch r start) start)
    (exists_r : prog.At (f + 1) fun m => r.index < m.world.promises.size)
    (hj : f + 1 ≤ j) (hm : prog.moment j = some m) (hquiet : m.Quiet)
    (hs : (m.world.view p).settlement? = some s) :
    ∃ c s', c < j ∧ prog.At c fun m => m.Settles r s' := by
  obtain ⟨l, body, hlj, hears⟩ :=
    h.hears_of_quiet (i := 0) hj hm hquiet rfl (View.outcome?_of_settlement? hs)
  have hlj₁ := hears.lt_of_quiet hm hquiet hlj
  obtain ⟨hl, -⟩ := h.of_hears hears
  obtain ⟨m₂, h₂⟩ := exists_moment_of_le (i := l + 2) hlj₁ hm
  obtain ⟨⟨k, q, o, rs, below, hstack⟩, -⟩ := h.measures hears h₂
  -- the callback is under way until it has made its attempt
  rcases Nat.lt_or_eq_of_le (Nat.succ_le_of_lt hlj₁) with hlt | rfl
  · have hsize : r.index < m₂.world.promises.size :=
      lt_size_of_le (by simp at hl; omega) exists_r h₂
    obtain ⟨c, s', hc, hat⟩ := settled_of_attempts ⟨m₂, h₂, hsize, _, k, _, hstack⟩ hlt hm
    exact ⟨c, s', by omega, hat⟩
  · cases hm.symm.trans h₂
    exact absurd (hstack ▸ .tail _ (.head below)) (hquiet.noDelivery q o rs)

/-- **What becomes of a measurement** whose result nobody else settles. -/
theorem elapsed_law (h : prog.Listens a f [p] (fun _ => Script.stopwatch r start) start)
    (exists_r : prog.At (f + 1) fun m => r.index < m.world.promises.size) (passive : prog.Passive)
    (owned : ∀ c < j, prog.At c (fun m => m.Attempts r) → prog.DoneBy a (f + 1) c)
    (hj : f + 1 ≤ j) (hm : prog.moment j = some m) (hquiet : m.Quiet) :
    prog.ElapsedLaw a p r start j m := by
  have hmeasured := fun {c s} (hcj : c < j) (hc : prog.At c fun m => m.Settles r s) =>
    h.measured_of_settles passive (hc) (owned c hcj (hc.imp fun _ hat => ⟨hat.1, hat.2.attempts⟩))
  have hview : ∀ {c s}, c < j → prog.At c (fun m => m.Settles r s) →
      (m.world.view r).settlement? = some s := fun hcj ⟨_, hmc, hat⟩ =>
    settled_of_settles hcj hmc hat hm
  constructor
  · constructor
    · intro hr
      obtain ⟨v, hv⟩ := View.state_eq_succeeded_iff.mp hr
      obtain ⟨s, hs, -⟩ := Option.map_eq_some_iff.mp hv
      obtain ⟨c, hcj, hat⟩ := exists_settles hm hs
      obtain ⟨c₀, s₀, T, d, hc₀, ⟨m₀, h₀, hsettles₀, -⟩, -⟩ := hmeasured hcj hat
      rw [Ne, View.state_eq_unresolved_iff, settled_of_settles (by omega) h₀ hsettles₀ hm]
      exact Option.some_ne_none _
    · intro hp
      obtain ⟨s, hs⟩ := Option.ne_none_iff_exists'.mp (mt View.state_eq_unresolved_iff.mpr hp)
      obtain ⟨c, s', hcj, hat⟩ := h.settled_of_measures exists_r hj hm hquiet hs
      obtain ⟨c₀, s₀, T, d, -, -, rfl, -⟩ := hmeasured hcj hat
      rw [View.state, hview hcj hat]
      rfl
  · rintro c s T hcj ⟨mc, hmc, hsettles, rfl⟩
    have hs := settled_of_settles hcj hmc hsettles hm
    obtain ⟨c', s', hcj', hat⟩ := h.settled_of_measures exists_r hj hm hquiet hs
    obtain ⟨c₀, s₀, T, d, hc₀, hat₀, rfl, hbefore, hafter, hlate⟩ := hmeasured hcj' hat
    have heq : c₀ = c := settles_unique (hat₀.imp fun _ h => ⟨h.1, h.2.1⟩) ⟨mc, hmc, hsettles⟩
    subst heq
    obtain ⟨m₀, h₀, -, rfl⟩ := hat₀
    cases hmc.symm.trans h₀
    refine ⟨d, ?_, hbefore, hafter, c', hcj', hlate⟩
    rw [View.result?, hview hcj' hat]

/-- A measurement whose result nobody else settles does not fail. -/
lemma not_failed_of_measures (h : prog.Listens a f [p] (fun _ => Script.stopwatch r start) start)
    (passive : prog.Passive)
    (owned : ∀ c < j, prog.At c (fun m => m.Attempts r) → prog.DoneBy a (f + 1) c)
    (hm : prog.moment j = some m) : (m.world.view r).state ≠ .failed := by
  intro hr
  obtain ⟨t, ht⟩ := View.state_eq_failed_iff.mp hr
  obtain ⟨s, hs, hfailed⟩ := Option.map_eq_some_iff.mp ht
  obtain ⟨c, hcj, mc, hmc, hsettles⟩ := exists_settles hm hs
  obtain ⟨-, -, -, d, -, -, rfl, -⟩ := h.measured_of_settles passive ⟨mc, hmc, hsettles⟩
    (owned c hcj ⟨mc, hmc, hsettles.attempts⟩)
  cases hfailed

end Listens

/-- **What becomes of a measurement.**  In every run in which no callback makes a drive call:

* a measurement returns its result after three steps, unresolved;
* whatever attempt it makes later is one to fulfill its result, and the subtraction of the two
  readings of the clock does not saturate: the second reading is not before the first one;
* unless somebody else has attempted to settle the result, it does not fail, and at every later
  moment at which no task is due and no delivery under way it is as the law of measurements says
  (`Program.ElapsedLaw`): it has succeeded exactly if the input is settled, with the time that
  passed from the call to that settlement, and at the instant of the later one of the two. -/
theorem elapsed_outcome (prog : Program P) (passive : prog.Passive) {a : Nat} {w : World P}
    {p : PromiseId} {k : PromiseId → Script P Unit} {rest : List (Activity P)}
    (ha : prog.moment a = some ⟨w, .script ((Script.elapsed p).bind k) :: rest⟩)
    (exist : p.index < w.promises.size) :
    prog.At (a + 3) (fun m => m.stack = .script (k ⟨w.promises.size⟩) :: rest ∧
        (m.world.view ⟨w.promises.size⟩).state = .unresolved) ∧
      (∀ c m q s k' rest', prog.moment c = some m → prog.DoneBy a (a + 3) c →
        q.index < m.world.promises.size → m.stack = .script (.op (.settle q s) k') :: rest' →
        q = ⟨w.promises.size⟩ ∧ s = .fulfilled (P.span (m.world.clock.monus w.clock)) ∧
          w.clock ≤ m.world.clock) ∧
      ∀ j m, a + 3 ≤ j → prog.moment j = some m →
        (∀ c < j, prog.At c (fun m => m.Attempts ⟨w.promises.size⟩) → prog.DoneBy a (a + 3) c) →
        (m.world.view ⟨w.promises.size⟩).state ≠ .failed ∧
          (m.Quiet → prog.ElapsedLaw a p ⟨w.promises.size⟩ w.clock j m) := by
  obtain ⟨⟨m₀, h₀, hstack, hlt, hnone⟩, hlistens⟩ := listens_of_elapsed ha exist
  refine ⟨⟨m₀, h₀, hstack, View.state_eq_unresolved_iff.mpr hnone⟩, ?_, fun j m hj hm owned => ?_⟩
  · intro c m q s k' rest' hm owned hq hstack'
    obtain ⟨i, l, body, hears, rfl, rfl, rfl⟩ := hlistens.of_measures owned hm hstack' hq
    obtain ⟨hl, -⟩ := hlistens.of_hears hears
    simp only [List.length_singleton] at hl
    exact ⟨rfl, rfl, clock_le (by omega) ha hm⟩
  · exact ⟨hlistens.not_failed_of_measures passive owned hm,
      hlistens.elapsed_law ⟨m₀, h₀, hlt⟩ passive owned hj hm⟩

/-- A program that measures how long it takes until a promise fails, five milliseconds after the
call. -/
def measuring : Program Session.Play where
  settings := .withoutTraces
  walks _ := []
  internal := []
  store := {}
  main := do
    let p ← Script.create
    let _ ← Script.elapsed p
    Script.schedule (.millis 5) (discard (Script.fail p (.failed "late")))
    discard Script.runAll

namespace measuring

lemma passive : measuring.Passive := by
  refine (flat_of_ends (n := 18) rfl ?_).passive
  decide +kernel

/-- Only the callback of the measurement attempts to settle its result. -/
lemma doneBy {c : Nat} (hc : c < 16) (hat : measuring.At c fun m => m.Attempts ⟨1⟩) :
    measuring.DoneBy 1 4 c := by
  obtain rfl := of_attempted (Q := (· = 12)) (by decide +kernel) hc hat
  refine Or.inr ⟨3, ⟨0⟩, 0, by decide, by decide, ⟨_, rfl, ⟨_, by decide, _, _, rfl⟩, rfl⟩,
    10, _, _, _, _, by decide, ⟨_, rfl, rfl⟩, rfl, fun i hi hle => ?_⟩
  obtain rfl | rfl : i = 11 ∨ i = 12 := by omega
  · exact ⟨_, rfl, [_], by simp, rfl⟩
  · exact ⟨_, rfl, [_], by simp, rfl⟩

end measuring

/-- In `measuring` the result is five milliseconds when the drive is over. -/
theorem elapsed_outcome_measuring : ∃ m, measuring.moment 16 = some m ∧
    (m.world.view ⟨1⟩).result? = some (.ok (.duration (.millis 5))) ∧
    measuring.ElapsedLaw 1 ⟨0⟩ ⟨1⟩ .zero 16 m := by
  obtain ⟨w, k, rest, ha, hsize, hclock⟩ : ∃ w k rest,
      measuring.moment 1 = some ⟨w, .script ((Script.elapsed ⟨0⟩).bind k) :: rest⟩ ∧
        w.promises.size = 1 ∧ w.clock = .zero := ⟨_, _, _, rfl, rfl, rfl⟩
  obtain ⟨m, hm, hresult, hstack, hwaiting⟩ : ∃ m, measuring.moment 16 = some m ∧
      (m.world.view ⟨1⟩).result? = some (.ok (.duration (.millis 5))) ∧
        m.stack = [.script (.pure ())] ∧ m.world.queue.waiting = [] := ⟨_, rfl, rfl, rfl, rfl⟩
  obtain ⟨-, -, hlaw⟩ := elapsed_outcome measuring measuring.passive ha (by simp [hsize])
  rw [hsize, hclock] at hlaw
  exact ⟨m, hm, hresult, (hlaw 16 m (by decide) hm fun c hc hat => measuring.doneBy hc hat).2
    ⟨by simp [hwaiting], by simp [hstack]⟩⟩

end Program

end Eventual
