import Eventual.Proofs.Sequencing
import Eventual.Session.Run

/-!
# The laws of sequencing

Promises may be put one after the other in different ways that come to the same
(`Pipeline.Law`): one after the other or in one go, with a promise that is settled at once or
without it.  The two sides of such a law make different promises and take a different number of
turns, so they are not alike at every moment.  But the rules of pipelines give the same for both
(`Pipeline.Law.ends_iff`), so if both are called at one instant they agree whenever nothing is due
or under way for them (`Program.sequencing_laws`).
-/

namespace Eventual

variable {P : Payload}

namespace Pipeline

/-- The laws of sequencing. -/
inductive Law : Pipeline P → Pipeline P → Prop
  /-- Two functions are applied one after the other, or in one go. -/
  | andThen_andThen (source : Pipeline P) (f g : P.Value → Except P.Error P.Value) :
      Law (andThen (andThen source f) g) (andThen source fun v => f v >>= g)
  /-- Two promises are awaited one after the other, or the second one for the first. -/
  | lazily_lazily (source : Pipeline P) (F G : P.Value → Pipeline P) :
      Law (lazily (lazily source F) G) (lazily source fun v => lazily (F v) G)
  /-- A value is put into a promise of its own, or left in the one that it came from. -/
  | lazily_of (source : Pipeline P) : Law (lazily source fun v => settled (.ok v)) source
  /-- A value is taken out of a promise that has just been made for it, or used at once. -/
  | of_lazily (v : P.Value) (F : P.Value → Pipeline P) : Law (lazily (settled (.ok v)) F) (F v)
  /-- What a function makes of a value is put into a promise of its own, or is the result. -/
  | lazily_settled (source : Pipeline P) (f : P.Value → Except P.Error P.Value) :
      Law (lazily source fun v => settled (f v)) (andThen source f)

section Rules

variable {prog : Program P} {j : Nat} {now start T : Duration} {R : Except P.Error P.Value}
  {left right : Pipeline P}

lemma ends_andThen_andThen (source : Pipeline P) (f g : P.Value → Except P.Error P.Value) :
    (andThen (andThen source f) g).Ends prog j now start R T ↔
      ∃ T', (andThen source fun v => f v >>= g).Ends prog j now start R T' ∧
        T = start.later T' := by
  simp only [ends_andThen_iff]
  constructor
  · rintro ⟨-, -, ⟨R₀, T₀, hends, rfl, rfl⟩, rfl, rfl⟩
    exact ⟨_, ⟨R₀, T₀, hends, bind_assoc .., rfl⟩, rfl⟩
  · rintro ⟨-, ⟨R₀, T₀, hends, rfl, rfl⟩, rfl⟩
    exact ⟨_, _, ⟨R₀, T₀, hends, rfl, rfl⟩, (bind_assoc ..).symm, rfl⟩

lemma ends_lazily_lazily (source : Pipeline P) (F G : P.Value → Pipeline P) :
    (lazily (lazily source F) G).Ends prog j now start R T ↔
      ∃ T', (lazily source fun v => lazily (F v) G).Ends prog j now start R T' ∧
        T = start.later T' := by
  -- the second pipeline is called at the same instant on both sides
  have hcalled : ∀ T T', start.later ((start.later T).later T') = (start.later T).later T' := by
    intro T T'
    simp only [Duration.ext_iff, Duration.nanos_later]
    omega
  constructor
  · intro h
    cases h with
    | failed h =>
      cases h with
      | failed h => exact ⟨_, .failed h, rfl⟩
      | chained h hF => exact ⟨_, .chained h (.failed hF), by rw [Duration.later_later]⟩
    | chained h hG =>
      cases h with
      | chained h hF =>
        rw [hcalled] at hG
        refine ⟨_, .chained h (.chained hF hG), ?_⟩
        simp only [Duration.ext_iff, Duration.nanos_later]
        omega
  · rintro ⟨T', h, rfl⟩
    cases h with
    | failed h => exact .failed (.failed h)
    | chained h h' =>
      cases h' with
      | failed hF =>
        rw [Duration.later_later]
        exact .failed (.chained h hF)
      | chained hF hG =>
        rw [← hcalled] at hG
        convert Ends.chained (.chained h hF) hG using 1
        simp only [Duration.ext_iff, Duration.nanos_later]
        omega

lemma ends_of_lazily (v : P.Value) (F : P.Value → Pipeline P) :
    (lazily (settled (.ok v)) F).Ends prog j now start R T ↔
      ∃ T', (F v).Ends prog j now start R T' ∧ T = start.later T' := by
  constructor
  · intro h
    cases h with
    | failed h => cases h
    | chained h h' =>
      cases h
      rw [Duration.later_self] at h' ⊢
      exact ⟨_, h', rfl⟩
  · rintro ⟨T', h, rfl⟩
    rw [← Duration.later_self start] at h
    have hends := Ends.chained .settled h
    rwa [Duration.later_self] at hends

lemma ends_lazily_settled (source : Pipeline P) (f : P.Value → Except P.Error P.Value) :
    (lazily source fun v => settled (f v)).Ends prog j now start R T ↔
      ∃ R' T', source.Ends prog j now start R' T' ∧ R = R' >>= f ∧ T = start.later T' := by
  constructor
  · intro h
    cases h with
    | @failed _ _ _ _ e h => exact ⟨.error e, _, h, rfl, rfl⟩
    | @chained _ _ _ _ _ v _ h h' =>
      cases h'
      exact ⟨.ok v, _, h, rfl, Duration.later_self _⟩
  · rintro ⟨R' | v, T', h, rfl, rfl⟩
    · exact .failed h
    · have hends : (lazily source fun v => settled (f v)).Ends prog j now start (f v) _ :=
        .chained h .settled
      rwa [Duration.later_self] at hends

/-- **Both sides of a law end in the same way**, and the left one does at the instant of the right
one, or of the call if that is later. -/
theorem Law.ends_iff (law : Law left right) :
    left.Ends prog j now start R T ↔
      ∃ T', right.Ends prog j now start R T' ∧ T = start.later T' := by
  cases law with
  | andThen_andThen source f g => exact ends_andThen_andThen source f g
  | lazily_lazily source F G => exact ends_lazily_lazily source F G
  | lazily_of =>
    rw [ends_lazily_settled]
    constructor
    · rintro ⟨R', T', h, rfl, rfl⟩
      exact ⟨T', by rwa [show R' >>= Except.ok = R' from bind_pure R'], rfl⟩
    · rintro ⟨T', h, rfl⟩
      exact ⟨R, T', h, (bind_pure R).symm, rfl⟩
  | of_lazily v F => exact ends_of_lazily v F
  | lazily_settled source f =>
    rw [ends_lazily_settled]
    constructor
    · rintro ⟨R', T', h, rfl, rfl⟩
      exact ⟨_, .andThen h, (Duration.later_later ..).symm⟩
    · rintro ⟨T', h, rfl⟩
      obtain ⟨R', T₀, hends, rfl, rfl⟩ := ends_andThen_iff.mp h
      exact ⟨R', T₀, hends, rfl, Duration.later_later ..⟩

end Rules

end Pipeline

namespace Program

/-- **The laws of sequencing.**  In every run in which no callback makes a drive call, let the two
sides of a law be called at one instant.  If a call returns, it returns the promise of its pipeline.
And at every later moment at which no task is due and no delivery under way, and at which nothing is
under way for the calls, unless somebody else has attempted to settle a promise that was made on
behalf of one of them:

* both promises are unresolved, or both are settled with the same value or error;
* they were settled at the same instant, unless the right one was there before the call and was
  settled then; in this case the left one was settled at the instant of the call. -/
theorem sequencing_laws (prog : Program P) (passive : prog.Passive) {left right : Pipeline P}
    (law : Pipeline.Law left right) {a b : Nat} {w w' : World P}
    {k k' : PromiseId → Script P Unit} {rest rest' : List (Activity P)}
    (ha : prog.moment a = some ⟨w, .script (left.script.bind k) :: rest⟩)
    (hb : prog.moment b = some ⟨w', .script (right.script.bind k') :: rest'⟩)
    (hclock : w.clock = w'.clock) (known : left.Known w.promises.size)
    (known' : right.Known w'.promises.size) :
    (∀ m, prog.moment (a + left.steps) = some m →
        m.stack = .script (k (left.result w.promises.size)) :: rest) ∧
      (∀ m, prog.moment (b + right.steps) = some m →
        m.stack = .script (k' (right.result w'.promises.size)) :: rest') ∧
      ∀ j m, a + left.steps ≤ j → b + right.steps ≤ j → prog.moment j = some m → m.Quiet →
        ¬ prog.OnBehalf (Set.Ico a (a + left.steps)) j →
        ¬ prog.OnBehalf (Set.Ico b (b + right.steps)) j →
        prog.Private a (a + left.steps) j → prog.Private b (b + right.steps) j →
        (m.world.view (left.result w.promises.size)).result? =
            (m.world.view (right.result w'.promises.size)).result? ∧
          ∀ c c' s s' T T', c < j → c' < j →
            prog.SettledAt c (left.result w.promises.size) s T →
            prog.SettledAt c' (right.result w'.promises.size) s' T' →
            (b ≤ c' → T = T') ∧ (c' < b →
              (right.result w'.promises.size).index < w'.promises.size ∧ T = w.clock) := by
  refine ⟨fun m hm => ((left.returns ha known).2 m hm).1,
    fun m hm => ((right.returns hb known').2 m hm).1, ?_⟩
  intro j m hj hj' hm hquiet hidle hidle' hprivate hprivate'
  have hleft := left.sound passive hm hquiet ha known hj hprivate hidle
  have hright := right.sound passive hm hquiet hb known' hj' hprivate' hidle'
  have hends : ∀ R T, prog.Ended j (left.result w.promises.size) R T ↔
      ∃ T', prog.Ended j (right.result w'.promises.size) R T' ∧ T = w.clock.later T' := by
    intro R T
    rw [hleft, law.ends_iff]
    simp only [hright, hclock]
  refine ⟨Option.ext fun R => ?_, ?_⟩
  · rw [result?_eq_some_iff hm, result?_eq_some_iff hm]
    constructor
    · rintro ⟨T, hended⟩
      obtain ⟨T', hended', -⟩ := (hends R T).mp hended
      exact ⟨T', hended'⟩
    · rintro ⟨T', hended'⟩
      exact ⟨_, (hends R _).mpr ⟨T', hended', rfl⟩⟩
  · intro c c' s s' T T' hcj hcj' hat hat'
    obtain ⟨T₀, hended, rfl⟩ := (hends s.result T).mp ⟨c, hcj, s, hat, rfl⟩
    obtain ⟨-, rfl⟩ := hended.unique ⟨c', hcj', s', hat', rfl⟩
    obtain ⟨mc, hmc, hsettles, rfl⟩ := hat'
    constructor
    · intro hbc
      exact Duration.later_eq_right (hclock ▸ clock_le hbc hb hmc)
    · intro hcb
      exact ⟨lt_size_of_le (Nat.le_of_lt hcb) ⟨mc, hmc, hsettles.1⟩ hb,
        Duration.later_eq_left (hclock ▸ clock_le (Nat.le_of_lt hcb) hmc hb)⟩

/-- A function of values: it packs a value into a list. -/
def packed (v : Session.Play.Value) : Except Session.Play.Error Session.Play.Value :=
  .ok (Session.Play.list [v])

/-- A program that puts what a function makes of a value into a promise of its own, and makes a
promise for it at once; the value comes five milliseconds later. -/
def sequenced : Program Session.Play where
  settings := .withoutTraces
  walks _ := []
  internal := []
  store := {}
  main := do
    let p ← Script.create
    let _ ← (Pipeline.lazily (.existing p) fun v => .settled (packed v)).script
    let _ ← (Pipeline.andThen (.existing p) packed).script
    Script.schedule (.millis 5) (discard (Script.fulfill p (Session.Play.span (.millis 3))))
    discard Script.runAll

namespace sequenced

lemma passive : sequenced.Passive := by
  refine (flat_of_ends (n := 28) rfl ?_).passive
  decide +kernel

/-- The callback of the first call is under way from moment 12 to moment 15. -/
lemma onBehalf_first {c : Nat} (hc : 12 ≤ c) (hc' : c ≤ 15) :
    sequenced.OnBehalf (Set.Ico 1 3) c := by
  refine .callback (.root ⟨by decide, by decide⟩) (i := 2) (p := ⟨0⟩) (n := 0)
    ⟨_, rfl, ⟨_, by decide, _, _, rfl⟩, rfl⟩
    ⟨11, _, _, _, _, by omega, ⟨_, rfl, rfl⟩, rfl, fun i hi hle => ?_⟩
  obtain rfl | rfl | rfl | rfl : i = 12 ∨ i = 13 ∨ i = 14 ∨ i = 15 := by omega
  all_goals exact ⟨_, rfl, [_], by simp, rfl⟩

/-- What it has waited for is passed on at moment 22. -/
lemma onBehalf_passed : sequenced.OnBehalf (Set.Ico 1 3) 22 := by
  refine .callback (onBehalf_first (c := 14) (by decide) (by decide)) (p := ⟨3⟩) (n := 0)
    ⟨_, rfl, ⟨_, by decide, _, _, rfl⟩, rfl⟩
    ⟨21, _, _, _, _, by decide, ⟨_, rfl, rfl⟩, rfl, fun i hi hle => ?_⟩
  obtain rfl : i = 22 := by omega
  exact ⟨_, rfl, [_], by simp, rfl⟩

/-- The callback of the second call is under way at moment 17. -/
lemma onBehalf_second : sequenced.OnBehalf (Set.Ico 3 5) 17 := by
  refine .callback (.root ⟨by decide, by decide⟩) (i := 4) (p := ⟨0⟩) (n := 1)
    ⟨_, rfl, ⟨_, by decide, _, _, rfl⟩, rfl⟩
    ⟨16, _, _, _, _, by decide, ⟨_, rfl, rfl⟩, rfl, fun i hi hle => ?_⟩
  obtain rfl : i = 17 := by omega
  exact ⟨_, rfl, [_], by simp, rfl⟩

lemma running : ∀ i, 1 ≤ i → i < 5 →
    sequenced.At i fun m => ∃ s rest, m.stack = .script s :: rest := by
  intro i hi hi'
  obtain rfl | rfl | rfl | rfl : i = 1 ∨ i = 2 ∨ i = 3 ∨ i = 4 := by omega
  all_goals exact ⟨_, rfl, _, _, rfl⟩

/-- The promises that are settled, and where. -/
lemma of_attempts {c : Nat} {z : PromiseId} (hc : c < 26)
    (hat : sequenced.At c fun m => m.Attempts z) :
    c = 8 ∧ z = ⟨0⟩ ∨ c = 13 ∧ z = ⟨3⟩ ∨ c = 17 ∧ z = ⟨2⟩ ∨ c = 22 ∧ z = ⟨1⟩ :=
  of_attempts_found (Q := fun c z => c = 8 ∧ z = ⟨0⟩ ∨ c = 13 ∧ z = ⟨3⟩ ∨ c = 17 ∧ z = ⟨2⟩ ∨
    c = 22 ∧ z = ⟨1⟩) (by decide +kernel) hc hat

/-- Nobody else settles the promises of the first call. -/
lemma private_first : sequenced.Private 1 3 26 := by
  intro i c z hc hi hcreates hat
  obtain ⟨rfl, rfl⟩ | ⟨rfl, rfl⟩ | ⟨rfl, rfl⟩ | ⟨rfl, rfl⟩ := of_attempts hc hat
  · cases creates_unique hcreates ⟨_, rfl, Machine.creates_of_create⟩ (j := 0)
    exact absurd (hi.le fun i hi => hi.1) (by decide)
  · exact onBehalf_first (by decide) (by decide)
  · cases creates_unique hcreates ⟨_, rfl, Machine.creates_of_create⟩ (j := 3)
    exact (hi.disjoint passive (.root ⟨by decide, by decide⟩) (Nat.le_refl 3) running).elim
  · exact onBehalf_passed

/-- Nobody else settles the promises of the second call. -/
lemma private_second : sequenced.Private 3 5 26 := by
  intro i c z hc hi hcreates hat
  obtain ⟨rfl, rfl⟩ | ⟨rfl, rfl⟩ | ⟨rfl, rfl⟩ | ⟨rfl, rfl⟩ := of_attempts hc hat
  · cases creates_unique hcreates ⟨_, rfl, Machine.creates_of_create⟩ (j := 0)
    exact absurd (hi.le fun i hi => hi.1) (by decide)
  · cases creates_unique hcreates ⟨_, rfl, Machine.creates_of_create⟩ (j := 12)
    exact ((onBehalf_first (by decide) (by decide)).disjoint passive hi (Nat.le_refl 3)
      running).elim
  · exact onBehalf_second
  · cases creates_unique hcreates ⟨_, rfl, Machine.creates_of_create⟩ (j := 1)
    exact absurd (hi.le fun i hi => hi.1) (by decide)

end sequenced

/-- In `sequenced` both promises have the list when the drive is over. -/
theorem sequencing_laws_sequenced : ∃ m, sequenced.moment 26 = some m ∧
    (m.world.view ⟨1⟩).result? = (m.world.view ⟨2⟩).result? ∧
    (m.world.view ⟨2⟩).result? = some (packed (Session.Play.span (.millis 3))) := by
  obtain ⟨w, k, rest, ha, hsize, hclock⟩ : ∃ w k rest, sequenced.moment 1 =
      some ⟨w, .script ((Pipeline.lazily (.existing ⟨0⟩) fun v =>
        .settled (packed v)).script.bind k) :: rest⟩ ∧ w.promises.size = 1 ∧ w.clock = .zero :=
    ⟨_, _, _, rfl, rfl, rfl⟩
  obtain ⟨w', k', rest', hb, hsize', hclock'⟩ : ∃ w k rest, sequenced.moment 3 =
      some ⟨w, .script ((Pipeline.andThen (.existing ⟨0⟩) packed).script.bind k) :: rest⟩ ∧
        w.promises.size = 2 ∧ w.clock = .zero := ⟨_, _, _, rfl, rfl, rfl⟩
  obtain ⟨m, hm, hresult, hstack, hwaiting⟩ : ∃ m, sequenced.moment 26 = some m ∧
      (m.world.view ⟨2⟩).result? = some (packed (Session.Play.span (.millis 3))) ∧
        m.stack = [.script (.pure ())] ∧ m.world.queue.waiting = [] := ⟨_, rfl, rfl, rfl, rfl⟩
  have hcalm : m.Calm := Machine.calm_of_idle hwaiting hstack
  obtain ⟨-, -, hlaw⟩ := sequencing_laws sequenced sequenced.passive (.lazily_settled _ packed)
    ha hb (hclock.trans hclock'.symm)
    ⟨by simp [Pipeline.Known, hsize], fun _ => trivial⟩ (by simp [Pipeline.Known, hsize'])
  obtain ⟨hagree, -⟩ := hlaw 26 m (by decide) (by decide) hm (quiet_of_calm hm hcalm)
    (OnBehalf.not_of_calm hm hcalm fun i hi => Nat.lt_of_lt_of_le hi.2 (by decide))
    (OnBehalf.not_of_calm hm hcalm fun i hi => Nat.lt_of_lt_of_le hi.2 (by decide))
    sequenced.private_first sequenced.private_second
  simp only [Pipeline.result, Pipeline.made, hsize, hsize'] at hagree
  exact ⟨m, hm, hagree, hresult⟩

end Program

end Eventual
