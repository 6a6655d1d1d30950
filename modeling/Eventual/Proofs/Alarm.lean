import Eventual.Proofs.Behalf
import Eventual.Proofs.Timers

/-!
# A promise that is settled after a delay

Such a promise is made together with a task that is handed to the scheduler (`Program.Arms`).  If
nobody else settles the promise, the task does, at exactly the instant for which it was set; and
when this instant is past, it has done so.
-/

namespace Eventual

variable {P : Payload}

namespace Machine

/-- A promise is about to be made. -/
def Creates (m : Machine P) (p : PromiseId) : Prop :=
  m.world.promises.size ≤ p.index ∧ ∃ m', m.Step m' ∧ p.index < m'.world.promises.size

lemma creates_of_create {w : World P} {k : PromiseId → Script P Unit} {rest : List (Activity P)} :
    Creates ⟨w, .script (.op .create k) :: rest⟩ ⟨w.promises.size⟩ := by
  obtain ⟨w', segment?, performed, promises, -⟩ := World.perform_create w
  refine ⟨Nat.le_refl _, _, .operate performed, ?_⟩
  rw [promises, Array.size_push]
  exact Nat.lt_succ_self _

end Machine

namespace Program

/-- At the moments from `a` to `b` that the run reaches a script is under way right above `rest`,
and the clock stands still. -/
def Running (prog : Program P) (a b : Nat) (rest : List (Activity P)) (start : Duration) : Prop :=
  ∀ i m, a ≤ i → i ≤ b → prog.moment i = some m →
    (∃ s, m.stack = .script s :: rest) ∧ m.world.clock = start

/-- A call at moment `a` makes a promise and hands over the task `t`, which is to settle it at the
instant `due`. -/
structure Arms (prog : Program P) (a : Nat) (x : PromiseId) (R : Except P.Error P.Value)
    (due : Duration) (t : Task (Work P)) : Prop where
  creates : prog.At a fun m => m.Creates x ∧ ∃ k rest, m.stack = .script (.op .create k) :: rest
  reports : prog.At (a + 1) fun m => ∃ e k rest, m.stack = .script (.op (.emit e) k) :: rest
  schedules : prog.At (a + 2) fun m => m.Schedules t
  due_eq : t.due = due
  body_eq : t.body = .script (.op (.settle x (.ofResult R)) fun _ => .pure ())

variable {prog : Program P} {a b i j c : Nat} {x p : PromiseId} {R : Except P.Error P.Value}
  {due start : Duration} {t : Task (Work P)} {m m' : Machine P} {rest : List (Activity P)}

/-- A promise is made once. -/
lemma creates_unique (hi : prog.At i fun m => m.Creates p) (hj : prog.At j fun m => m.Creates p) :
    i = j := by
  have hnot : ∀ {i j : Nat}, i < j → prog.At i (fun m => m.Creates p) →
      ¬ prog.At j fun m => m.Creates p := by
    rintro i j hij ⟨m, hm, -, m₁, hstep, hlt⟩ ⟨m', hm', hle, -⟩
    have h₁ := moment_succ_eq_some_iff.mpr ⟨m, hm, hstep⟩
    exact absurd (lt_size_of_le hij ⟨m₁, h₁, hlt⟩ hm') (Nat.not_lt.mpr hle)
  rcases Nat.lt_trichotomy i j with hlt | heq | hlt
  · exact absurd hj (hnot hlt hi)
  · exact heq
  · exact absurd hi (hnot hlt hj)

/-- A promise exists after it was made. -/
lemma lt_size_of_creates (hi : prog.At i fun m => m.Creates p) (hij : i < j)
    (hj : prog.moment j = some m) : p.index < m.world.promises.size := by
  obtain ⟨m₀, h₀, -, m₁, hstep, hlt⟩ := hi
  exact lt_size_of_le hij ⟨m₁, moment_succ_eq_some_iff.mpr ⟨m₀, h₀, hstep⟩, hlt⟩ hj

/-! ## The call -/

lemma running_zero {w : World P} {s : Script P Unit}
    (ha : prog.moment a = some ⟨w, .script s :: rest⟩) : prog.Running a a rest w.clock := by
  intro i m hai hia hm
  obtain rfl : a = i := Nat.le_antisymm hai hia
  cases ha.symm.trans hm
  exact ⟨⟨s, rfl⟩, rfl⟩

/-- After one operation a script goes on running. -/
lemma running_succ {w : World P} {ρ : Type} {o : Op P ρ} {k : ρ → Script P Unit}
    (ha : prog.moment a = some ⟨w, .script (.op o k) :: rest⟩)
    (hrest : ∀ w' r, w.perform o = .answer r w' →
      prog.moment (a + 1) = some ⟨w', .script (k r) :: rest⟩ → w'.clock = w.clock →
      prog.Running (a + 1) b rest w.clock) : prog.Running a b rest w.clock := by
  intro i m hai hib hm
  rcases Nat.lt_or_eq_of_le hai with hlt | rfl
  · obtain ⟨m₁, h₁⟩ := exists_moment_of_le hlt hm
    cases step_of_moment ha h₁ with
    | operate performed =>
      exact hrest _ _ performed h₁ (World.effect_of_perform performed).1 i m hlt hib hm
  · cases ha.symm.trans hm
    exact ⟨⟨_, rfl⟩, rfl⟩

section Call

variable {w : World P} {timed : Timed P} {k : PromiseId → Script P Unit}

/-- The call lasts for three steps and takes no time. -/
lemma running_settleAfter
    (ha : prog.moment a = some ⟨w, .script ((Script.settleAfter timed).bind k) :: rest⟩) :
    prog.Running a (a + 3) rest w.clock := by
  rw [Script.settleAfter_bind] at ha
  refine running_succ ha fun w₁ r _ h₁ clock₁ => ?_
  rw [← clock₁]
  refine running_succ h₁ fun w₂ _ _ h₂ clock₂ => ?_
  rw [← clock₂]
  refine running_succ h₂ fun w₃ _ _ h₃ clock₃ => ?_
  rw [← clock₃]
  exact running_zero h₃

/-- If the instant exists for which the timer is set, the call returns. -/
lemma exists_of_settleAfter
    (ha : prog.moment a = some ⟨w, .script ((Script.settleAfter timed).bind k) :: rest⟩)
    (hdue : w.clock.add? timed.delay = some due) : ∃ m, prog.moment (a + 3) = some m := by
  obtain ⟨w₁, segment?, performed, -, clock, -⟩ := World.perform_create w
  rw [Script.settleAfter_bind] at ha
  have h₁ := moment_of_operate ha performed
  have emitted : w₁.perform (.emit (.scheduling timed.delay)) =
    .answer () (w₁.emit (.scheduling timed.delay)) := rfl
  have h₂ := moment_of_operate h₁ emitted
  have hdue₂ : (w₁.emit (.scheduling timed.delay)).clock.add? timed.delay = some due :=
    (congrArg (·.add? timed.delay) clock).trans hdue
  exact ⟨_, moment_of_operate h₂ (World.perform_schedule hdue₂ _)⟩

/-- A call that returns has set its timer. -/
lemma arms_of_settleAfter
    (ha : prog.moment a = some ⟨w, .script ((Script.settleAfter timed).bind k) :: rest⟩)
    (hm : prog.moment (a + 3) = some m) :
    m.stack = .script (k ⟨w.promises.size⟩) :: rest ∧
      m.world.promises.size = w.promises.size + 1 ∧
      (m.world.view ⟨w.promises.size⟩).settlement? = none ∧
      ∃ due t, w.clock.add? timed.delay = some due ∧
        prog.Arms a ⟨w.promises.size⟩ timed.result due t := by
  obtain ⟨w₁, segment?, performed, promises, clock, -⟩ := World.perform_create w
  rw [Script.settleAfter_bind] at ha
  have h₁ := moment_of_operate ha performed
  have emitted : w₁.perform (.emit (.scheduling timed.delay)) =
    .answer () (w₁.emit (.scheduling timed.delay)) := rfl
  have h₂ := moment_of_operate h₁ emitted
  cases step_of_moment h₂ hm with
  | operate scheduled =>
    obtain ⟨due, hdue, rfl⟩ := World.schedule_eq_answer_iff.mp scheduled
    refine ⟨rfl, by simp [World.emit, promises], by simp [World.view, World.emit, promises,
      Promise.view], due, ⟨due, w₁.queue.scheduled, .script _⟩, clock ▸ hdue,
      ⟨_, ha, Machine.creates_of_create, _, _, rfl⟩, ⟨_, h₁, _, _, _, rfl⟩,
      ⟨_, h₂, timed.delay, _, _, rest, rfl, hdue, rfl, rfl⟩, rfl, ?_⟩
    rw [Script.settleWith_eq]

end Call

namespace Arms

/-- All that is done on behalf of the call, apart from the call itself, is the attempt of the
task. -/
lemma of_onBehalf (h : prog.Arms a x R due t) (hc : prog.OnBehalf (Set.Ico a (a + 3)) c) :
    c ∈ Set.Ico a (a + 3) ∨
      ∃ l, prog.At l (fun m => m.Starts t) ∧ prog.Shoots l c x (.ofResult R) := by
  obtain ⟨⟨w, stack⟩, h₀, -, k₀, rest₀, rfl⟩ := h.creates
  obtain ⟨⟨w₁, stack₁⟩, h₁, e, k₁, rest₁, rfl⟩ := h.reports
  obtain ⟨⟨w₂, stack₂⟩, h₂, hschedules⟩ := id h.schedules
  rcases hc.cases_root with hmem | ⟨i, ⟨hai, hi⟩, p, n, ⟨m, hm, ⟨ob, hob⟩, -⟩, -⟩ |
    ⟨i, ⟨hai, hi⟩, u, ⟨m, hm, hu⟩, hbehalf⟩
  · exact Or.inl hmem
  · exfalso
    obtain rfl | rfl | rfl : i = a ∨ i = a + 1 ∨ i = a + 2 := by omega
    · cases h₀.symm.trans hm
      cases hob.isObserve
    · cases h₁.symm.trans hm
      cases hob.isObserve
    · cases h₂.symm.trans hm
      obtain ⟨delay, body, k₂, rest₂, rfl, -⟩ := hschedules
      cases hob.isObserve
  · right
    obtain rfl | rfl | rfl : i = a ∨ i = a + 1 ∨ i = a + 2 := by omega
    · cases h₀.symm.trans hm
      cases hu.isSchedule
    · cases h₁.symm.trans hm
      cases hu.isSchedule
    · cases h₂.symm.trans hm
      cases hschedules.unique hu
      exact hbehalf.of_busy h.body_eq

/-- The only attempt made on behalf of the call is one to settle its promise, at the instant for
which the timer was set. -/
lemma of_attempts (h : prog.Arms a x R due t) (hc : prog.OnBehalf (Set.Ico a (a + 3)) c)
    (hm : prog.moment c = some m) (hattempts : m.Attempts p) :
    a + 3 ≤ c ∧ p = x ∧ m.world.clock = due ∧ ∀ s, m.Settles p s → s = .ofResult R := by
  rcases h.of_onBehalf hc with ⟨hac, hc⟩ | ⟨l, ⟨m₀, h₀, hstarts⟩, hshoots⟩
  · exfalso
    obtain ⟨w, stack⟩ := m
    obtain ⟨m₀, h₀, -, k₀, rest₀, hstack₀⟩ := h.creates
    obtain ⟨m₁, h₁, e, k₁, rest₁, hstack₁⟩ := h.reports
    obtain ⟨m₂, h₂, delay, body, k₂, rest₂, hstack₂, -⟩ := h.schedules
    obtain rfl | rfl | rfl : c = a ∨ c = a + 1 ∨ c = a + 2 := by omega
    · cases h₀.symm.trans hm
      cases hstack₀
      cases hattempts.isSettle
    · cases h₁.symm.trans hm
      cases hstack₁
      cases hattempts.isSettle
    · cases h₂.symm.trans hm
      cases hstack₂
      cases hattempts.isSettle
  · obtain ⟨rfl, rfl, -, hsettles⟩ := hshoots.of_attempts hm hattempts
    have hclock := hstarts.clock_eq (timely h₀) (step_of_moment h₀ hm)
    have hlt := lt_of_starts h.schedules ⟨m₀, h₀, hstarts⟩
    exact ⟨by omega, rfl, hclock.trans h.due_eq, hsettles⟩

/-- When the instant for which the timer was set is past, or has come and the task neither waits nor
is under way, it has made its attempt. -/
lemma exists_attempts (h : prog.Arms a x R due t) (hj : a + 3 ≤ j) (hm : prog.moment j = some m)
    (hlate : due < m.world.clock ∨
      due ≤ m.world.clock ∧ (∀ u ∈ m.world.queue.waiting, m.world.clock < u.due) ∧
        ¬ prog.Busy j t) :
    ∃ c < j, prog.At c fun m => m.Attempts x ∧ m.world.clock = due := by
  obtain ⟨m₂, h₂, hschedules⟩ := h.schedules
  obtain ⟨m₃, h₃⟩ := exists_moment_of_le hj hm
  obtain ⟨delay, hhands⟩ := handsOver_of_schedules h₂ hschedules
  have hwaiting : t ∈ m₃.world.queue.waiting := by
    rw [hhands.mem_waiting (step_of_moment h₂ h₃)]
    exact Queue.mem_insertTask.mpr (Or.inl rfl)
  -- the task does not wait any longer
  have hgone : t ∉ m.world.queue.waiting := by
    intro hmem
    have hle : m.world.clock.nanos ≤ t.due.nanos := (timely hm).clock_le t hmem
    rw [h.due_eq] at hle
    rcases hlate with hlt | ⟨hdue, hnothing, -⟩
    · exact absurd hlt (Nat.not_lt.mpr hle)
    · have hlt : m.world.clock.nanos < t.due.nanos := hnothing t hmem
      rw [h.due_eq] at hlt
      exact absurd hdue (Nat.not_le.mpr hlt)
  obtain ⟨s, hsj, m₀, h₀, hstarts⟩ :=
    (waiting_or_started hj h₃ hwaiting hm).resolve_left hgone
  have hlt := lt_of_starts h.schedules ⟨m₀, h₀, hstarts⟩
  obtain ⟨m₁, h₁⟩ := exists_moment_of_le (Nat.succ_le_of_lt hsj) hm
  have hclock := (hstarts.clock_eq (timely h₀) (step_of_moment h₀ h₁)).trans h.due_eq
  obtain ⟨hor, ran, k, rest, hstack⟩ : ∃ hor ran k rest, m₁.stack =
      .script (.op (.settle x (.ofResult R)) fun _ => .pure ()) :: .drive hor ran k :: rest := by
    obtain ⟨w, stack⟩ := m₀
    obtain ⟨hor, ran, k, rest, q, rfl, hnext⟩ := hstarts
    cases (step_of_moment h₀ h₁).unique (.start hnext)
    rw [h.body_eq]
    exact ⟨hor, ran + 1, k, rest, rfl⟩
  -- and it is over
  have hsj₁ : s + 1 < j := by
    rcases Nat.lt_or_eq_of_le (Nat.succ_le_of_lt hsj) with hlt | rfl
    · exact hlt
    · cases hm.symm.trans h₁
      rcases hlate with hlt | ⟨-, -, hidle⟩
      · exact absurd hlt (hclock ▸ Nat.lt_irrefl _)
      · exact absurd (busy_of_starts h₀ hstarts hm) hidle
  have hexists := lt_size_of_creates (h.creates.imp fun _ h => ⟨h.1, h.2.1⟩) (by omega) h₁
  exact ⟨s + 1, hsj₁, m₁, h₁, ⟨hexists, _, _, _, hstack⟩, hclock⟩

end Arms

end Program

end Eventual
