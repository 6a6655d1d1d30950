import Eventual.Machine
import Eventual.Proofs.Effect

/-!
# Steps and runs

`Machine.Step` says as a relation what `Machine.step` computes, with one rule for each thing that
can happen next; every invariant is proved by cases on it.  A program is one script together with
what it depends on.  Its run is the sequence of the machines that follow one another from the start,
and `Program.moment` numbers them.  What a step keeps, the run keeps from any moment on
(`Program.carry`).  `Machine.run`, which gives up after a number of steps, goes through the same
machines (`Machine.run_eq_iff`).
-/

namespace Eventual

variable {P : Payload}

namespace Machine

/-- One machine follows another. -/
inductive Step : Machine P → Machine P → Prop
  /-- A script is over. -/
  | finish {w : World P} {rest : List (Activity P)} :
      Step ⟨w, .script (.pure ()) :: rest⟩ ⟨w, rest⟩
  /-- A script carries out an operation. -/
  | operate {w w' : World P} {ρ : Type} {o : Op P ρ} {k : ρ → Script P Unit} {r : ρ}
      {rest : List (Activity P)} (performed : w.perform o = .answer r w') :
      Step ⟨w, .script (.op o k) :: rest⟩ ⟨w', .script (k r) :: rest⟩
  /-- A script drives the clock. -/
  | drive {w : World P} {d : Drive} {h : Horizon} {k : Nat → Script P Unit}
      {rest : List (Activity P)} (horizon : d.horizon? w.clock = some h) :
      Step ⟨w, .script (.drive d k) :: rest⟩ ⟨w, .drive h 0 k :: rest⟩
  /-- A script makes an attempt of a retry loop. -/
  | attempt {w : World P} {r : RetryId} {k : Script P Unit} {rest : List (Activity P)} :
      Step ⟨w, .script (.attempt r k) :: rest⟩ ⟨w, .script (w.nextAttempt r) :: .script k :: rest⟩
  /-- A delivery is over. -/
  | delivered {w : World P} {p : PromiseId} {o : Outcome P.Value P.Error}
      {rest : List (Activity P)} : Step ⟨w, .delivery p o [] :: rest⟩ ⟨w, rest⟩
  /-- A delivery runs a callback. -/
  | call {w : World P} {p : PromiseId} {o : Outcome P.Value P.Error} {r : Registration P}
      {rs : List (Registration P)} {body : Script P Unit} {rest : List (Activity P)}
      (handler : r.observer.handler? o = some body) :
      Step ⟨w, .delivery p o (r :: rs) :: rest⟩ ⟨w, .script body :: .delivery p o rs :: rest⟩
  /-- A delivery leaves out an observer that does not wait for the outcome. -/
  | leaveOut {w : World P} {p : PromiseId} {o : Outcome P.Value P.Error} {r : Registration P}
      {rs : List (Registration P)} {rest : List (Activity P)}
      (handler : r.observer.handler? o = none) :
      Step ⟨w, .delivery p o (r :: rs) :: rest⟩ ⟨w, .delivery p o rs :: rest⟩
  /-- A drive starts a task. -/
  | start {w : World P} {h : Horizon} {ran : Nat} {k : Nat → Script P Unit} {t : Task (Work P)}
      {q : Queue (Work P)} {rest : List (Activity P)} (taken : w.queue.next? h = some (t, q)) :
      Step ⟨w, .drive h ran k :: rest⟩
        ⟨{ w with queue := q, clock := w.clock.later t.due },
          .ofWork t.body :: .drive h (ran + 1) k :: rest⟩
  /-- A drive is over. -/
  | driven {w : World P} {h : Horizon} {ran : Nat} {k : Nat → Script P Unit}
      {rest : List (Activity P)} (nothing : w.queue.next? h = none) :
      Step ⟨w, .drive h ran k :: rest⟩ ⟨w.finishDrive h, .script (k ran) :: rest⟩

/-- The machine that follows, if the run goes on. -/
def next? (m : Machine P) : Option (Machine P) :=
  match m.step with
  | .next m' => some m'
  | _ => none

lemma next?_eq_some_iff_step {m m' : Machine P} : m.next? = some m' ↔ m.step = .next m' := by
  unfold next?
  split
  · rename_i m₁ h
    rw [h, Option.some.injEq, Transition.next.injEq]
  · rename_i h
    exact iff_of_false (by simp) (h m')

/-- **The rules describe exactly what happens.** -/
theorem next?_eq_some_iff {m m' : Machine P} : m.next? = some m' ↔ Step m m' := by
  rw [next?_eq_some_iff_step]
  constructor
  · intro h
    obtain ⟨w, stack⟩ := m
    -- the cases are the equations of `step`
    match stack with
    | [] => simp [step] at h
    | .script (.pure ()) :: rest =>
      cases h
      exact .finish
    | .script (.op o k) :: rest =>
      rcases hp : w.perform o with ⟨r, w'⟩ | w'
      · simp only [step, hp] at h
        cases h
        exact .operate hp
      · simp [step, hp] at h
    | .script (.drive d k) :: rest =>
      rcases hd : d.horizon? w.clock with _ | hor
      · simp [step, hd] at h
      · simp only [step, hd] at h
        cases h
        exact .drive hd
    | .script (.attempt r k) :: rest =>
      cases h
      exact .attempt
    | .delivery p o [] :: rest =>
      cases h
      exact .delivered
    | .delivery p o (r :: rs) :: rest =>
      rcases hh : r.observer.handler? o with _ | body
      · simp only [step, hh] at h
        cases h
        exact .leaveOut hh
      · simp only [step, hh] at h
        cases h
        exact .call hh
    | .drive hor ran k :: rest =>
      rcases hn : w.queue.next? hor with _ | ⟨t, q⟩
      · simp only [step, World.startTask?, hn] at h
        cases h
        exact .driven hn
      · simp only [step, World.startTask?, hn] at h
        cases h
        exact .start hn
  · intro h
    cases h with
    | operate hp => simp only [step, hp]
    | drive hd => simp only [step, hd]
    | call hh => simp only [step, hh]
    | leaveOut hh => simp only [step, hh]
    | start hn => simp only [step, World.startTask?, hn]
    | driven hn => simp only [step, World.startTask?, hn]
    | finish | attempt | delivered => rfl

lemma Step.unique {m m₁ m₂ : Machine P} (h₁ : m.Step m₁) (h₂ : m.Step m₂) : m₁ = m₂ := by
  rw [← next?_eq_some_iff] at h₁ h₂
  exact Option.some.inj (h₁.symm.trans h₂)

/-- The machine after a number of steps, if the run lasts so long. -/
def after (m : Machine P) : Nat → Option (Machine P)
  | 0 => some m
  | n + 1 => (m.after n).bind next?

@[simp] lemma after_zero (m : Machine P) : m.after 0 = some m := rfl

lemma after_succ_eq_some_iff {m m' : Machine P} {n : Nat} :
    m.after (n + 1) = some m' ↔ ∃ m₁, m.after n = some m₁ ∧ Step m₁ m' := by
  simp only [after, Option.bind_eq_some_iff, next?_eq_some_iff]

lemma after_add (m : Machine P) (i j : Nat) :
    m.after (i + j) = (m.after i).bind fun m' => m'.after j := by
  induction j with
  | zero => simp
  | succ j ih =>
    rw [← Nat.add_assoc, after, ih, Option.bind_assoc]
    rfl

/-- The run of one machine comes to another. -/
def Reaches (m m' : Machine P) : Prop := ∃ n, m.after n = some m'

lemma Reaches.refl (m : Machine P) : m.Reaches m := ⟨0, rfl⟩

lemma Reaches.trans {m m₁ m' : Machine P} (h : m.Reaches m₁) (h' : m₁.Reaches m') :
    m.Reaches m' := by
  obtain ⟨i, hi⟩ := h
  obtain ⟨j, hj⟩ := h'
  exact ⟨i + j, by rw [after_add, hi, Option.bind_some, hj]⟩

lemma Step.reaches {m m' : Machine P} (h : Step m m') : m.Reaches m' :=
  ⟨1, after_succ_eq_some_iff.mpr ⟨m, rfl, h⟩⟩

/-- Of two machines that one run comes to, one is reached from the other. -/
lemma Reaches.total {m m₁ m₂ : Machine P} (h₁ : m.Reaches m₁) (h₂ : m.Reaches m₂) :
    m₁.Reaches m₂ ∨ m₂.Reaches m₁ := by
  obtain ⟨i, hi⟩ := h₁
  obtain ⟨j, hj⟩ := h₂
  rcases Nat.le_total i j with hij | hji
  · obtain ⟨d, rfl⟩ := Nat.exists_eq_add_of_le hij
    rw [after_add, hi] at hj
    exact .inl ⟨d, hj⟩
  · obtain ⟨d, rfl⟩ := Nat.exists_eq_add_of_le hji
    rw [after_add, hj] at hi
    exact .inr ⟨d, hi⟩

lemma Reaches.eq_or_step {m m' : Machine P} (h : m.Reaches m') :
    m = m' ∨ ∃ m₁, m.Step m₁ ∧ m₁.Reaches m' := by
  obtain ⟨n, hn⟩ := h
  cases n with
  | zero =>
    cases hn
    exact .inl rfl
  | succ n =>
    rw [Nat.add_comm, after_add, Option.bind_eq_some_iff] at hn
    obtain ⟨m₁, h₁, hn⟩ := hn
    obtain ⟨_, h₀, hstep⟩ := after_succ_eq_some_iff.mp h₁
    cases h₀
    exact .inr ⟨m₁, hstep, n, hn⟩

/-- A run ends in one machine. -/
lemma Reaches.unique {m m₁ m₂ : Machine P} (h₁ : m.Reaches m₁) (h₂ : m.Reaches m₂)
    (stuck₁ : ∀ m', ¬ m₁.Step m') (stuck₂ : ∀ m', ¬ m₂.Step m') : m₁ = m₂ := by
  rcases h₁.total h₂ with h | h
  · exact h.eq_or_step.resolve_right fun ⟨m', hstep, _⟩ => stuck₁ m' hstep
  · exact (h.eq_or_step.resolve_right fun ⟨m', hstep, _⟩ => stuck₂ m' hstep).symm

/-- What every step keeps, a run keeps. -/
lemma keep_after {I : Machine P → Prop} (keep : ∀ m m', I m → Step m m' → I m') {m m' : Machine P}
    {n : Nat} (hm : I m) (h : m.after n = some m') : I m' := by
  induction n generalizing m' with
  | zero =>
    cases h
    exact hm
  | succ n ih =>
    obtain ⟨m₁, h₁, hstep⟩ := after_succ_eq_some_iff.mp h
    exact keep m₁ m' (ih h₁) hstep

/-! ## Runs with a limited number of steps -/

/-- How a machine ends within a number of steps, or where it is after them. -/
def EndsWithin (m : Machine P) (fuel : Nat) : Ending P → Prop
  | .halted w => ∃ n < fuel, m.after n = some ⟨w, []⟩
  | .overflow w => ∃ n < fuel, ∃ m', m.after n = some m' ∧ m'.step = .overflow w
  | .unfinished m' => m.after fuel = some m'

/-- Only a machine with nothing under way halts. -/
lemma step_eq_halted_iff {m : Machine P} {w : World P} : m.step = .halted w ↔ m = ⟨w, []⟩ := by
  constructor
  · intro h
    unfold step at h
    split at h
    · cases h
      rfl
    all_goals first
      | cases h
      | split at h <;> cases h
  · rintro rfl
    rfl

lemma Step.after_succ {m m₁ : Machine P} (h : Step m m₁) (n : Nat) :
    m.after (n + 1) = m₁.after n := by
  have hone : m.after 1 = some m₁ := after_succ_eq_some_iff.mpr ⟨m, rfl, h⟩
  rw [Nat.add_comm, after_add, hone, Option.bind_some]

lemma EndsWithin.head {m m₁ : Machine P} {fuel : Nat} {e : Ending P} (hstep : Step m m₁)
    (h : m₁.EndsWithin fuel e) : m.EndsWithin (fuel + 1) e := by
  cases e with
  | halted w =>
    obtain ⟨n, hn, hm'⟩ := h
    exact ⟨n + 1, Nat.succ_lt_succ hn, (hstep.after_succ n).trans hm'⟩
  | overflow w =>
    obtain ⟨n, hn, m', hm', hw⟩ := h
    exact ⟨n + 1, Nat.succ_lt_succ hn, m', (hstep.after_succ n).trans hm', hw⟩
  | unfinished m' => exact (hstep.after_succ fuel).trans h

lemma endsWithin_run (m : Machine P) (fuel : Nat) : m.EndsWithin fuel (m.run fuel) := by
  induction fuel generalizing m with
  | zero => rfl
  | succ fuel ih =>
    rw [run]
    rcases hstep : m.step with m₁ | w | w
    · exact (ih m₁).head (next?_eq_some_iff.mp (next?_eq_some_iff_step.mpr hstep))
    · exact ⟨0, Nat.succ_pos fuel, congrArg some (step_eq_halted_iff.mp hstep)⟩
    · exact ⟨0, Nat.succ_pos fuel, m, rfl, hstep⟩

/-- With that many more steps, the run of a machine ends as that of the machine it has come to. -/
lemma run_add_of_after {m m' : Machine P} {n : Nat} (h : m.after n = some m') (fuel : Nat) :
    m.run (n + fuel) = m'.run fuel := by
  induction n generalizing m' fuel with
  | zero =>
    cases h
    rw [Nat.zero_add]
  | succ n ih =>
    obtain ⟨m₁, h₁, hstep⟩ := after_succ_eq_some_iff.mp h
    rw [Nat.add_right_comm, Nat.add_assoc, ih h₁, run,
      next?_eq_some_iff_step.mp (next?_eq_some_iff.mpr hstep)]

/-- **A run with a limited number of steps ends where the steps lead.** -/
theorem run_eq_iff {m : Machine P} {fuel : Nat} {e : Ending P} :
    m.run fuel = e ↔ m.EndsWithin fuel e := by
  constructor
  · rintro rfl
    exact m.endsWithin_run fuel
  · intro h
    cases e with
    | halted w =>
      obtain ⟨n, hn, hm'⟩ := h
      obtain ⟨d, rfl⟩ := Nat.exists_eq_add_of_lt hn
      rw [Nat.add_assoc, run_add_of_after hm']
      rfl
    | overflow w =>
      obtain ⟨n, hn, m', hm', hw⟩ := h
      obtain ⟨d, rfl⟩ := Nat.exists_eq_add_of_lt hn
      rw [Nat.add_assoc, run_add_of_after hm', run, hw]
    | unfinished m' => exact run_add_of_after h 0

end Machine

/-- A program, and what its run depends on besides the program itself.  The program is one script:
what is done one after the other is one script by sequencing. -/
structure Program (P : Payload) : Type 1 where
  /-- The settings. -/
  settings : Settings
  /-- The frames that the `n`-th walk of the call stack meets. -/
  walks : Nat → List Frame
  /-- What the symbols of frames start with that belong to the capture of stacks. -/
  internal : List String
  /-- What the program remembers at first. -/
  store : P.Store
  /-- What is run. -/
  main : Script P Unit

namespace Program

/-- The machine at the start. -/
def start (prog : Program P) : Machine P :=
  .load (.fresh prog.settings prog.walks prog.internal prog.store) prog.main

/-- The machine at a moment of the run, counted from zero, if the run lasts so long. -/
def moment (prog : Program P) (n : Nat) : Option (Machine P) := prog.start.after n

/-- The run reaches a moment, and there the machine has a property. -/
def At (prog : Program P) (n : Nat) (Q : Machine P → Prop) : Prop :=
  ∃ m, prog.moment n = some m ∧ Q m

variable {prog : Program P}

@[simp] lemma moment_zero (prog : Program P) : prog.moment 0 = some prog.start := rfl

lemma moment_succ_eq_some_iff {n : Nat} {m' : Machine P} :
    prog.moment (n + 1) = some m' ↔ ∃ m, prog.moment n = some m ∧ m.Step m' :=
  Machine.after_succ_eq_some_iff

lemma step_of_moment {n : Nat} {m m' : Machine P} (h : prog.moment n = some m)
    (h' : prog.moment (n + 1) = some m') : m.Step m' := by
  obtain ⟨m₁, h₁, hstep⟩ := moment_succ_eq_some_iff.mp h'
  cases h.symm.trans h₁
  exact hstep

lemma moment_of_operate {n : Nat} {w w' : World P} {ρ : Type} {o : Op P ρ}
    {k : ρ → Script P Unit} {r : ρ} {rest : List (Activity P)}
    (h : prog.moment n = some ⟨w, .script (.op o k) :: rest⟩)
    (performed : w.perform o = .answer r w') :
    prog.moment (n + 1) = some ⟨w', .script (k r) :: rest⟩ :=
  moment_succ_eq_some_iff.mpr ⟨_, h, .operate performed⟩

lemma exists_moment_of_le {i j : Nat} {m' : Machine P} (hij : i ≤ j)
    (h : prog.moment j = some m') : ∃ m, prog.moment i = some m := by
  obtain ⟨d, rfl⟩ := Nat.exists_eq_add_of_le hij
  rw [moment, Machine.after_add, Option.bind_eq_some_iff] at h
  obtain ⟨m, hm, -⟩ := h
  exact ⟨m, hm⟩

/-- What has happened before the next moment happens now, or has happened before. -/
lemma before_succ_iff {n : Nat} {m : Machine P} (h : prog.moment n = some m)
    {Q : Machine P → Prop} : (∃ j < n + 1, prog.At j Q) ↔ (∃ j < n, prog.At j Q) ∨ Q m := by
  constructor
  · rintro ⟨j, hj, m', hm', hQ⟩
    rcases Nat.lt_succ_iff_lt_or_eq.mp hj with hlt | rfl
    · exact Or.inl ⟨j, hlt, m', hm', hQ⟩
    · cases h.symm.trans hm'
      exact Or.inr hQ
  · rintro (⟨j, hj, hat⟩ | hQ)
    · exact ⟨j, Nat.lt_succ_of_lt hj, hat⟩
    · exact ⟨n, Nat.lt_succ_self n, m, h, hQ⟩

/-- What holds at one moment and is kept by every step holds at every later moment. -/
lemma carry {I : Machine P → Prop} (keep : ∀ m m', I m → m.Step m' → I m') {i j : Nat}
    {m m' : Machine P} (hij : i ≤ j) (hi : prog.moment i = some m) (hm : I m)
    (hj : prog.moment j = some m') : I m' := by
  obtain ⟨d, rfl⟩ := Nat.exists_eq_add_of_le hij
  rw [moment, Machine.after_add, Option.bind_eq_some_iff] at hj
  obtain ⟨m₁, h₁, h₂⟩ := hj
  cases hi.symm.trans h₁
  exact Machine.keep_after keep hm h₂

/-- An invariant that holds at the start holds at every moment. -/
lemma invariant {I : Machine P → Prop} (first : I prog.start)
    (keep : ∀ m m', I m → m.Step m' → I m') {n : Nat} {m : Machine P}
    (h : prog.moment n = some m) : I m :=
  Machine.keep_after keep first h

end Program

end Eventual
