import Eventual.Proofs.Exhaustion

/-!
# How calls end

A script that is called runs above whatever made the call, and sees nothing of it.  So the call ends
in the same way whoever made it: it yields an answer (`World.Yields`), or it panics, since an
instant is needed that does not exist (`World.Panics`), or it goes on for ever (`World.Forever`).
Only one of these happens, and one of them does (`World.yields_or_panics_or_forever`).  Which
machines lack an instant is said by `Machine.Exceeds`: those whose innermost script schedules a task
or drives the clock forward, beyond the longest span.
-/

namespace Eventual

variable {P : Payload} {α : Type}

/-! ## Missing instants -/

/-- The instant after a delay would lie beyond the longest span. -/
def World.Beyond (w : World P) (delay : Duration) : Prop :=
  Duration.longest.nanos < w.clock.nanos + delay.nanos

lemma World.beyond_iff {w : World P} {delay : Duration} :
    w.Beyond delay ↔ w.clock.add? delay = none :=
  Duration.add?_eq_none_iff.symm

lemma World.not_beyond_zero (w : World P) : ¬ w.Beyond .zero := by
  simp [World.beyond_iff]

lemma Drive.horizon?_eq_none_iff {w : World P} {d : Drive} :
    d.horizon? w.clock = none ↔ ∃ span, d = .advance span ∧ w.Beyond span := by
  cases d with
  | advance span => simp [horizon?, World.beyond_iff]
  | idle | all => simp [horizon?]

namespace Machine

/-- The innermost script schedules a task or drives the clock forward, beyond the longest span; the
world in which everything stops. -/
inductive Exceeds : Machine P → World P → Prop
  /-- A task is scheduled; its turn is taken in vain. -/
  | schedule {w : World P} {delay : Duration} {body : Script P Unit} {k : Unit → Script P Unit}
      {rest : List (Activity P)} (beyond : w.Beyond delay) :
      Exceeds ⟨w, .script (.op (.schedule delay body) k) :: rest⟩ { w with queue := w.queue.skip }
  /-- The clock is driven forward. -/
  | advance {w : World P} {span : Duration} {k : Nat → Script P Unit} {rest : List (Activity P)}
      (beyond : w.Beyond span) : Exceeds ⟨w, .script (.drive (.advance span) k) :: rest⟩ w

variable {m m' : Machine P} {w w' w₁ w₂ : World P}

/-- **A run stops for want of an instant where a script schedules a task or drives the clock beyond
the longest span**, and nowhere else. -/
theorem step_eq_overflow_iff : m.step = .overflow w' ↔ m.Exceeds w' := by
  constructor
  · intro h
    obtain ⟨w, stack⟩ := m
    -- the cases are the equations of `step`
    match stack with
    | [] => cases h
    | .script (.pure ()) :: rest => cases h
    | .script (.op o k) :: rest =>
      cases o with
      | schedule delay body =>
        rcases hdue : w.clock.add? delay with _ | due
        · simp only [step, World.perform, World.schedule, hdue] at h
          cases h
          exact .schedule (World.beyond_iff.mpr hdue)
        · simp [step, World.perform, World.schedule, hdue] at h
      | _ => cases h
    | .script (.drive d k) :: rest =>
      rcases hor : d.horizon? w.clock with _ | hor'
      · simp only [step, hor] at h
        cases h
        obtain ⟨span, rfl, beyond⟩ := Drive.horizon?_eq_none_iff.mp hor
        exact .advance beyond
      · simp [step, hor] at h
    | .script (.attempt r k) :: rest => cases h
    | .delivery p o [] :: rest => cases h
    | .delivery p o (r :: rs) :: rest =>
      rcases hh : r.observer.handler? o with _ | body <;> simp [step, hh] at h
    | .drive hor ran k :: rest =>
      rcases hn : w.queue.next? hor with _ | ⟨t, q⟩ <;> simp [step, World.startTask?, hn] at h
  · intro h
    cases h with
    | schedule beyond =>
      simp only [step, World.perform, World.schedule, World.beyond_iff.mp beyond]
    | advance beyond =>
      simp only [step, Drive.horizon?, World.beyond_iff.mp beyond, Option.map_none]

/-- Whether an instant is lacking does not depend on what lies below. -/
lemma Exceeds.above {x : Activity P} {l : List (Activity P)} (h : Exceeds ⟨w, x :: l⟩ w')
    (l' : List (Activity P)) : Exceeds ⟨w, x :: l'⟩ w' := by
  cases h with
  | schedule beyond => exact .schedule beyond
  | advance beyond => exact .advance beyond

lemma Exceeds.unique (h₁ : m.Exceeds w₁) (h₂ : m.Exceeds w₂) : w₁ = w₂ := by
  rw [← step_eq_overflow_iff] at h₁ h₂
  cases h₁.symm.trans h₂
  rfl

lemma Exceeds.not_step (h : m.Exceeds w) : ¬ m.Step m' := by
  rw [← next?_eq_some_iff, next?_eq_some_iff_step, step_eq_overflow_iff.mpr h]
  exact fun hnext => by cases hnext

end Machine

/-! ## The ends of a call -/

namespace World

open Machine

/-- The machine in which a script is called; what is done with its answer is `f`, and `rest` is
under way below. -/
def calling (w : World P) (s : Script P α) (f : α → Script P Unit) (rest : List (Activity P)) :
    Machine P :=
  ⟨w, .script (s.bind f) :: rest⟩

/-- The call of a script yields an answer, whoever made it. -/
def Yields (w : World P) (s : Script P α) (a : α) (w' : World P) : Prop :=
  ∀ f rest, (w.calling s f rest).Reaches ⟨w', .script (f a) :: rest⟩

/-- The call of a script stops for want of an instant, whoever made it. -/
def Panics (w : World P) (s : Script P α) (w' : World P) : Prop :=
  ∀ f rest, ∃ m, (w.calling s f rest).Reaches m ∧ m.Exceeds w'

/-- The call of a script goes on for ever, whoever made it. -/
def Forever (w : World P) (s : Script P α) : Prop :=
  ∀ f rest m, (w.calling s f rest).Reaches m → ∃ m', m.Step m'

variable {w w' w₁ w₂ : World P} {s : Script P α} {a : α}

lemma yields_pure (w : World P) (a : α) : w.Yields (.pure a) a w := fun _ _ => .refl _

lemma Yields.op {ρ : Type} {o : Op P ρ} {r : ρ} {k : ρ → Script P α}
    (performed : w.perform o = .answer r w₁) (h : w₁.Yields (k r) a w') :
    w.Yields (.op o k) a w' :=
  fun f rest => (Step.operate performed).reaches.trans (h f rest)

lemma Panics.op {ρ : Type} {o : Op P ρ} {r : ρ} {k : ρ → Script P α}
    (performed : w.perform o = .answer r w₁) (h : w₁.Panics (k r) w') : w.Panics (.op o k) w' := by
  intro f rest
  obtain ⟨m, hreach, hm⟩ := h f rest
  exact ⟨m, (Step.operate performed).reaches.trans hreach, hm⟩

lemma Panics.unique (h₁ : w.Panics s w₁) (h₂ : w.Panics s w₂) : w₁ = w₂ := by
  obtain ⟨m₁, hreach₁, hm₁⟩ := h₁ (fun _ => .pure ()) []
  obtain ⟨m₂, hreach₂, hm₂⟩ := h₂ (fun _ => .pure ()) []
  cases hreach₁.unique hreach₂ (fun _ => hm₁.not_step) fun _ => hm₂.not_step
  exact hm₁.unique hm₂

lemma Yields.not_panics (h : w.Yields s a w') : ¬ w.Panics s w₁ := by
  intro hpanics
  obtain ⟨m, hreach, hm⟩ := hpanics (fun _ => .pure ()) []
  have hend := (h (fun _ => .pure ()) []).trans Step.finish.reaches
  cases hreach.unique hend (fun _ => hm.not_step) fun _ hstep => by cases hstep
  cases hm

lemma Forever.not_panics (h : w.Forever s) : ¬ w.Panics s w' := by
  intro hpanics
  obtain ⟨m, hreach, hm⟩ := hpanics (fun _ => .pure ()) []
  obtain ⟨m', hstep⟩ := h _ _ m hreach
  exact hm.not_step hstep

end World

/-! ## In the middle of a call -/

/-- Where a script is in its run: in the rest of it, or in a drive that it made. -/
inductive Script.Frame (P : Payload) (α : Type) : Type 1
  /-- In a script. -/
  | script (s : Script P α)
  /-- In a drive that has run `ran` tasks. -/
  | drive (horizon : Horizon) (ran : Nat) (k : Nat → Script P α)

/-- The activity of a script, with what is done with its answer. -/
def Script.Frame.before : Script.Frame P α → (α → Script P Unit) → Activity P
  | script s, f => .script (s.bind f)
  | drive horizon ran k, f => .drive horizon ran fun n => (k n).bind f

/-- A call on its way: the world, what the script has set under way above it, and where it is. -/
structure Call (P : Payload) (α : Type) : Type 1 where
  world : World P
  above : List (Activity P)
  frame : Script.Frame P α

namespace Call

open Machine

/-- The machine of a call on its way. -/
def machine (c : Call P α) (f : α → Script P Unit) (rest : List (Activity P)) : Machine P :=
  ⟨c.world, c.above ++ c.frame.before f :: rest⟩

/-- A call goes on. -/
inductive Next : Call P α → Call P α → Prop
  /-- What is under way above the script goes on. -/
  | above {w w' : World P} {x : Activity P} {new l : List (Activity P)} {φ : Script.Frame P α}
      (step : ∀ s, Step ⟨w, x :: s⟩ ⟨w', new ++ s⟩) : Next ⟨w, x :: l, φ⟩ ⟨w', new ++ l, φ⟩
  /-- The script carries out an operation. -/
  | operate {w w' : World P} {ρ : Type} {o : Op P ρ} {k : ρ → Script P α} {r : ρ}
      (performed : w.perform o = .answer r w') :
      Next ⟨w, [], .script (.op o k)⟩ ⟨w', [], .script (k r)⟩
  /-- The script drives the clock. -/
  | drive {w : World P} {d : Drive} {h : Horizon} {k : Nat → Script P α}
      (horizon : d.horizon? w.clock = some h) :
      Next ⟨w, [], .script (.drive d k)⟩ ⟨w, [], .drive h 0 k⟩
  /-- The script makes an attempt of a retry loop. -/
  | attempt {w : World P} {r : RetryId} {k : Script P α} :
      Next ⟨w, [], .script (.attempt r k)⟩ ⟨w, [.script (w.nextAttempt r)], .script k⟩
  /-- The drive starts a task. -/
  | start {w : World P} {h : Horizon} {ran : Nat} {k : Nat → Script P α} {t : Task (Work P)}
      {q : Queue (Work P)} (taken : w.queue.next? h = some (t, q)) :
      Next ⟨w, [], .drive h ran k⟩
        ⟨{ w with queue := q, clock := w.clock.later t.due }, [.ofWork t.body],
          .drive h (ran + 1) k⟩
  /-- The drive is over. -/
  | driven {w : World P} {h : Horizon} {ran : Nat} {k : Nat → Script P α}
      (nothing : w.queue.next? h = none) :
      Next ⟨w, [], .drive h ran k⟩ ⟨w.finishDrive h, [], .script (k ran)⟩

/-- The calls that come of one. -/
abbrev Comes : Call P α → Call P α → Prop := Relation.ReflTransGen Next

variable {c c' : Call P α} {f : α → Script P Unit} {rest : List (Activity P)}

lemma Next.step (h : c.Next c') (f : α → Script P Unit) (rest : List (Activity P)) :
    (c.machine f rest).Step (c'.machine f rest) := by
  cases h with
  | @above w w' x new l φ step =>
    have hstep := step (l ++ φ.before f :: rest)
    rwa [← List.append_assoc] at hstep
  | operate performed => exact .operate performed
  | drive horizon => exact .drive horizon
  | attempt => exact .attempt
  | start taken => exact .start taken
  | driven nothing => exact .driven nothing

lemma Comes.reaches (h : c.Comes c') (f : α → Script P Unit) (rest : List (Activity P)) :
    (c.machine f rest).Reaches (c'.machine f rest) := by
  induction h with
  | refl => exact .refl _
  | tail _ hnext ih => exact ih.trans (hnext.step f rest).reaches

/-- A call that is on its way has an answer, or goes on, or lacks an instant. -/
lemma cases (c : Call P α) :
    (∃ w a, c = ⟨w, [], .script (.pure a)⟩) ∨ (∃ c', c.Next c') ∨
      ∃ w', ∀ f rest, (c.machine f rest).Exceeds w' := by
  obtain ⟨w, above, φ⟩ := c
  cases above with
  | cons x l =>
    by_cases hgoes : ∃ m, Step ⟨w, [x]⟩ m
    · obtain ⟨m, hstep⟩ := hgoes
      obtain ⟨new, -, habove⟩ := hstep.above
      exact .inr (.inl ⟨_, .above habove⟩)
    · have hoverflows : Overflows ⟨w, [x]⟩ :=
        (stack_eq_nil_or_overflows fun m hstep => hgoes ⟨m, hstep⟩).resolve_left
          (List.cons_ne_nil _ _)
      obtain ⟨w', hw'⟩ := hoverflows
      have hexceeds := step_eq_overflow_iff.mp hw'
      exact .inr (.inr ⟨w', fun f rest => hexceeds.above (l ++ φ.before f :: rest)⟩)
  | nil =>
    cases φ with
    | script s =>
      cases s with
      | pure a => exact .inl ⟨w, a, rfl⟩
      | op o k =>
        rcases hperform : w.perform o with ⟨r, w'⟩ | w'
        · exact .inr (.inl ⟨_, .operate hperform⟩)
        · refine .inr (.inr ⟨w', fun f rest => step_eq_overflow_iff.mp ?_⟩)
          simp [machine, Script.Frame.before, Script.bind, step, hperform]
      | drive d k =>
        rcases hor : d.horizon? w.clock with _ | h
        · refine .inr (.inr ⟨w, fun f rest => step_eq_overflow_iff.mp ?_⟩)
          simp [machine, Script.Frame.before, Script.bind, step, hor]
        · exact .inr (.inl ⟨_, .drive hor⟩)
      | attempt r k => exact .inr (.inl ⟨_, .attempt⟩)
    | drive h ran k =>
      rcases hnext : w.queue.next? h with _ | ⟨t, q⟩
      · exact .inr (.inl ⟨_, .driven hnext⟩)
      · exact .inr (.inl ⟨_, .start hnext⟩)

/-- If a call never comes to an end, its run is the run of the calls that come of it. -/
lemma comes_of_reaches (endless : ∀ c', c.Comes c' → ∃ c'', c'.Next c'') {m : Machine P}
    (h : (c.machine f rest).Reaches m) : ∃ c', c.Comes c' ∧ m = c'.machine f rest := by
  obtain ⟨n, hn⟩ := h
  induction n generalizing m with
  | zero =>
    cases hn
    exact ⟨c, .refl, rfl⟩
  | succ n ih =>
    obtain ⟨m₁, h₁, hstep⟩ := after_succ_eq_some_iff.mp hn
    obtain ⟨c₁, hcomes, rfl⟩ := ih h₁
    obtain ⟨c₂, hnext⟩ := endless c₁ hcomes
    exact ⟨c₂, hcomes.tail hnext, hstep.unique (hnext.step f rest)⟩

end Call

namespace World

open Machine

variable {w w' : World P} {s : Script P α}

/-- The run of a call stops, or there is always a next step. -/
lemma comes_or_endless (w : World P) (s : Script P α) :
    (∃ a w', w.Yields s a w') ∨
      (∃ c w', Call.Comes ⟨w, [], .script s⟩ c ∧ ∀ f rest, (c.machine f rest).Exceeds w') ∨
      ∀ c, Call.Comes ⟨w, [], .script s⟩ c → ∃ c', c.Next c' := by
  by_cases endless : ∀ c, Call.Comes ⟨w, [], .script s⟩ c → ∃ c', c.Next c'
  · exact .inr (.inr endless)
  · obtain ⟨c, hcomes, hend⟩ : ∃ c, Call.Comes ⟨w, [], .script s⟩ c ∧ ∀ c', ¬ c.Next c' := by
      simpa using endless
    rcases c.cases with ⟨w', a, rfl⟩ | ⟨c', hnext⟩ | ⟨w', hexceeds⟩
    · exact .inl ⟨a, w', fun f rest => hcomes.reaches f rest⟩
    · exact absurd hnext (hend c')
    · exact .inr (.inl ⟨c, w', hcomes, hexceeds⟩)

lemma panics_of_comes {c : Call P α} (hcomes : Call.Comes ⟨w, [], .script s⟩ c)
    (hexceeds : ∀ f rest, (c.machine f rest).Exceeds w') : w.Panics s w' :=
  fun f rest => ⟨_, hcomes.reaches f rest, hexceeds f rest⟩

lemma forever_of_endless
    (endless : ∀ c, Call.Comes ⟨w, [], .script s⟩ c → ∃ c', c.Next c') : w.Forever s := by
  intro f rest m hreach
  obtain ⟨c, hcomes, rfl⟩ := Call.comes_of_reaches endless hreach
  obtain ⟨c', hnext⟩ := endless c hcomes
  exact ⟨_, hnext.step f rest⟩

/-- **A call yields an answer, panics, or goes on for ever.** -/
theorem yields_or_panics_or_forever (w : World P) (s : Script P α) :
    (∃ a w', w.Yields s a w') ∨ (∃ w', w.Panics s w') ∨ w.Forever s :=
  (w.comes_or_endless s).imp_right fun h =>
    h.imp (fun ⟨_, w', hcomes, hexceeds⟩ => ⟨w', panics_of_comes hcomes hexceeds⟩)
      forever_of_endless

/-- Whoever panics comes to the place where it does. -/
lemma Panics.exists_comes (h : w.Panics s w') :
    ∃ c, Call.Comes ⟨w, [], .script s⟩ c ∧ ∀ f rest, (c.machine f rest).Exceeds w' := by
  rcases w.comes_or_endless s with ⟨a, w₁, hyields⟩ | ⟨c, w₁, hcomes, hexceeds⟩ | endless
  · exact absurd h hyields.not_panics
  · obtain rfl := h.unique (panics_of_comes hcomes hexceeds)
    exact ⟨c, hcomes, hexceeds⟩
  · exact absurd h (forever_of_endless endless).not_panics

end World

end Eventual
