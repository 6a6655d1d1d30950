import Eventual.Proofs.Schedule

/-!
# Driving the clock in pieces

A drive call starts tasks, each in a world with a clock, and these starts are its course.  It makes
no difference to the course at which instants on the way the clock is stopped and driven on: two
calls run what one call to the end of the second runs, and stops before a call without end only
change where the clock stands at last.  Calls that never return are included through what they have
begun.

What a drive does does not depend on what lies below it on the stack.  `Machine.Midway` says where
it can get, without the drive itself, and the comparison of horizons is about this relation.  A stop
leaves nothing behind that is due (`World.Timely`), so whichever task comes next starts at the same
instant as without the stop.
-/

namespace Eventual

variable {P : Payload}

/-- The start of a task. -/
structure Start (P : Payload) : Type 1 where
  /-- The task. -/
  task : Task (Work P)
  /-- The world it starts in. -/
  world : World P

/-! ## The course of a drive call -/

namespace Machine

/-- The run of a machine comes to another one without a drive call, and in between it starts these
tasks. -/
inductive Runs (m : Machine P) : List (Start P) → Machine P → Prop
  /-- It is there already. -/
  | refl : Runs m [] m
  /-- It makes a step in which no task starts. -/
  | step {course : List (Start P)} {m₁ m₂ : Machine P} (before : Runs m course m₁)
      (quiet : ¬ m₁.Drives ∧ ∀ t, ¬ m₁.Starts t) (step : m₁.Step m₂) : Runs m course m₂
  /-- It starts a task. -/
  | start {course : List (Start P)} {m₁ m₂ : Machine P} {t : Task (Work P)}
      (before : Runs m course m₁) (starts : m₁.Starts t) (step : m₁.Step m₂) :
      Runs m (course ++ [⟨t, m₂.world⟩]) m₂

end Machine

namespace World

/-- A drive to a horizon starts the tasks of a course and ends in another world: whoever made the
call goes on there with their number. -/
def Ends (w : World P) (h : Horizon) (course : List (Start P)) (w' : World P) : Prop :=
  ∀ k rest, Machine.Runs ⟨w, .drive h 0 k :: rest⟩ course ⟨w', .script (k course.length) :: rest⟩

/-- A drive to a horizon starts the tasks of a course; there may be more to come. -/
def Enters (w : World P) (h : Horizon) (course : List (Start P)) : Prop :=
  ∀ k rest, ∃ m, Machine.Runs ⟨w, .drive h 0 k :: rest⟩ course m

/-- A drive call starts the tasks of a course and returns their number, in another world. -/
def Returns (w : World P) (d : Drive) (course : List (Start P)) (w' : World P) : Prop :=
  ∃ h, d.horizon? w.clock = some h ∧ w.Ends h course w'

/-- A drive call starts the tasks of a course; there may be more to come. -/
def Begins (w : World P) (d : Drive) (course : List (Start P)) : Prop :=
  ∃ h, d.horizon? w.clock = some h ∧ w.Enters h course

/-- Drive calls made one after the other start the tasks of a course and return. -/
inductive ReturnsEach : World P → List Drive → List (Start P) → World P → Prop
  /-- There is none to make. -/
  | nil {w : World P} : ReturnsEach w [] [] w
  /-- The first one returns, and the others after it. -/
  | cons {w w₁ w' : World P} {d : Drive} {ds : List Drive} {c₁ c₂ : List (Start P)}
      (first : w.Returns d c₁ w₁) (others : ReturnsEach w₁ ds c₂ w') :
      ReturnsEach w (d :: ds) (c₁ ++ c₂) w'

/-- Drive calls made one after the other start the tasks of a course; there may be more to come. -/
inductive BeginsEach : World P → List Drive → List (Start P) → Prop
  /-- The first one has got so far. -/
  | first {w : World P} {d : Drive} {ds : List Drive} {course : List (Start P)}
      (begins : w.Begins d course) : BeginsEach w (d :: ds) course
  /-- The first one has returned, and the others have got so far. -/
  | later {w w₁ : World P} {d : Drive} {ds : List Drive} {c₁ c₂ : List (Start P)}
      (first : w.Returns d c₁ w₁) (others : BeginsEach w₁ ds c₂) :
      BeginsEach w (d :: ds) (c₁ ++ c₂)

end World

/-- The instant to which drive calls made one after the other take the clock, if all of them go to
an instant. -/
def Drive.goal? (clock : Duration) : List Drive → Option Duration
  | [] => some clock
  | d :: ds =>
    match d.horizon? clock with
    | some (.upTo instant) => goal? instant ds
    | _ => none

/-! ## What a drive does, without the drive -/

namespace Machine

variable {m m' : Machine P} {w w₁ w₂ w' : World P} {h h' : Horizon} {x : Activity P}
  {s l : List (Activity P)} {t : Task (Work P)} {q : Queue (Work P)}
  {course c₁ c₂ : List (Start P)} {k : Nat → Script P Unit} {n : Nat}

/-- A drive begun in `w` can get to `w₁`, with `l` above it, when it has started the tasks of a
course. -/
inductive Midway (h : Horizon) (w : World P) :
    List (Start P) → World P → List (Activity P) → Prop
  /-- It has just begun. -/
  | begin : Midway h w [] w []
  /-- It starts a task. -/
  | start {course : List (Start P)} {w₁ : World P} {t : Task (Work P)} {q : Queue (Work P)}
      (before : Midway h w course w₁ []) (taken : w₁.queue.next? h = some (t, q)) :
      Midway h w (course ++ [⟨t, w₁.taken t q⟩]) (w₁.taken t q) [.ofWork t.body]
  /-- The task that is running makes a step. -/
  | step {course : List (Start P)} {w₁ w₂ : World P} {x : Activity P} {new l : List (Activity P)}
      (before : Midway h w course w₁ (x :: l)) (undriven : ¬ Drives ⟨w₁, x :: l⟩)
      (step : ∀ s, Step ⟨w₁, x :: s⟩ ⟨w₂, new ++ s⟩) : Midway h w course w₂ (new ++ l)

/-- What an activity does does not depend on what lies below it. -/
lemma Step.above (hstep : Step ⟨w, x :: s⟩ m') :
    ∃ new, m' = ⟨m'.world, new ++ s⟩ ∧ ∀ s', Step ⟨w, x :: s'⟩ ⟨m'.world, new ++ s'⟩ := by
  cases hstep with
  | finish => exact ⟨[], rfl, fun _ => .finish⟩
  | operate performed => exact ⟨[_], rfl, fun _ => .operate performed⟩
  | drive horizon => exact ⟨[_], rfl, fun _ => .drive horizon⟩
  | attempt => exact ⟨[_, _], rfl, fun _ => .attempt⟩
  | delivered => exact ⟨[], rfl, fun _ => .delivered⟩
  | call handler => exact ⟨[_, _], rfl, fun _ => .call handler⟩
  | leaveOut handler => exact ⟨[_], rfl, fun _ => .leaveOut handler⟩
  | start taken => exact ⟨[_, _], rfl, fun _ => .start taken⟩
  | driven nothing => exact ⟨[_], rfl, fun _ => .driven nothing⟩

lemma drives_cons_iff (s' : List (Activity P)) : Drives ⟨w, x :: s⟩ ↔ Drives ⟨w', x :: s'⟩ := by
  constructor
  · rintro ⟨d, k, rest, heq⟩
    cases heq
    exact ⟨d, k, s', rfl⟩
  · rintro ⟨d, k, rest, heq⟩
    cases heq
    exact ⟨d, k, s, rfl⟩

lemma not_starts_of_isDrive_eq_false (hx : x.isDrive = false) (t : Task (Work P)) :
    ¬ Starts ⟨w, x :: s⟩ t := by
  rintro ⟨h, ran, k, rest, q, heq, -⟩
  cases heq
  cases hx

namespace Midway

/-- Only scripts and deliveries are above a drive. -/
lemma isDrive_eq_false (hu : Midway h w course w₁ l) : ∀ x ∈ l, x.isDrive = false := by
  induction hu with
  | begin => simp
  | start => simp
  | @step _ w₁ w₂ x new l _ undriven step ih =>
    obtain ⟨new', hnew', hplain⟩ := (step []).frame
    have hnew : new = new' := by simpa using hnew'
    have hno : ¬ Drives ⟨w₁, [x]⟩ := (drives_cons_iff l).not.mpr undriven
    intro y hy
    rcases List.mem_append.mp hy with hy | hy
    · exact (hplain (ih x (.head l)) hno).2 y (hnew ▸ hy)
    · exact ih y (.tail x hy)

lemma ticks (hw : w.Timely) (hu : Midway h w course w₁ l) :
    w₁.Timely ∧ w.clock ≤ w₁.clock := by
  induction hu with
  | begin => exact ⟨hw, Nat.le_refl _⟩
  | @start _ w₁ t q _ taken ih =>
    have hticks : World.Ticks w₁ (w₁.taken t q) := .take h t taken rfl
    exact ⟨hticks.timely ih.1, Nat.le_trans ih.2 hticks.clock_le⟩
  | step _ _ step ih =>
    have hticks := (step []).ticks
    exact ⟨hticks.timely ih.1, Nat.le_trans ih.2 hticks.clock_le⟩

/-- The clock stays within the horizon. -/
lemma clock_le {instant : Duration} (hw : w.clock ≤ instant)
    (hu : Midway (.upTo instant) w course w₁ l) : w₁.clock ≤ instant := by
  induction hu with
  | begin => exact hw
  | start _ taken ih =>
    exact Duration.later_le ih (of_decide_eq_true (Queue.next?_eq_some_iff.mp taken).2.1)
  | @step _ w₁ w₂ x _ l before undriven step ih =>
    obtain ⟨_, _, hframe⟩ := (step []).frame
    have hclock : w₂.clock = w₁.clock :=
      (hframe (before.isDrive_eq_false x (.head l)) ((drives_cons_iff l).not.mpr undriven)).1
    rw [hclock]
    exact ih

lemma append (h₁ : Midway h w c₁ w₁ []) (h₂ : Midway h w₁ c₂ w₂ l) :
    Midway h w (c₁ ++ c₂) w₂ l := by
  induction h₂ with
  | begin =>
    rw [List.append_nil]
    exact h₁
  | start _ taken ih =>
    rw [← List.append_assoc]
    exact .start ih taken
  | step _ undriven step ih => exact .step ih undriven step

/-- A run of the machine: the drive lies below, and counts. -/
lemma runs (hu : Midway h w course w₁ l) (k : Nat → Script P Unit) (rest : List (Activity P)) :
    Runs ⟨w, .drive h 0 k :: rest⟩ course ⟨w₁, l ++ .drive h course.length k :: rest⟩ := by
  induction hu with
  | begin => exact .refl
  | start _ taken ih =>
    rw [List.length_append]
    exact .start ih ⟨_, _, _, _, _, rfl, taken⟩ (.start taken)
  | @step course _ _ x new l before undriven step ih =>
    rw [List.append_assoc]
    exact .step ih ⟨(drives_cons_iff _).not.mpr undriven,
      not_starts_of_isDrive_eq_false (before.isDrive_eq_false x (.head l))⟩ (step _)

/-- A task starts only when nothing is above the drive. -/
lemma of_starts {rest : List (Activity P)} (hu : Midway h w course w₁ l)
    (hs : Starts ⟨w₁, l ++ .drive h n k :: rest⟩ t) :
    l = [] ∧ ∃ q, w₁.queue.next? h = some (t, q) := by
  obtain ⟨h', ran, k', rest', q, heq, taken⟩ := hs
  cases l with
  | nil =>
    cases heq
    exact ⟨rfl, q, taken⟩
  | cons x l =>
    cases heq
    exact absurd (hu.isDrive_eq_false _ (.head l)) (by simp [Activity.isDrive])

/-- One more step in which no task starts: the drive is still under way, or it is over. -/
lemma next {rest : List (Activity P)} (hu : Midway h w course w₁ l)
    (quiet : ¬ Drives ⟨w₁, l ++ .drive h n k :: rest⟩ ∧
      ∀ t, ¬ Starts ⟨w₁, l ++ .drive h n k :: rest⟩ t)
    (hstep : Step ⟨w₁, l ++ .drive h n k :: rest⟩ m') :
    (∃ w₂ l', Midway h w course w₂ l' ∧ m' = ⟨w₂, l' ++ .drive h n k :: rest⟩) ∨
      l = [] ∧ w₁.queue.next? h = none ∧ m' = ⟨w₁.finishDrive h, .script (k n) :: rest⟩ := by
  cases l with
  | nil =>
    cases hstep with
    | start taken => exact absurd ⟨_, _, _, _, _, rfl, taken⟩ (quiet.2 _)
    | driven nothing => exact .inr ⟨rfl, nothing, rfl⟩
  | cons x l =>
    obtain ⟨new, heq, habove⟩ := hstep.above
    refine .inl ⟨m'.world, new ++ l, .step hu ((drives_cons_iff _).not.mpr quiet.1) habove, ?_⟩
    rw [List.append_assoc]
    exact heq

end Midway

/-- A drive with nothing below it and nothing to do afterwards is under way, or it is over. -/
lemma Runs.midway_or_over (hr : Runs ⟨w, [.drive h 0 fun _ => .pure ()]⟩ course m') :
    (∃ w₁ l, Midway h w course w₁ l ∧
      m' = ⟨w₁, l ++ [.drive h course.length fun _ => .pure ()]⟩) ∨
    ∃ w₁, Midway h w course w₁ [] ∧ w₁.queue.next? h = none ∧ m'.world = w₁.finishDrive h ∧
      (m'.stack = [.script (.pure ())] ∨ m'.stack = []) := by
  induction hr with
  | refl => exact .inl ⟨w, [], .begin, rfl⟩
  | @step _ m₁ _ _ quiet step ih =>
    rcases ih with ⟨w₁, l, hu, rfl⟩ | ⟨w₁, hu, nothing, hworld, hstack⟩
    · rcases hu.next quiet step with hon | ⟨rfl, nothing, rfl⟩
      · exact .inl hon
      · exact .inr ⟨w₁, hu, nothing, rfl, .inl rfl⟩
    · obtain ⟨w₂, stack⟩ := m₁
      rcases hstack with rfl | rfl
      · cases step
        exact .inr ⟨w₁, hu, nothing, hworld, .inr rfl⟩
      · cases step
  | start _ starts step ih =>
    rcases ih with ⟨w₁, l, hu, rfl⟩ | ⟨w₁, hu, nothing, hworld, hstack⟩
    · obtain ⟨rfl, q, taken⟩ := hu.of_starts starts
      cases step.unique (.start taken)
      exact .inl ⟨_, _, .start hu taken, by rw [List.length_append]; rfl⟩
    · obtain ⟨_, _, _, _, _, heq, -⟩ := starts
      rcases hstack with hstack | hstack <;> cases heq.symm.trans hstack

end Machine

namespace World

variable {w w₁ w' : World P} {h h' : Horizon} {d : Drive} {instant : Duration}
  {course c₁ c₂ : List (Start P)}

open Machine

/-- A drive is over when nothing within its horizon waits. -/
lemma ends_iff : w.Ends h course w' ↔
    ∃ w₁, Midway h w course w₁ [] ∧ w₁.queue.next? h = none ∧ w' = w₁.finishDrive h := by
  constructor
  · intro hends
    rcases (hends (fun _ => .pure ()) []).midway_or_over with
      ⟨w₁, l, -, heq⟩ | ⟨w₁, hu, nothing, hworld, -⟩
    · cases l <;> simp at heq
    · exact ⟨w₁, hu, nothing, hworld⟩
  · rintro ⟨w₁, hu, nothing, rfl⟩ k rest
    refine .step (hu.runs k rest) ⟨?_, ?_⟩ (.driven nothing)
    · rintro ⟨_, _, _, heq⟩
      cases heq
    · rintro t ⟨_, _, _, _, _, heq, taken⟩
      cases heq
      exact absurd (nothing.symm.trans taken) (by simp)

lemma enters_iff : w.Enters h course ↔ ∃ w₁ l, Midway h w course w₁ l := by
  constructor
  · intro henters
    obtain ⟨m, hr⟩ := henters (fun _ => .pure ()) []
    rcases hr.midway_or_over with ⟨w₁, l, hu, -⟩ | ⟨w₁, hu, -⟩
    · exact ⟨w₁, l, hu⟩
    · exact ⟨w₁, [], hu⟩
  · rintro ⟨w₁, l, hu⟩ k rest
    exact ⟨_, hu.runs k rest⟩

end World

/-! ## Stopping on the way -/

/-- Whatever is within one horizon is within the other. -/
def Horizon.Within (h h' : Horizon) : Prop := ∀ due, h.admits due = true → h'.admits due = true

lemma Horizon.within_unbounded (h : Horizon) : h.Within .unbounded := fun _ _ => rfl

lemma Horizon.within_upTo {i j : Duration} (hij : i ≤ j) : (upTo i).Within (.upTo j) :=
  fun _ hdue => decide_eq_true (Nat.le_trans (of_decide_eq_true hdue) hij)

lemma Queue.next?_eq_none_of_within {β : Type*} {q : Queue β} {h h' : Horizon} (hh : h.Within h')
    (hn : q.next? h' = none) : q.next? h = none := by
  rcases hq : q.next? h with _ | ⟨t, q'⟩
  · rfl
  · obtain ⟨hwaiting, hadmits, hscheduled⟩ := next?_eq_some_iff.mp hq
    have hsome := next?_eq_some_iff.mpr ⟨hwaiting, hh _ hadmits, hscheduled⟩
    exact absurd (hn.symm.trans hsome) (by simp)

namespace Machine.Midway

variable {w w₁ w₂ w' : World P} {h h' : Horizon} {l : List (Activity P)} {t : Task (Work P)}
  {q : Queue (Work P)} {course c₁ c₂ : List (Start P)}

lemma widen (hh : h.Within h') (hu : Midway h w course w₁ l) : Midway h' w course w₁ l := by
  induction hu with
  | begin => exact .begin
  | start _ taken ih =>
    obtain ⟨hwaiting, hadmits, hscheduled⟩ := Queue.next?_eq_some_iff.mp taken
    exact .start ih (Queue.next?_eq_some_iff.mpr ⟨hwaiting, hh _ hadmits, hscheduled⟩)
  | step _ undriven step ih => exact .step ih undriven step

/-- What a drive does depends on the world it begins in only through the first start. -/
lemma of_same_start (hu : Midway h w course w₁ l) (hq : w'.queue = w.queue)
    (hstart : ∀ t q, w.queue.next? h = some (t, q) → w'.taken t q = w.taken t q) :
    course = [] ∧ l = [] ∧ w₁ = w ∨ Midway h w' course w₁ l := by
  induction hu with
  | begin => exact .inl ⟨rfl, rfl, rfl⟩
  | @start _ _ t q _ taken ih =>
    rcases ih with ⟨rfl, -, rfl⟩ | hu
    · rw [← hstart t q taken]
      exact .inr (.start .begin (hq.symm ▸ taken))
    · exact .inr (.start hu taken)
  | step _ undriven step ih =>
    rcases ih with ⟨-, hl, -⟩ | hu
    · cases hl
    · exact .inr (.step hu undriven step)

/-- A drive stays within a nearer horizon, or there is a moment at which it has done all that is
within the nearer one. -/
lemma split (hu : Midway h' w course w₂ l) (h : Horizon) :
    Midway h w course w₂ l ∨
      ∃ c₁ c₂ w₁, course = c₁ ++ c₂ ∧ Midway h w c₁ w₁ [] ∧ w₁.queue.next? h = none ∧
        Midway h' w₁ c₂ w₂ l := by
  induction hu with
  | begin => exact .inl .begin
  | @start course w₂ t q _ taken ih =>
    rcases ih with hu | ⟨c₁, c₂, w₁, rfl, h₁, nothing, h₂⟩
    · rcases hn : w₂.queue.next? h with _ | ⟨t', q'⟩
      · exact .inr ⟨course, _, w₂, rfl, hu, hn, .start .begin taken⟩
      · -- both horizons admit the head of the queue
        obtain ⟨hwaiting, hadmits, hscheduled⟩ := Queue.next?_eq_some_iff.mp taken
        obtain ⟨hwaiting', hadmits', -⟩ := Queue.next?_eq_some_iff.mp hn
        obtain ⟨rfl, -⟩ := List.cons.inj (hwaiting.symm.trans hwaiting')
        exact .inl (.start hu (Queue.next?_eq_some_iff.mpr ⟨hwaiting, hadmits', hscheduled⟩))
    · exact .inr ⟨c₁, _, w₁, List.append_assoc .., h₁, nothing, .start h₂ taken⟩
  | step _ undriven step ih =>
    rcases ih with hu | ⟨c₁, c₂, w₁, rfl, h₁, nothing, h₂⟩
    · exact .inl (.step hu undriven step)
    · exact .inr ⟨c₁, c₂, w₁, rfl, h₁, nothing, .step h₂ undriven step⟩

end Machine.Midway

namespace World

variable {w w₁ w' : World P} {h h' : Horizon} {d : Drive} {i : Duration} {t : Task (Work P)}
  {q : Queue (Work P)} {course c₁ c₂ : List (Start P)} {l : List (Activity P)} {ds : List Drive}

open Machine

lemma finishDrive_comm (w : World P) (h h' : Horizon) :
    (w.finishDrive h).finishDrive h' = (w.finishDrive h').finishDrive h := by
  cases h <;> cases h' <;> simp only [finishDrive, Horizon.reached]
  rename_i i j
  congr 1
  simp only [Duration.ext_iff, Duration.nanos_later]
  omega

lemma finishDrive_upTo_of_le (hi : i ≤ w.clock) : w.finishDrive (.upTo i) = w := by
  simp only [finishDrive, Horizon.reached, Duration.later_eq_left hi]

/-- What waits after a stop is due later, so it starts as if there had been none. -/
lemma taken_finishDrive (hw : w.Timely) (nothing : w.queue.next? (.upTo i) = none)
    (taken : w.queue.next? h = some (t, q)) :
    (w.finishDrive (.upTo i)).taken t q = w.taken t q := by
  have hmem : t ∈ w.queue.waiting := by
    rw [(Queue.next?_eq_some_iff.mp taken).1]
    exact .head _
  have hlt := Duration.lt_iff.mp (hw.ordered.lt_due_of_next?_eq_none nothing hmem)
  simp only [World.taken, finishDrive, Horizon.reached]
  congr 1
  simp only [Duration.ext_iff, Duration.nanos_later]
  omega

lemma ticks_finishDrive (nothing : w.queue.next? h = none) : Ticks w (w.finishDrive h) :=
  .close h nothing rfl rfl

/-- Without a stop in front of it, a drive goes the same way. -/
lemma midway_of_stop (hw : w.Timely) (nothing : w.queue.next? (.upTo i) = none)
    (hu : Midway h (w.finishDrive (.upTo i)) course w₁ l) :
    course = [] ∧ l = [] ∧ w₁ = w.finishDrive (.upTo i) ∨ Midway h w course w₁ l :=
  hu.of_same_start rfl fun _ _ taken => (taken_finishDrive hw nothing taken).symm

/-- After a stop, a drive goes the same way. -/
lemma midway_after_stop (hw : w.Timely) (nothing : w.queue.next? (.upTo i) = none)
    (hu : Midway h w course w₁ l) :
    course = [] ∧ l = [] ∧ w₁ = w ∨ Midway h (w.finishDrive (.upTo i)) course w₁ l :=
  hu.of_same_start rfl fun _ _ taken => taken_finishDrive hw nothing taken

/-- **A stop on the way makes no difference** to what is started, finished or not. -/
theorem enters_iff_of_stop (hw : w.Timely) (hh : (Horizon.upTo i).Within h) :
    (w.Enters (.upTo i) course ∨
      ∃ c₁ c₂ w₁, course = c₁ ++ c₂ ∧ w.Ends (.upTo i) c₁ w₁ ∧ w₁.Enters h c₂) ↔
    w.Enters h course := by
  simp only [enters_iff, ends_iff]
  constructor
  · rintro (⟨w₁, l, hu⟩ | ⟨c₁, c₂, -, rfl, ⟨w₁, h₁, nothing, rfl⟩, w₂, l, h₂⟩)
    · exact ⟨w₁, l, hu.widen hh⟩
    · rcases midway_of_stop (h₁.ticks hw).1 nothing h₂ with ⟨rfl, -, -⟩ | h₂
      · rw [List.append_nil]
        exact ⟨w₁, [], h₁.widen hh⟩
      · exact ⟨w₂, l, (h₁.widen hh).append h₂⟩
  · rintro ⟨w₂, l, hu⟩
    rcases hu.split (.upTo i) with hu | ⟨c₁, c₂, w₁, rfl, h₁, nothing, h₂⟩
    · exact .inl ⟨w₂, l, hu⟩
    · refine .inr ⟨c₁, c₂, _, rfl, ⟨w₁, h₁, nothing, rfl⟩, ?_⟩
      rcases midway_after_stop (h₁.ticks hw).1 nothing h₂ with ⟨rfl, -, -⟩ | h₂
      · exact ⟨_, [], .begin⟩
      · exact ⟨w₂, l, h₂⟩

/-- What goes on after a stop ends no earlier than the stop. -/
lemma finishDrive_of_stop (hw : w.Timely) (nothing : w.queue.next? (.upTo i) = none)
    (hu : Midway h (w.finishDrive (.upTo i)) course w₁ l) :
    (w₁.finishDrive h).finishDrive (.upTo i) = w₁.finishDrive h := by
  have hi : i ≤ w₁.clock := Nat.le_trans (Duration.le_later_right w.clock i)
    (hu.ticks ((ticks_finishDrive nothing).timely hw)).2
  rw [finishDrive_comm, finishDrive_upTo_of_le hi]

/-- A stop on the way makes no difference to what is started, nor to the world at the end, except
that the clock is not before the stop. -/
theorem ends_iff_of_stop (hw : w.Timely) (hh : (Horizon.upTo i).Within h) :
    (∃ c₁ c₂ w₁, course = c₁ ++ c₂ ∧ w.Ends (.upTo i) c₁ w₁ ∧ w₁.Ends h c₂ w') ↔
    ∃ w₂, w.Ends h course w₂ ∧ w' = w₂.finishDrive (.upTo i) := by
  simp only [ends_iff]
  constructor
  · rintro ⟨c₁, c₂, -, rfl, ⟨w₁, h₁, nothing, rfl⟩, w₂, h₂, nothing', rfl⟩
    have hw₁ := (h₁.ticks hw).1
    have hlate := finishDrive_of_stop hw₁ nothing h₂
    rcases midway_of_stop hw₁ nothing h₂ with ⟨rfl, -, rfl⟩ | h₂
    · rw [List.append_nil]
      exact ⟨_, ⟨w₁, h₁.widen hh, nothing', rfl⟩, finishDrive_comm ..⟩
    · exact ⟨_, ⟨w₂, (h₁.widen hh).append h₂, nothing', rfl⟩, hlate.symm⟩
  · rintro ⟨-, ⟨w₂, hu, nothing', rfl⟩, rfl⟩
    rcases hu.split (.upTo i) with hu | ⟨c₁, c₂, w₁, rfl, h₁, nothing, h₂⟩
    · exact ⟨course, [], _, (List.append_nil _).symm,
        ⟨w₂, hu, Queue.next?_eq_none_of_within hh nothing', rfl⟩, _, .begin, nothing',
        finishDrive_comm ..⟩
    · have hw₁ := (h₁.ticks hw).1
      refine ⟨c₁, c₂, _, rfl, ⟨w₁, h₁, nothing, rfl⟩, ?_⟩
      rcases midway_after_stop hw₁ nothing h₂ with ⟨rfl, -, rfl⟩ | h₂
      · exact ⟨_, .begin, nothing', finishDrive_comm ..⟩
      · exact ⟨w₂, h₂, nothing', finishDrive_of_stop hw₁ nothing h₂⟩

lemma Ends.timely (hw : w.Timely) (hends : w.Ends h course w') : w'.Timely := by
  obtain ⟨w₁, hu, nothing, rfl⟩ := ends_iff.mp hends
  exact (ticks_finishDrive nothing).timely (hu.ticks hw).1

lemma Ends.clock_le (hw : w.Timely) (hends : w.Ends h course w') : w.clock ≤ w'.clock := by
  obtain ⟨w₁, hu, nothing, rfl⟩ := ends_iff.mp hends
  exact Nat.le_trans (hu.ticks hw).2 (ticks_finishDrive nothing).clock_le

/-- A drive to an instant takes the clock there. -/
lemma Ends.clock_eq (hi : w.clock ≤ i) (hends : w.Ends (.upTo i) course w') : w'.clock = i := by
  obtain ⟨w₁, hu, -, rfl⟩ := ends_iff.mp hends
  exact Duration.later_eq_right (hu.clock_le hi)

/-! ## Several calls -/

lemma returnsEach_singleton_iff : w.ReturnsEach [d] course w' ↔ w.Returns d course w' := by
  constructor
  · rintro (_ | ⟨first, _ | _⟩)
    rw [List.append_nil]
    exact first
  · intro first
    rw [← List.append_nil course]
    exact .cons first .nil

lemma returnsEach_concat_iff : w.ReturnsEach (ds ++ [d]) course w' ↔
    ∃ c₁ c₂ w₁, course = c₁ ++ c₂ ∧ w.ReturnsEach ds c₁ w₁ ∧ w₁.Returns d c₂ w' := by
  induction ds generalizing w course with
  | nil =>
    rw [List.nil_append, returnsEach_singleton_iff]
    constructor
    · exact fun last => ⟨[], course, w, rfl, .nil, last⟩
    · rintro ⟨c₁, c₂, w₁, rfl, _ | _, last⟩
      exact last
  | cons d' ds ih =>
    constructor
    · rintro (_ | ⟨first, others⟩)
      obtain ⟨c₁, c₂, w₁, rfl, before, last⟩ := ih.mp others
      exact ⟨_, c₂, w₁, (List.append_assoc ..).symm, .cons first before, last⟩
    · rintro ⟨-, c₂, w₁, rfl, _ | ⟨first, before⟩, last⟩
      rw [List.append_assoc, List.cons_append]
      exact .cons first (ih.mpr ⟨_, c₂, w₁, rfl, before, last⟩)

end World

lemma Drive.le_of_goal? {clock i : Duration} {ds : List Drive} (hgoal : goal? clock ds = some i) :
    clock ≤ i := by
  induction ds generalizing clock with
  | nil =>
    cases hgoal
    exact Nat.le_refl _
  | cons d ds ih =>
    unfold goal? at hgoal
    split at hgoal
    · rename_i j hj
      exact Nat.le_trans (le_of_horizon? hj) (ih hgoal)
    · cases hgoal

namespace World

variable {w w₁ w' : World P} {h : Horizon} {i : Duration} {course : List (Start P)}

/-- **Calls that go to instants on the way make no difference** to what a drive starts, nor to the
world at its end, except that the clock is not before the last of these instants. -/
theorem ends_iff_of_stops {ds : List Drive} (hw : w.Timely)
    (hgoal : Drive.goal? w.clock ds = some i) (hh : (Horizon.upTo i).Within h) :
    (∃ c₁ c₂ w₁, course = c₁ ++ c₂ ∧ w.ReturnsEach ds c₁ w₁ ∧ w₁.Ends h c₂ w') ↔
      ∃ w₂, w.Ends h course w₂ ∧ w' = w₂.finishDrive (.upTo i) := by
  induction ds generalizing w course with
  | nil =>
    cases hgoal
    have hsame : ∀ {w₂}, w.Ends h course w₂ → w₂.finishDrive (.upTo w.clock) = w₂ :=
      fun hends => finishDrive_upTo_of_le (hends.clock_le hw)
    constructor
    · rintro ⟨c₁, c₂, w₁, rfl, _ | _, hends⟩
      exact ⟨w', hends, (hsame hends).symm⟩
    · rintro ⟨w₂, hends, rfl⟩
      rw [hsame hends]
      exact ⟨[], course, w, rfl, .nil, hends⟩
  | cons d ds ih =>
    unfold Drive.goal? at hgoal
    split at hgoal
    swap
    · cases hgoal
    rename_i j hj
    have hji := Drive.le_of_goal? hgoal
    have hw₁ : ∀ {c w₁}, w.Ends (.upTo j) c w₁ →
        w₁.Timely ∧ Drive.goal? w₁.clock ds = some i := fun hends =>
      ⟨hends.timely hw, by rw [hends.clock_eq (Drive.le_of_horizon? hj), hgoal]⟩
    have hlater : ∀ w₂ : World P, (w₂.finishDrive (.upTo j)).finishDrive (.upTo i) =
        w₂.finishDrive (.upTo i) := fun w₂ => by
      rw [finishDrive_comm]
      exact finishDrive_upTo_of_le (Nat.le_trans hji (Duration.le_later_right ..))
    have hjh : (Horizon.upTo j).Within h :=
      fun due hdue => hh due (Horizon.within_upTo hji due hdue)
    constructor
    · rintro ⟨-, c₃, w₃, rfl, _ | @⟨_, w₁, _, _, _, c₁, c₂, ⟨h', hh', first⟩, others⟩, last⟩
      cases hj.symm.trans hh'
      obtain ⟨htimely, hgoal'⟩ := hw₁ first
      obtain ⟨w₂, hends, rfl⟩ := (ih htimely hgoal').mp ⟨c₂, c₃, w₃, rfl, others, last⟩
      obtain ⟨w₄, hends', rfl⟩ :=
        (ends_iff_of_stop hw hjh).mp ⟨c₁, _, w₁, List.append_assoc .., first, hends⟩
      exact ⟨w₄, hends', hlater w₄⟩
    · rintro ⟨w₂, hends, rfl⟩
      obtain ⟨c₁, c₂, w₁, rfl, first, hends'⟩ :=
        (ends_iff_of_stop hw hjh).mpr ⟨w₂, hends, rfl⟩
      obtain ⟨htimely, hgoal'⟩ := hw₁ first
      obtain ⟨c₃, c₄, w₃, rfl, others, last⟩ :=
        (ih htimely hgoal').mpr ⟨_, hends', (hlater w₂).symm⟩
      exact ⟨c₁ ++ c₃, c₄, w₃, (List.append_assoc ..).symm, .cons ⟨_, hj, first⟩ others, last⟩

lemma beginsEach_pair_iff {d₁ d₂ : Drive} : w.BeginsEach [d₁, d₂] course ↔
    w.Begins d₁ course ∨
      ∃ c₁ c₂ w₁, course = c₁ ++ c₂ ∧ w.Returns d₁ c₁ w₁ ∧ w₁.Begins d₂ c₂ := by
  constructor
  · rintro (begins | ⟨first, begins | ⟨-, _ | _⟩⟩)
    · exact .inl begins
    · exact .inr ⟨_, _, _, rfl, first, begins⟩
  · rintro (begins | ⟨c₁, c₂, w₁, rfl, first, begins⟩)
    · exact .first begins
    · exact .later first (.first begins)

lemma returns_advance_iff {span : Duration} : w.Returns (.advance span) course w' ↔
    ∃ i, w.clock.add? span = some i ∧ w.Ends (.upTo i) course w' := by
  simp only [Returns, Drive.horizon?, Option.map_eq_some_iff]
  constructor
  · rintro ⟨_, ⟨i, hi, rfl⟩, hends⟩
    exact ⟨i, hi, hends⟩
  · rintro ⟨i, hi, hends⟩
    exact ⟨_, ⟨i, hi, rfl⟩, hends⟩

lemma begins_advance_iff {span : Duration} : w.Begins (.advance span) course ↔
    ∃ i, w.clock.add? span = some i ∧ w.Enters (.upTo i) course := by
  simp only [Begins, Drive.horizon?, Option.map_eq_some_iff]
  constructor
  · rintro ⟨_, ⟨i, hi, rfl⟩, henters⟩
    exact ⟨i, hi, henters⟩
  · rintro ⟨i, hi, henters⟩
    exact ⟨_, ⟨i, hi, rfl⟩, henters⟩

/-- Two advances return what one by both spans returns. -/
theorem returnsEach_advance_iff {a b c : Duration} (hw : w.Timely) (hc : a.add? b = some c) :
    w.ReturnsEach [.advance a, .advance b] course w' ↔ w.Returns (.advance c) course w' := by
  change w.ReturnsEach ([.advance a] ++ [.advance b]) course w' ↔ _
  simp only [returnsEach_concat_iff, returnsEach_singleton_iff, returns_advance_iff,
    Duration.add?_eq_some_iff_of_add? hc]
  constructor
  · rintro ⟨c₁, c₂, w₁, rfl, ⟨i, hi, first⟩, j, hj, last⟩
    have hclock := first.clock_eq (Duration.le_of_add?_eq_some hi)
    rw [hclock] at hj
    have hij := Duration.le_of_add?_eq_some hj
    obtain ⟨w₂, hends, rfl⟩ :=
      (ends_iff_of_stop hw (Horizon.within_upTo hij)).mp ⟨c₁, c₂, w₁, rfl, first, last⟩
    have hj' := hends.clock_eq (Nat.le_trans (Duration.le_of_add?_eq_some hi) hij)
    rw [finishDrive_upTo_of_le (hj' ▸ hij)]
    exact ⟨j, ⟨i, hi, hj⟩, hends⟩
  · rintro ⟨j, ⟨i, hi, hj⟩, hends⟩
    have hij := Duration.le_of_add?_eq_some hj
    have hj' := hends.clock_eq (Nat.le_trans (Duration.le_of_add?_eq_some hi) hij)
    obtain ⟨c₁, c₂, w₁, rfl, first, last⟩ := (ends_iff_of_stop hw (Horizon.within_upTo hij)).mpr
      ⟨w', hends, (finishDrive_upTo_of_le (hj' ▸ hij)).symm⟩
    have hclock := first.clock_eq (Duration.le_of_add?_eq_some hi)
    exact ⟨c₁, c₂, w₁, rfl, ⟨i, hi, first⟩, j, hclock ▸ hj, last⟩

/-- Two advances to instants that exist start what one by both spans starts. -/
theorem beginsEach_advance_iff {a b c e : Duration} (hw : w.Timely) (hc : a.add? b = some c)
    (he : w.clock.add? c = some e) :
    w.BeginsEach [.advance a, .advance b] course ↔ w.Begins (.advance c) course := by
  obtain ⟨i, hi, hie⟩ := (Duration.add?_eq_some_iff_of_add? hc).mp he
  have hclock := Duration.le_of_add?_eq_some hi
  have hone : ∀ {w₁ : World P} {span j c₁}, w₁.clock.add? span = some j →
      (w₁.Begins (.advance span) c₁ ↔ w₁.Enters (.upTo j) c₁) := by
    intro w₁ span j c₁ hj
    simp [begins_advance_iff, hj]
  rw [beginsEach_pair_iff, hone he, hone hi,
    ← enters_iff_of_stop hw (Horizon.within_upTo (Duration.le_of_add?_eq_some hie))]
  refine or_congr_right (exists₃_congr fun c₁ c₂ w₁ => and_congr_right fun _ => ?_)
  rw [returns_advance_iff]
  constructor
  · rintro ⟨⟨j, hj, first⟩, begins⟩
    cases hi.symm.trans hj
    exact ⟨first, (hone (first.clock_eq hclock ▸ hie)).mp begins⟩
  · rintro ⟨first, enters⟩
    exact ⟨⟨i, hi, first⟩, (hone (first.clock_eq hclock ▸ hie)).mpr enters⟩

/-- Calls that go to instants, and then one without end, return what the latter alone returns. -/
theorem returnsEach_all_iff {ds : List Drive} (hw : w.Timely)
    (hgoal : Drive.goal? w.clock ds = some i) : w.ReturnsEach (ds ++ [.all]) course w' ↔
      ∃ w₂, w.Returns .all course w₂ ∧ w' = w₂.finishDrive (.upTo i) := by
  have hall : ∀ {w₁ : World P} {c w₂}, w₁.Returns .all c w₂ ↔ w₁.Ends .unbounded c w₂ := by
    intro w₁ c w₂
    simp [Returns, Drive.horizon?]
  simp only [returnsEach_concat_iff, hall]
  exact ends_iff_of_stops hw hgoal (Horizon.within_unbounded _)

end World

/-! ## The calls that a run makes -/

namespace Program

variable {prog : Program P}

open Machine

/-- A drive call in progress is under way. -/
lemma midway_of_during {a b : Nat} {w : World P} {d : Drive} {k : Nat → Script P Unit}
    {rest : List (Activity P)} {h : Horizon}
    (ha : prog.moment a = some ⟨w, .script (.drive d k) :: rest⟩) (hh : d.horizon? w.clock = some h)
    (during : ∀ i, a < i → i < b →
      prog.At i fun m => ∃ l h ran, m.stack = l ++ .drive h ran k :: rest)
    (undriven : ∀ i, a < i → i < b → ¬ prog.At i fun m => m.Drives)
    {i : Nat} (hai : a < i) (hib : i < b) :
    ∃ course w₁ l, Midway h w course w₁ l ∧
      prog.moment i = some ⟨w₁, l ++ .drive h course.length k :: rest⟩ := by
  induction i, hai using Nat.le_induction with
  | base => exact ⟨[], w, [], .begin, moment_succ_eq_some_iff.mpr ⟨_, ha, .drive hh⟩⟩
  | succ i hai ih =>
    obtain ⟨course, w₁, l, hu, h₁⟩ := ih (Nat.lt_of_succ_lt hib)
    obtain ⟨m', h', l', h₂, ran', hstack'⟩ := during (i + 1) (Nat.lt_succ_of_lt hai) hib
    have hstep := step_of_moment h₁ h'
    by_cases hs : ∃ t, Starts ⟨w₁, l ++ .drive h course.length k :: rest⟩ t
    · obtain ⟨t, hs⟩ := hs
      obtain ⟨rfl, q, taken⟩ := hu.of_starts hs
      cases hstep.unique (.start taken)
      exact ⟨_, _, _, .start hu taken, by rw [List.length_append]; exact h'⟩
    · have hno : ¬ Drives ⟨w₁, l ++ .drive h course.length k :: rest⟩ := fun hdrives =>
        undriven i hai (Nat.lt_of_succ_lt hib) ⟨_, h₁, hdrives⟩
      rcases hu.next ⟨hno, fun t ht => hs ⟨t, ht⟩⟩ hstep with ⟨w₂, l₂, hu₂, rfl⟩ | ⟨-, -, rfl⟩
      · exact ⟨course, w₂, l₂, hu₂, h'⟩
      · -- the drive would be over, but it is still in progress at the next moment
        exact absurd hstack'.symm (Activity.append_drive_ne_script l')

/-- A drive call of the run whose tasks drive nothing returns in the sense above. -/
lemma returns_of_drove {a b : Nat} {d : Drive} {w' : World P} (hdrove : prog.Drove a b d w')
    (undriven : ∀ i, a < i → i < b → ¬ prog.At i fun m => m.Drives) :
    ∃ w course k rest, w.Returns d course w' ∧
      prog.moment a = some ⟨w, .script (.drive d k) :: rest⟩ ∧
      prog.moment b = some ⟨w', .script (k course.length) :: rest⟩ := by
  obtain ⟨k, n, rest, ⟨⟨w, stack⟩, ha, rfl⟩, hb, hab, during⟩ := hdrove
  obtain ⟨i, rfl⟩ : ∃ i, b = i + 1 := ⟨b - 1, by omega⟩
  obtain ⟨m₁, h₁, hstep⟩ := moment_succ_eq_some_iff.mp hb
  obtain ⟨h, hh⟩ : ∃ h, d.horizon? w.clock = some h := by
    obtain ⟨m₂, h₂⟩ := exists_moment_of_le hab hb
    cases step_of_moment ha h₂ with
    | drive hh => exact ⟨_, hh⟩
  rcases Nat.lt_succ_iff_lt_or_eq.mp hab with hai | rfl
  swap
  · cases ha.symm.trans h₁
    cases hstep.unique (.drive hh)
  obtain ⟨course, w₁, l, hu, h₁'⟩ :=
    midway_of_during ha hh during undriven hai (Nat.lt_succ_self i)
  cases h₁.symm.trans h₁'
  have hs : ∀ t, ¬ Starts ⟨w₁, l ++ .drive h course.length k :: rest⟩ t := by
    intro t hs
    obtain ⟨rfl, q, taken⟩ := hu.of_starts hs
    have heq := congrArg Machine.stack (hstep.unique (.start taken))
    exact absurd heq.symm (Activity.append_drive_ne_script [.ofWork t.body])
  have hno : ¬ Drives ⟨w₁, l ++ .drive h course.length k :: rest⟩ := fun hdrives =>
    undriven i hai (Nat.lt_succ_self i) ⟨_, h₁, hdrives⟩
  rcases hu.next ⟨hno, hs⟩ hstep with ⟨w₂, l₂, -, heq⟩ | ⟨rfl, nothing, heq⟩
  · exact absurd (congrArg Machine.stack heq).symm (Activity.append_drive_ne_script l₂)
  · have hw' : w' = w₁.finishDrive h := congrArg Machine.world heq
    exact ⟨w, course, k, rest, ⟨h, hh, World.ends_iff.mpr ⟨w₁, hu, nothing, hw'⟩⟩, ha,
      by rw [hb, heq, hw']⟩

/-- **Driving the clock in pieces changes nothing.**  A drive call of a run whose tasks make no
drive call themselves starts the tasks of a course, each in its world, and returns their number.
In every world that a run comes to:

* advancing by `a` and then by `b` starts the same tasks in the same worlds, the clock included, and
  ends in the same world, as advancing by their sum; this holds as well of what they have started
  when they are not over, as long as the instant exists that they go to;
* running the tasks that are due is the same as advancing by nothing;
* calls that go to instants, and after them a call without end, start the same tasks in the same
  worlds as the call without end alone, if that returns; the world at the end is the same, except
  that the clock is not before the last of the instants. -/
theorem driving_in_pieces (prog : Program P) :
    (∀ a b d w', prog.Drove a b d w' →
      (∀ i, a < i → i < b → ¬ prog.At i fun m => m.Drives) →
      ∃ w course k rest, w.Returns d course w' ∧
        prog.moment a = some ⟨w, .script (.drive d k) :: rest⟩ ∧
        prog.moment b = some ⟨w', .script (k course.length) :: rest⟩) ∧
    ∀ n m, prog.moment n = some m →
      (∀ a b c course w', a.add? b = some c →
        (m.world.ReturnsEach [.advance a, .advance b] course w' ↔
          m.world.Returns (.advance c) course w')) ∧
      (∀ a b c e course, a.add? b = some c → m.world.clock.add? c = some e →
        (m.world.BeginsEach [.advance a, .advance b] course ↔
          m.world.Begins (.advance c) course)) ∧
      (∀ course w', m.world.Returns .idle course w' ↔
        m.world.Returns (.advance .zero) course w') ∧
      (∀ course, m.world.Begins .idle course ↔ m.world.Begins (.advance .zero) course) ∧
      ∀ ds e course w', Drive.goal? m.world.clock ds = some e → m.world.Returns .all course w' →
        m.world.ReturnsEach (ds ++ [.all]) course { w' with clock := w'.clock.later e } := by
  refine ⟨fun a b d w' => returns_of_drove, fun n m hm => ?_⟩
  have hidle : Drive.idle.horizon? m.world.clock =
      (Drive.advance .zero).horizon? m.world.clock := by
    simp [Drive.horizon?]
  refine ⟨fun a b c course w' => World.returnsEach_advance_iff (timely hm),
    fun a b c e course => World.beginsEach_advance_iff (timely hm), fun course w' => ?_,
    fun course => ?_, fun ds e course w' hgoal hall => ?_⟩
  · rw [World.Returns, World.Returns, hidle]
  · rw [World.Begins, World.Begins, hidle]
  · exact (World.returnsEach_all_iff (timely hm) hgoal).mpr ⟨w', hall, rfl⟩

/-- A program of three tasks, one of them handed over by another, and two drive calls: the first one
runs two of them and the second one the third. -/
def drivenTwice : Program Session.Play where
  settings := .withoutTraces
  walks _ := []
  internal := []
  store := {}
  main := do
    Script.schedule (.millis 1) (Script.schedule (.millis 1) (pure ()))
    Script.schedule (.millis 3) (pure ())
    discard (Script.advance (.millis 2))
    discard Script.runAll

/-- The first drive call of `drivenTwice` can be made in two pieces, and in front of the second one
the clock can be driven beyond all tasks. -/
theorem driving_in_pieces_drivenTwice :
    ∃ m₁ m₂ c₁ c₂ w₁ w₂, drivenTwice.moment 2 = some m₁ ∧ drivenTwice.moment 9 = some m₂ ∧
      (m₁.world.Returns (.advance (.millis 2)) c₁ w₁ ∧
        m₁.world.ReturnsEach [.advance (.millis 1), .advance (.millis 1)] c₁ w₁) ∧
      (m₂.world.Returns .all c₂ w₂ ∧ w₂.clock = .millis 3 ∧
        m₂.world.ReturnsEach [.idle, .advance (.millis 7), .all] c₂
          { w₂ with clock := .millis 9 }) := by
  obtain ⟨hreturns, hpieces⟩ := driving_in_pieces drivenTwice
  have hdrove₁ : ∃ w, drivenTwice.Drove 2 9 (.advance (.millis 2)) w := by
    refine ⟨_, _, 2, _, ⟨_, rfl, rfl⟩, rfl, by decide, fun i hi hj => ?_⟩
    interval_cases i
    · exact ⟨_, rfl, [], _, _, rfl⟩
    · exact ⟨_, rfl, [_], _, _, rfl⟩
    · exact ⟨_, rfl, [_], _, _, rfl⟩
    · exact ⟨_, rfl, [], _, _, rfl⟩
    · exact ⟨_, rfl, [_], _, _, rfl⟩
    · exact ⟨_, rfl, [], _, _, rfl⟩
  have hdrove₂ : ∃ w, drivenTwice.Drove 9 13 .all w ∧ w.clock = .millis 3 := by
    refine ⟨_, ⟨_, 1, _, ⟨_, rfl, rfl⟩, rfl, by decide, fun i hi hj => ?_⟩, rfl⟩
    interval_cases i
    · exact ⟨_, rfl, [], _, _, rfl⟩
    · exact ⟨_, rfl, [_], _, _, rfl⟩
    · exact ⟨_, rfl, [], _, _, rfl⟩
  have hundriven : ∀ i, 2 < i → i < 13 → i ≠ 9 → ¬ drivenTwice.At i fun m => m.Drives := by
    rintro i hi hj hne ⟨m, hm, d, k, rest, hstack⟩
    interval_cases i <;> first | contradiction | (cases hm; cases hstack)
  obtain ⟨w₁, hdrove₁⟩ := hdrove₁
  obtain ⟨w₂, hdrove₂, hclock⟩ := hdrove₂
  obtain ⟨w, c₁, k, rest, hreturns₁, hm₁, -⟩ := hreturns 2 9 _ w₁ hdrove₁ fun i hi hj =>
    hundriven i hi (by omega) (by omega)
  obtain ⟨w', c₂, k', rest', hreturns₂, hm₂, -⟩ := hreturns 9 13 _ w₂ hdrove₂ fun i hi hj =>
    hundriven i (by omega) hj (by omega)
  have heach₁ := ((hpieces 2 _ hm₁).1 (.millis 1) (.millis 1) (.millis 2) c₁ w₁ rfl).mpr hreturns₁
  have hgoal : Drive.goal? w'.clock [.idle, .advance (.millis 7)] = some (.millis 9) := by
    cases hm₂
    rfl
  have heach₂ := (hpieces 9 _ hm₂).2.2.2.2 _ _ c₂ w₂ hgoal hreturns₂
  have hlater : w₂.clock.later (.millis 9) = .millis 9 := by rw [hclock]; rfl
  rw [hlater] at heach₂
  exact ⟨_, _, c₁, c₂, w₁, w₂, hm₁, hm₂, ⟨hreturns₁, heach₁⟩, hreturns₂, hclock, heach₂⟩

end Program

end Eventual
