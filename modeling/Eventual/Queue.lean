import Eventual.Duration

/-!
# Queues of tasks

Tasks wait for an instant of the clock.  They leave the queue in the order of their instants, and
those of one instant in the order in which they were added.  The queue is kept in that order: a new
task goes behind every task that is due no later than it.
-/

namespace Eventual

universe u

/-- A task that waits. -/
structure Task (β : Type u) where
  /-- The instant it waits for. -/
  due : Duration
  /-- Its turn: the number of tasks handed to the scheduler before it. -/
  turn : Nat
  /-- What is run. -/
  body : β

/-- The tasks that wait. -/
structure Queue (β : Type u) where
  /-- The tasks, the next one first. -/
  waiting : List (Task β) := []
  /-- The number of tasks handed to the scheduler so far. -/
  scheduled : Nat := 0

/-- The last instant for which tasks are run. -/
inductive Horizon where
  /-- This one. -/
  | upTo (instant : Duration)
  /-- There is no last instant. -/
  | unbounded
deriving DecidableEq

namespace Horizon

/-- Whether tasks due at an instant are run. -/
def admits (h : Horizon) (due : Duration) : Bool :=
  match h with
  | upTo instant => due ≤ instant
  | unbounded => true

/-- The clock once no task within the horizon waits any more. -/
def reached (h : Horizon) (clock : Duration) : Duration :=
  match h with
  | upTo instant => clock.later instant
  | unbounded => clock

end Horizon

namespace Queue

variable {β : Type u}

/-- Puts a task behind those that are due no later. -/
def insertTask (t : Task β) : List (Task β) → List (Task β)
  | [] => [t]
  | u :: us => if t.due < u.due then t :: u :: us else u :: insertTask t us

/-- Adds a task for an instant. -/
def add (q : Queue β) (due : Duration) (body : β) : Queue β :=
  ⟨insertTask ⟨due, q.scheduled, body⟩ q.waiting, q.scheduled + 1⟩

/-- Counts a task that was handed over but whose instant does not exist. -/
def skip (q : Queue β) : Queue β := { q with scheduled := q.scheduled + 1 }

/-- The next task, if it is within the horizon, and the queue without it. -/
def next? (q : Queue β) (h : Horizon) : Option (Task β × Queue β) :=
  match q.waiting with
  | [] => none
  | t :: ts => if h.admits t.due then some (t, { q with waiting := ts }) else none

/-! ## What is in a queue -/

theorem mem_insertTask {t u : Task β} {us : List (Task β)} :
    u ∈ insertTask t us ↔ u = t ∨ u ∈ us := by
  induction us with
  | nil => simp [insertTask]
  | cons v vs ih =>
    unfold insertTask
    split
    · simp
    · simp only [List.mem_cons, ih]
      exact or_left_comm

theorem length_insertTask (t : Task β) (us : List (Task β)) :
    (insertTask t us).length = us.length + 1 := by
  induction us with
  | nil => rfl
  | cons v vs ih =>
    unfold insertTask
    split
    · rfl
    · simp [ih]

@[simp] theorem length_add (q : Queue β) (due : Duration) (body : β) :
    (q.add due body).waiting.length = q.waiting.length + 1 :=
  length_insertTask _ _

@[simp] theorem scheduled_add (q : Queue β) (due : Duration) (body : β) :
    (q.add due body).scheduled = q.scheduled + 1 :=
  rfl

end Queue

end Eventual
