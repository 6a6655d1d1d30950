import Eventual.Combinator.Retry
import Eventual.World.Perform

/-!
# The machine that runs scripts

A machine is a world together with a stack of activities, the innermost first.  An activity is a
script, or a delivery that runs callbacks one after the other, or a drive that runs the tasks of the
queue one after the other, each on top of it.  Since a task may drive the clock itself, drives nest,
and the stack shows how.  One total deterministic function says what happens next (`Machine.step`);
a run is its iteration.
-/

namespace Eventual

/-- Something under way. -/
inductive Activity (P : Payload) : Type 1
  /-- The rest of a script. -/
  | script (s : Script P Unit)
  /-- The callbacks that a delivery has yet to run. -/
  | delivery (p : PromiseId) (o : Outcome P.Value P.Error) (rest : List (Registration P))
  /-- A drive up to a horizon that has run `ran` tasks; when it is over, a script goes on with their
  number. -/
  | drive (horizon : Horizon) (ran : Nat) (k : Nat → Script P Unit)

/-- A task as it starts. -/
def Activity.ofWork {P : Payload} : Work P → Activity P
  | .script body => .script body
  | .delivery p o observers => .delivery p o observers

/-- A world and what is under way in it, the innermost activity first. -/
structure Machine (P : Payload) : Type 1 where
  /-- The world. -/
  world : World P
  /-- The activities. -/
  stack : List (Activity P)

/-- What can happen next. -/
inductive Transition (P : Payload) : Type 1
  /-- The machine goes on. -/
  | next (m : Machine P)
  /-- Nothing is under way. -/
  | halted (w : World P)
  /-- An instant beyond the longest span was needed, and everything under way stopped. -/
  | overflow (w : World P)

/-- The horizon of a drive that starts at an instant, if the instant it goes to exists. -/
def Drive.horizon? (clock : Duration) : Drive → Option Horizon
  | .idle => some (.upTo clock)
  | .advance span => (clock.add? span).map .upTo
  | .all => some .unbounded

namespace World

variable {P : Payload}

/-- Takes the next task within a horizon out of the queue and sets the clock to its instant, unless
the clock is there already. -/
def startTask? (w : World P) (h : Horizon) : Option (Work P × World P) :=
  match w.queue.next? h with
  | some (task, queue) => some (task.body, { w with queue, clock := w.clock.later task.due })
  | none => none

/-- Sets the clock to the end of a drive. -/
def finishDrive (w : World P) (h : Horizon) : World P :=
  { w with clock := h.reached w.clock }

/-- The next attempt of a retry loop. -/
def nextAttempt (w : World P) (r : RetryId) : Script P Unit :=
  match w.retries[r.index]? with
  | some t => t.nextAttempt r
  | none => .pure ()

end World

namespace Machine

variable {P : Payload}

/-- A machine about to run a script. -/
def load (w : World P) (s : Script P Unit) : Machine P := ⟨w, [.script s]⟩

/-- What happens next: the innermost activity makes one step. -/
def step : Machine P → Transition P
  | ⟨w, []⟩ => .halted w
  | ⟨w, .script (.pure ()) :: rest⟩ => .next ⟨w, rest⟩
  | ⟨w, .script (.op o k) :: rest⟩ =>
    match w.perform o with
    | .answer r w => .next ⟨w, .script (k r) :: rest⟩
    | .overflow w => .overflow w
  | ⟨w, .script (.drive d k) :: rest⟩ =>
    match d.horizon? w.clock with
    | some h => .next ⟨w, .drive h 0 k :: rest⟩
    | none => .overflow w
  | ⟨w, .script (.attempt r k) :: rest⟩ => .next ⟨w, .script (w.nextAttempt r) :: .script k :: rest⟩
  | ⟨w, .delivery _ _ [] :: rest⟩ => .next ⟨w, rest⟩
  | ⟨w, .delivery p o (r :: rs) :: rest⟩ =>
    match r.observer.handler? o with
    | some body => .next ⟨w, .script body :: .delivery p o rs :: rest⟩
    | none => .next ⟨w, .delivery p o rs :: rest⟩
  | ⟨w, .drive h ran k :: rest⟩ =>
    match w.startTask? h with
    | some (work, w) => .next ⟨w, .ofWork work :: .drive h (ran + 1) k :: rest⟩
    | none => .next ⟨w.finishDrive h, .script (k ran) :: rest⟩

/-- How a run ended. -/
inductive Ending (P : Payload) : Type 1
  /-- Everything that was under way is done. -/
  | halted (w : World P)
  /-- It stopped for want of an instant. -/
  | overflow (w : World P)
  /-- It was not over after the given number of steps. -/
  | unfinished (m : Machine P)

namespace Ending

/-- The world at the end. -/
def world : Ending P → World P
  | halted w => w
  | overflow w => w
  | unfinished m => m.world

end Ending

/-- Runs a machine for at most `fuel` steps. -/
def run (m : Machine P) : Nat → Ending P
  | 0 => .unfinished m
  | fuel + 1 =>
    match m.step with
    | .next m => m.run fuel
    | .halted w => .halted w
    | .overflow w => .overflow w

/-- The number of steps after which a run is given up. -/
def patience : Nat := 1000000000000000

/-- Runs a machine until it stops or patience is lost. -/
def runOut (m : Machine P) : Ending P := m.run patience

end Machine

end Eventual
