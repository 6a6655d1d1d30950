import Eventual.Queue
import Eventual.Script.Basic
import Eventual.World.Buffer

/-!
# Worlds

A world holds everything that operations read and change: the clock and the tasks that wait for it,
the promises, the buffers of joins and the retry loops made so far, and the journal.  Promises and
the like are never forgotten; each is named by the number of those made before it.
-/

namespace Eventual

/-- An observer of a promise. -/
structure Registration (P : Payload) : Type 1 where
  /-- The number of observers registered on the promise before it. -/
  number : Nat
  /-- The observer. -/
  observer : Observer P

/-- What a promise holds. -/
inductive Slot (P : Payload) : Type 1
  /-- Before the settlement: those who wait, in the order of their registration. -/
  | unresolved (waiting : List (Registration P))
  /-- Afterwards: the settlement, which never changes. -/
  | settled (s : Settlement P.Value P.Error)

/-- A promise. -/
structure Promise (P : Payload) : Type 1 where
  /-- The stack it was created under, if one was kept. -/
  segment? : Option Segment
  /-- The number of observers registered so far. -/
  observed : Nat
  /-- Who waits for it, or how it ended. -/
  slot : Slot P

/-- What a task does. -/
inductive Work (P : Payload) : Type 1
  /-- Runs a script. -/
  | script (body : Script P Unit)
  /-- Runs the callbacks of observers of a promise for its outcome, one after the other. -/
  | delivery (p : PromiseId) (o : Outcome P.Value P.Error) (observers : List (Registration P))

/-- A retry loop. -/
structure Retry (P : Payload) : Type 1 where
  /-- The promise that the loop is to fulfill. -/
  result : PromiseId
  /-- The time between a failure and the next attempt. -/
  interval : Duration
  /-- Gives the promise that an attempt waits for; attempts are counted from zero. -/
  thunk : Nat → Script P PromiseId
  /-- Told of every failed attempt. -/
  onError : Trace P.Error → Script P Unit
  /-- The number of attempts made so far. -/
  attempts : Nat

/-- A line of the journal. -/
inductive Entry (N : Type) where
  /-- An event that was reported. -/
  | event (e : Event)
  /-- What a program wrote. -/
  | note (n : N)

/-- Everything that operations read and change. -/
structure World (P : Payload) : Type 1 where
  /-- The settings, which never change. -/
  settings : Settings
  /-- The frames that the `n`-th walk of the call stack meets; a world does not know the stack it
  runs on, so these are given from outside. -/
  walks : Nat → List Frame
  /-- What the symbols of frames start with that belong to the capture of stacks. -/
  internal : List String
  /-- The present instant. -/
  clock : Duration
  /-- The tasks that wait. -/
  queue : Queue (Work P)
  /-- The promises, by their names. -/
  promises : Array (Promise P)
  /-- The gatherings, by their names. -/
  gatherings : Array (Gathering P.Value)
  /-- The pairings, by their names. -/
  pairings : Array (Pairing P.Value)
  /-- The retry loops, by their names. -/
  retries : Array (Retry P)
  /-- The number of walks of the call stack made so far. -/
  captures : Nat
  /-- What was reported and written, in order. -/
  journal : Array (Entry P.Note)
  /-- What the program remembers between its steps. -/
  store : P.Store

namespace Promise

variable {P : Payload}

/-- What can be read of a promise. -/
def view (p : Promise P) : View P.Value P.Error :=
  match p.slot with
  | .unresolved _ => ⟨p.segment?, none⟩
  | .settled s => ⟨p.segment?, some s⟩

end Promise

namespace World

variable {P : Payload}

/-- A world in which nothing has happened, except that its runtime reports to be ready. -/
def fresh (settings : Settings) (walks : Nat → List Frame) (internal : List String)
    (store : P.Store) : World P where
  settings
  walks
  internal
  clock := .zero
  queue := {}
  promises := #[]
  gatherings := #[]
  pairings := #[]
  retries := #[]
  captures := 0
  journal := #[.event (.ready settings.captureTraces)]
  store

/-- Reports an event. -/
def emit (w : World P) (e : Event) : World P :=
  { w with journal := w.journal.push (.event e) }

/-- What can be read of a promise; of one that does not exist, that it is not settled. -/
def view (w : World P) (p : PromiseId) : View P.Value P.Error :=
  match w.promises[p.index]? with
  | some promise => promise.view
  | none => ⟨none, none⟩

/-- The number of tasks that wait. -/
def pending (w : World P) : Nat := w.queue.waiting.length

/-- Replaces a promise. -/
def putPromise (w : World P) (p : PromiseId) (promise : Promise P) : World P :=
  { w with promises := w.promises.setIfInBounds p.index promise }

/-! ## Making promises -/

/-- The stack for a new promise, if stacks are captured.  When the walk meets no frame to keep, the
promise gets a segment without frames, and that is reported. -/
def capture (w : World P) : Option Segment × World P :=
  if w.settings.captureTraces then
    let id := SegmentId.afterCaptures w.captures
    let frames := Collector.gather w.internal w.settings.maxFrames (w.walks w.captures)
    let w := { w with captures := w.captures + 1 }
    if frames.isEmpty then (some (.unavailable id), w.emit (.captureEmpty id))
    else (some ⟨id, frames⟩, w)
  else (none, w)

/-- Makes a promise under a given stack. -/
def addPromise (w : World P) (segment? : Option Segment) : PromiseId × World P :=
  (⟨w.promises.size⟩, { w with promises := w.promises.push ⟨segment?, 0, .unresolved []⟩ })

/-! ## Settling and observing -/

/-- Schedules the callbacks of those who wait for the outcome of a promise.  They go out as one task
for the present instant, in the order of their registration; if nobody waits for this outcome
nothing is scheduled. -/
def deliver (w : World P) (p : PromiseId) (o : Outcome P.Value P.Error)
    (observers : List (Registration P)) : World P :=
  let awaiting := observers.filter (·.observer.awaits o)
  if awaiting.isEmpty then w
  else
    let w := (w.emit (.delivering awaiting.length)).emit (.scheduling .zero)
    { w with queue := w.queue.add w.clock (.delivery p o awaiting) }

/-- The event for a settlement that came too late. -/
def ignored : Settlement P.Value P.Error → Event
  | .fulfilled _ => .fulfillIgnored
  | .failed _ _ => .failureIgnored

/-- Settles a promise and delivers the outcome; a promise that is settled stays as it is.  Whether
the settlement took effect. -/
def settle (w : World P) (p : PromiseId) (s : Settlement P.Value P.Error) : Bool × World P :=
  match w.promises[p.index]? with
  | none => (false, w)
  | some ⟨_, _, .settled _⟩ => (false, w.emit (ignored s))
  | some ⟨segment?, observed, .unresolved waiting⟩ =>
    (true, (w.putPromise p ⟨segment?, observed, .settled s⟩).deliver p (s.outcome segment?) waiting)

/-- Registers an observer behind those that wait, or delivers to it alone what has happened. -/
def observe (w : World P) (p : PromiseId) (o : Observer P) : World P :=
  match w.promises[p.index]? with
  | none => w
  | some ⟨segment?, observed, .unresolved waiting⟩ =>
    w.putPromise p ⟨segment?, observed + 1, .unresolved (waiting ++ [⟨observed, o⟩])⟩
  | some ⟨segment?, observed, .settled s⟩ =>
    (w.putPromise p ⟨segment?, observed + 1, .settled s⟩).deliver p (s.outcome segment?)
      [⟨observed, o⟩]

end World

end Eventual
