import Eventual.Event
import Eventual.Promise.Outcome

/-!
# Scripts

A script is a program that works with promises: a tree of operations, each with what follows for
every answer.  Callbacks are scripts as well, and the operations that register one carry it, so
operations, observers and scripts are defined together.  A script is data and does nothing by
itself; a machine runs it on a world.

Two things are not operations but forms of a script, since they run other scripts before the script
goes on: driving the clock, and making an attempt of a retry loop.
-/

namespace Eventual

/-- The types that a program brings along, and what the combinators need to know of them. -/
structure Payload where
  /-- What promises are fulfilled with. -/
  Value : Type
  /-- What promises fail with. -/
  Error : Type
  /-- What a program writes into the journal. -/
  Note : Type
  /-- What a program remembers between its steps. -/
  Store : Type
  /-- The value made of several. -/
  list : List Value → Value
  /-- The value made of two. -/
  pair : Value → Value → Value
  /-- The value for a span of time. -/
  span : Duration → Value
  /-- The error for a time limit that passed. -/
  timeout : Duration → Error

/-- The name of a gathering in the world it was made in. -/
structure GatheringId where
  /-- The number of gatherings made before it. -/
  index : Nat
deriving DecidableEq

/-- The name of a pairing in the world it was made in. -/
structure PairingId where
  /-- The number of pairings made before it. -/
  index : Nat
deriving DecidableEq

/-- The name of a retry loop in the world it was made in. -/
structure RetryId where
  /-- The number of retry loops made before it. -/
  index : Nat
deriving DecidableEq

/-- A place in a pair. -/
inductive Side where
  /-- The left one. -/
  | first
  /-- The right one. -/
  | second
deriving DecidableEq

/-- How far the clock is driven. -/
inductive Drive where
  /-- To the present instant: the tasks that are due run, and those they add for this instant. -/
  | idle
  /-- Forward by a span. -/
  | advance (span : Duration)
  /-- Until no task waits. -/
  | all

mutual

/-- The callbacks that wait for a promise: for its value, for its failure, for either or for
neither. -/
inductive Observer (P : Payload) : Type 1
  /-- Waits for nothing. -/
  | silent
  /-- Waits for the value. -/
  | onSuccess (f : P.Value → Script P Unit)
  /-- Waits for the failure. -/
  | onFailure (g : Trace P.Error → Script P Unit)
  /-- Waits for both, and receives the one that occurs. -/
  | onEither (f : P.Value → Script P Unit) (g : Trace P.Error → Script P Unit)

/-- The operations on a world, by the type of their answers. -/
inductive Op (P : Payload) : Type → Type 1
  /-- Makes a promise, with the stack it is made under if stacks are captured. -/
  | create : Op P PromiseId
  /-- Makes a promise with a given stack. -/
  | createUnder (segment : Segment) : Op P PromiseId
  /-- Settles a promise unless it is settled; whether it was not. -/
  | settle (p : PromiseId) (s : Settlement P.Value P.Error) : Op P Bool
  /-- Registers an observer; if the promise is settled, its callback is scheduled. -/
  | observe (p : PromiseId) (o : Observer P) : Op P Unit
  /-- Reads a promise. -/
  | view (p : PromiseId) : Op P (View P.Value P.Error)
  /-- Hands a task to the scheduler, to run after `delay`. -/
  | schedule (delay : Duration) (body : Script P Unit) : Op P Unit
  /-- Reads the clock. -/
  | now : Op P Duration
  /-- Counts the tasks that wait. -/
  | pending : Op P Nat
  /-- Reads the settings. -/
  | settings : Op P Settings
  /-- Makes a gathering of `n` values. -/
  | openGathering (n : Nat) : Op P GatheringId
  /-- Puts a value into place `i`; all values once every place is taken. -/
  | gather (g : GatheringId) (i : Nat) (v : P.Value) : Op P (Option (List P.Value))
  /-- Makes a pairing. -/
  | openPairing : Op P PairingId
  /-- Puts a value on one side; both values once both are there. -/
  | couple (g : PairingId) (side : Side) (v : P.Value) : Op P (Option (P.Value × P.Value))
  /-- Makes a retry loop that fulfills `result` with the value of the first attempt that succeeds.
  Attempt number `k`, counted from zero, waits for the promise that `thunk k` gives. -/
  | openRetry (result : PromiseId) (interval : Duration) (thunk : Nat → Script P PromiseId)
      (onError : Trace P.Error → Script P Unit) : Op P RetryId
  /-- Counts an attempt of a retry loop. -/
  | countAttempt (r : RetryId) : Op P Unit
  /-- Reports an event. -/
  | emit (e : Event) : Op P Unit
  /-- Writes into the journal. -/
  | note (n : P.Note) : Op P Unit
  /-- Reads what the program remembers. -/
  | load : Op P P.Store
  /-- Replaces what the program remembers. -/
  | save (s : P.Store) : Op P Unit

/-- A program that gives an answer of type `α`. -/
inductive Script (P : Payload) : Type → Type 1
  /-- Does nothing. -/
  | pure {α : Type} (a : α) : Script P α
  /-- Carries out one operation and goes on with its answer. -/
  | op {ρ α : Type} (o : Op P ρ) (k : ρ → Script P α) : Script P α
  /-- Drives the clock and goes on with the number of tasks that ran. -/
  | drive {α : Type} (d : Drive) (k : Nat → Script P α) : Script P α
  /-- Makes the next attempt of a retry loop and goes on. -/
  | attempt {α : Type} (r : RetryId) (k : Script P α) : Script P α

end

namespace Observer

variable {P : Payload}

/-- The callback for an outcome, if the observer waits for it. -/
def handler? : Observer P → Outcome P.Value P.Error → Option (Script P Unit)
  | onSuccess f, .succeeded v => some (f v)
  | onEither f _, .succeeded v => some (f v)
  | onFailure g, .failed t => some (g t)
  | onEither _ g, .failed t => some (g t)
  | _, _ => none

/-- Whether the observer waits for an outcome. -/
def awaits (ob : Observer P) (o : Outcome P.Value P.Error) : Bool := (ob.handler? o).isSome

/-- Whether the observer waits for the value. -/
def awaitsSuccess : Observer P → Bool
  | onSuccess _ | onEither _ _ => true
  | _ => false

/-- Whether the observer waits for the failure. -/
def awaitsFailure : Observer P → Bool
  | onFailure _ | onEither _ _ => true
  | _ => false

/-- The observer of the callbacks that are given. -/
def ofCallbacks : Option (P.Value → Script P Unit) → Option (Trace P.Error → Script P Unit) →
    Observer P
  | none, none => silent
  | some f, none => onSuccess f
  | none, some g => onFailure g
  | some f, some g => onEither f g

/-- The observer in diagnostic output. -/
def debugText (o : Observer P) : String :=
  Text.record "Observer" [("on_success", Text.truth o.awaitsSuccess),
    ("on_failure", Text.truth o.awaitsFailure)]

end Observer

namespace Script

variable {P : Payload} {α β γ : Type}

/-- Goes on with another script, chosen by the answer. -/
def bind : Script P α → (α → Script P β) → Script P β
  | pure a, f => f a
  | op o k, f => op o fun r => (k r).bind f
  | drive d k, f => drive d fun n => (k n).bind f
  | attempt r k, f => attempt r (k.bind f)

instance : Monad (Script P) where
  pure := pure
  bind := bind

/-! ## Laws of sequencing -/

@[simp] theorem pure_bind (a : α) (f : α → Script P β) : (pure a).bind f = f a := rfl

theorem bind_pure : (s : Script P α) → s.bind pure = s
  | pure _ => rfl
  | op o k => by simp only [bind, fun r => bind_pure (k r)]
  | drive d k => by simp only [bind, fun n => bind_pure (k n)]
  | attempt r k => by simp only [bind, bind_pure k]

theorem bind_assoc (f : α → Script P β) (g : β → Script P γ) :
    (s : Script P α) → (s.bind f).bind g = s.bind fun a => (f a).bind g
  | pure _ => rfl
  | op o k => by simp only [bind, fun r => bind_assoc f g (k r)]
  | drive d k => by simp only [bind, fun n => bind_assoc f g (k n)]
  | attempt r k => by simp only [bind, bind_assoc f g k]

instance : LawfulMonad (Script P) :=
  LawfulMonad.mk' (Script P) bind_pure pure_bind (fun s f g => bind_assoc f g s)

/-! ## Single operations -/

/-- The script of one operation. -/
def once {ρ : Type} (o : Op P ρ) : Script P ρ := op o pure

def create : Script P PromiseId := once .create

def createUnder (segment : Segment) : Script P PromiseId := once (.createUnder segment)

/-- Fulfills a promise unless it is settled; whether it was not. -/
def fulfill (p : PromiseId) (v : P.Value) : Script P Bool := once (.settle p (.fulfilled v))

/-- Fails a promise on its own unless it is settled; whether it was not. -/
def fail (p : PromiseId) (e : P.Error) : Script P Bool := once (.settle p (.failed e none))

/-- Fails a promise because of an earlier failure unless it is settled; whether it was not. -/
def failBecause (p : PromiseId) (e : P.Error) (cause : Trace P.Error) : Script P Bool :=
  once (.settle p (.failed e (some cause)))

def observe (p : PromiseId) (o : Observer P) : Script P Unit := once (.observe p o)

def view (p : PromiseId) : Script P (View P.Value P.Error) := once (.view p)

def schedule (delay : Duration) (body : Script P Unit) : Script P Unit :=
  once (.schedule delay body)

def now : Script P Duration := once .now

def pending : Script P Nat := once .pending

def emit (e : Event) : Script P Unit := once (.emit e)

def note (n : P.Note) : Script P Unit := once (.note n)

def load : Script P P.Store := once .load

def save (s : P.Store) : Script P Unit := once (.save s)

/-- Runs the tasks that are due; how many ran. -/
def runUntilIdle : Script P Nat := drive .idle pure

/-- Drives the clock forward; how many tasks ran. -/
def advance (span : Duration) : Script P Nat := drive (.advance span) pure

/-- Runs tasks until none waits; how many ran. -/
def runAll : Script P Nat := drive .all pure

end Script

end Eventual
