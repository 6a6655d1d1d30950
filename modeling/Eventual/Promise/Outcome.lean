import Eventual.Trace.Basic

/-!
# Outcomes of promises

A promise is settled at most once, with a value or with an error.  A settlement is what the promise
keeps; an outcome is what those who wait for it receive, with the trace of the failure in place of
the error and its cause.  A view is what can be read of a promise at any moment.
-/

namespace Eventual

/-- The name of a promise in the world it was made in. -/
structure PromiseId where
  /-- The number of promises made before it. -/
  index : Nat
deriving DecidableEq

/-- How a promise ended. -/
inductive Settlement (V E : Type) where
  /-- With a value. -/
  | fulfilled (value : V)
  /-- With an error, because of an earlier failure or on its own. -/
  | failed (error : E) (cause? : Option (Trace E))

/-- What is delivered to those who wait for a promise. -/
inductive Outcome (V E : Type) where
  /-- The value. -/
  | succeeded (value : V)
  /-- The trace of the failure; its newest link has the error. -/
  | failed (trace : Trace E)

/-- A promise without its payload. -/
inductive State where
  /-- Not settled yet. -/
  | unresolved
  /-- Settled with a value. -/
  | succeeded
  /-- Settled with an error. -/
  | failed
deriving DecidableEq

namespace State

/-- The state as a word. -/
def text : State → String
  | unresolved => "Unresolved"
  | succeeded => "Succeeded"
  | failed => "Failed"

end State

namespace Settlement

variable {V E : Type}

/-- What is delivered for a settlement of a promise created under the given stack. -/
def outcome (segment? : Option Segment) : Settlement V E → Outcome V E
  | fulfilled value => .succeeded value
  | failed error cause? => .failed (Trace.ofFailure error segment? cause?)

/-- The state of a promise settled this way. -/
def state : Settlement V E → State
  | fulfilled _ => .succeeded
  | failed _ _ => .failed

end Settlement

/-- What can be read of a promise. -/
structure View (V E : Type) where
  /-- The stack it was created under, if one was kept. -/
  segment? : Option Segment
  /-- How it ended, if it has. -/
  settlement? : Option (Settlement V E)

namespace View

variable {V E : Type}

/-- The state of the promise. -/
def state (v : View V E) : State :=
  match v.settlement? with
  | none => .unresolved
  | some s => s.state

/-- Whether the promise is settled. -/
def isSettled (v : View V E) : Bool := v.state ≠ .unresolved

/-- Whether the promise has failed. -/
def hasFailed (v : View V E) : Bool := v.state = .failed

/-- The value or the error of the promise, once it is settled. -/
def result? (v : View V E) : Option (Except E V) :=
  match v.settlement? with
  | none => none
  | some (.fulfilled value) => some (.ok value)
  | some (.failed error _) => some (.error error)

/-- The trace that one who waits for the promise receives if it has failed. -/
def trace? (v : View V E) : Option (Trace E) :=
  match v.settlement? with
  | some (.failed error cause?) => some (Trace.ofFailure error v.segment? cause?)
  | _ => none

/-- The promise in diagnostic output. -/
def debugText (v : View V E) : String :=
  let segment := match v.segment? with
    | none => "None"
    | some s => "Some(" ++ s.id.debugText ++ ")"
  "Promise \x7b state: " ++ v.state.text ++ ", segment: " ++ segment ++ " \x7d"

end View

end Eventual
