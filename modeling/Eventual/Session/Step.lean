import Eventual.Data.Item
import Eventual.Session.Mapping

/-!
# Steps of a session

A session is a list of steps on promises that have names.  Some steps make a promise; wherever a
step needs one it can name it or make it on the spot.  The callbacks that a step registers are lists
of steps again, so steps, callbacks and the promises they need are defined together.
-/

namespace Eventual.Session

/-- A value in a step: a given one, or the one that the callback around the step received. -/
inductive Argument where
  | given (d : Datum)
  | received

/-- What is passed on from one promise to another. -/
inductive Passing where
  | either
  | value
  | failure
deriving DecidableEq

mutual

/-- Where a promise comes from. -/
inductive Source where
  | named (name : String)
  | made (m : Making)
  /-- There is no step of this name that makes a promise. -/
  | unknown (name : String)

/-- A step that makes a promise, and the name that the promise gets. -/
inductive Making where
  | mk (as? : Option String) (recipe : Recipe)

/-- How a promise is made. -/
inductive Recipe where
  | promise (kind : Kind) (segment? : Option Segment)
  | ofValue (value : Argument)
  | ofError (error : Failure)
  | fulfillAfter (value : Argument) (delay : Duration)
  | failAfter (error : Failure) (delay : Duration)
  | select (inputs : List Source)
  | join (inputs : List Source)
  | joinPair (first second : Source)
  /-- It ends as another does, unless a time limit passes. -/
  | withTimeout (input : Source) (limit : Duration)
  /-- It measures the time to the settlement of another. -/
  | elapsed (input : Source)
  /-- It ends as the first attempt that succeeds.  The attempts wait for the given promises in
  order, the last one again and again, and each is noted under the tag. -/
  | keepTrying (attempts : List Source) (interval : Duration) (tag? : Option String)
      (onError : Callback)
  /-- After a delay a callback runs, and gives what the mapping makes of no value. -/
  | defer (delay : Duration) (callback : Callback) (f : Mapping)
  /-- On the next turn a callback runs, and gives a promise. -/
  | deferLazily (callback : Callback) (result : Source)
  /-- It is fulfilled by a callback: with a value at once, or when the callback is called, for which
  it may be kept under a name.  It fails if there is an error. -/
  | fromCallback (now? : Option Datum) (keep? : Option String) (error? : Option Failure)
  /-- A callback runs on the value of another, and the mapping gives the value. -/
  | andThen (source : Source) (callback : Callback) (f : Mapping)
  /-- A callback runs on the value of another, and gives a promise. -/
  | andThenLazily (source : Source) (callback : Callback) (result : Source)
  /-- A callback runs on the two values of a pair, and the mapping makes the value of the list of
  them in reverse. -/
  | andThenApply (source : Source) (callback : Callback) (f : Mapping)
  /-- One is added `n` times in a row. -/
  | chain (source : Source) (n : Nat)

/-- What runs in reaction to something: a note under the tag, if there is one, and then steps. -/
inductive Callback where
  | mk (tag? : Option String) (acts : List Step)

/-- Where the cause of a failure comes from. -/
inductive Cause where
  | traceOf (p : Source)
  /-- It is the trace that the callback around the step received. -/
  | received

/-- One step. -/
inductive Step where
  | make (m : Making)
  | fulfill (p : Source) (value : Argument)
  | fail (p : Source) (error : Failure)
  /-- Fails a promise because of an earlier failure. -/
  | failBecause (p : Source) (error : Failure) (cause : Cause)
  /-- Registers callbacks for the value and for the failure of a promise, as far as given. -/
  | observe (p : Source) (onValue onError : Option Callback)
  | forward (what : Passing) (source target : Source)
  /-- Calls a kept callback, which is then gone. -/
  | call (name : String) (value : Argument)
  | schedule (delay : Duration) (callback : Callback)
  | peek (p : Source)
  | state (p : Source)
  | trace (p : Source)
  /-- Reads the stack that a promise was made under. -/
  | segment (p : Source)
  | debug (p : Source)
  /-- Reads the diagnostic text of the trace of a promise. -/
  | debugTrace (p : Source)
  | debugRuntime
  /-- Asks whether a promise belongs to the runtime of the session. -/
  | sameRuntime (p : Source)
  | drop (name : String)
  | now
  | pending
  | drive (d : Drive)
  | sleep (span : Duration)
  /-- There is no step of this name. -/
  | unknown (name : String)

end

instance : Inhabited Source := ⟨.named ""⟩

instance : Inhabited Recipe := ⟨.promise .value none⟩

instance : Inhabited Making := ⟨.mk none default⟩

instance : Inhabited Callback := ⟨.mk none []⟩

instance : Inhabited Cause := ⟨.received⟩

instance : Inhabited Step := ⟨.now⟩

end Eventual.Session
