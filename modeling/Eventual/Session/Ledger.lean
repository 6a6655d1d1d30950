import Eventual.Combinator.Basic
import Eventual.Data.Item

/-!
# What a session remembers and notes

A session remembers which promise and which kept callback goes by which name, and it notes what its
callbacks see and what its steps answer.
-/

namespace Eventual.Session

/-! ## Names -/

/-- Things by their names, in the order of the names, each name once. -/
structure Names (α : Type) where
  entries : List (String × α) := []

namespace Names

variable {α : Type}

/-- Gives a name to something, where it replaces what had the name before. -/
def insertEntry (name : String) (a : α) : List (String × α) → List (String × α)
  | [] => [(name, a)]
  | (n, b) :: rest =>
    if name < n then (name, a) :: (n, b) :: rest
    else if name = n then (name, a) :: rest
    else (n, b) :: insertEntry name a rest

/-- Gives a name to something. -/
def insert (t : Names α) (name : String) (a : α) : Names α := ⟨insertEntry name a t.entries⟩

/-- What a name stands for. -/
def find? (t : Names α) (name : String) : Option α := t.entries.lookup name

/-- Forgets a name. -/
def erase (t : Names α) (name : String) : Names α := ⟨t.entries.filter fun e => e.1 ≠ name⟩

end Names

/-! ## Ledgers -/

/-- A promise of a session. -/
structure Handle where
  kind : Kind
  id : PromiseId

/-- What a session remembers. -/
structure Ledger where
  promises : Names Handle := {}
  kept : Names Script.Callback := {}

/-! ## Answers -/

/-- Why a step is refused. -/
inductive Refusal where
  | noSuchPromise (name : String)
  /-- A promise is of another kind than the step needs. -/
  | typeMismatch
  | unknownStep (name : String)
  /-- The promise that should be the cause has not failed. -/
  | causeNotFailed
deriving DecidableEq

namespace Refusal

/-- The refusal in words. -/
def message : Refusal → String
  | noSuchPromise name => "no such promise: " ++ name
  | typeMismatch => "type mismatch"
  | unknownStep name => "unknown step " ++ name
  | causeNotFailed => "cause has not failed"

end Refusal

/-- The answer of a step. -/
inductive Reply where
  | nothing
  | flag (b : Bool)
  | count (n : Nat)
  | instant (d : Duration)
  | text (s : String)
  /-- The outcome of a promise, missing while it is not settled. -/
  | outcome (result? : Option (Except Failure Datum))
  | state (s : State)
  | trace (t? : Option (Trace Failure))
  | segment (s? : Option Segment)
  | refused (r : Refusal)

/-! ## Notes -/

/-- What a callback sees. -/
inductive Seen where
  | value (d : Datum)
  | failure (t : Trace Failure)
  | operands (a b : Datum)
  | turn
  /-- The number of an attempt, counted from one. -/
  | attempt (n : Nat)

/-- What a session notes. -/
inductive Note where
  /-- The callback of this tag ran at this instant. -/
  | called (tag : String) (at_ : Duration) (seen : Seen)
  | act (r : Reply)
  | answered (r : Reply)

/-- The payload of sessions. -/
abbrev Play : Payload := payload Note Ledger

/-- The outcome of a promise as an answer. -/
def Reply.ofView (v : View Item Failure) : Reply :=
  .outcome (v.result?.map fun
    | .ok item => .ok item.datum
    | .error e => .error e)

end Eventual.Session
