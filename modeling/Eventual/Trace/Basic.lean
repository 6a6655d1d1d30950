import Eventual.Stack.Segment

/-!
# Traces of failures

A failure passes from promise to promise.  Its trace is the chain of the promises it went through:
one link for each, with the error it failed with and the stack it was created under.  The chain is
never empty; it is kept as the newest link and the list of the earlier ones, newest first, so that
the trace of a failure's cause is the tail of the trace of the failure.
-/

namespace Eventual

/-- One promise that a failure went through. -/
structure Link (E : Type) where
  /-- The error the promise failed with. -/
  error : E
  /-- The stack the promise was created under, if one was kept. -/
  segment? : Option Segment
deriving DecidableEq

/-- A chain of failures, each the cause of the next. -/
structure Trace (E : Type) where
  /-- The newest link. -/
  head : Link E
  /-- The earlier links, newest first. -/
  earlier : List (Link E)
deriving DecidableEq

namespace Trace

variable {E : Type}

/-- The trace of a promise that fails with `error` because of `cause?`. -/
def ofFailure (error : E) (segment? : Option Segment) : Option (Trace E) → Trace E
  | none => ⟨⟨error, segment?⟩, []⟩
  | some cause => ⟨⟨error, segment?⟩, cause.head :: cause.earlier⟩

/-- The chain of the given links, the first failure first, if there is one. -/
def ofLinks? (links : List (Link E)) : Option (Trace E) :=
  match links.reverse with
  | [] => none
  | l :: ls => some ⟨l, ls⟩

/-- The error that the newest link reports. -/
def error (t : Trace E) : E := t.head.error

/-- The trace of the cause, unless this is the first failure. -/
def parent? (t : Trace E) : Option (Trace E) :=
  match t.earlier with
  | [] => none
  | l :: ls => some ⟨l, ls⟩

/-- The number of links. -/
def depth (t : Trace E) : Nat := t.earlier.length + 1

/-- The links from the first failure to the newest. -/
def links (t : Trace E) : List (Link E) := (t.head :: t.earlier).reverse

/-- The segments of the links that have one, oldest first. -/
def segments (t : Trace E) : List Segment := t.links.filterMap Link.segment?

/-! ## The parts of a trace built from a failure -/

@[simp] theorem error_ofFailure (e : E) (s : Option Segment) (c : Option (Trace E)) :
    (ofFailure e s c).error = e := by
  cases c <;> rfl

@[simp] theorem segment?_head_ofFailure (e : E) (s : Option Segment) (c : Option (Trace E)) :
    (ofFailure e s c).head.segment? = s := by
  cases c <;> rfl

@[simp] theorem parent?_ofFailure (e : E) (s : Option Segment) (c : Option (Trace E)) :
    (ofFailure e s c).parent? = c := by
  cases c <;> rfl

@[simp] theorem ofLinks?_links (t : Trace E) : ofLinks? t.links = some t := by
  simp [ofLinks?, links]

@[simp] theorem length_links (t : Trace E) : t.links.length = t.depth := by
  simp [links, depth]

end Trace

end Eventual
