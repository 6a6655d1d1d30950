import Eventual.Text.Lines
import Eventual.Text.Quoted
import Eventual.Trace.Basic
import Eventual.Trace.Elision

/-!
# Reports of failures

A report starts with the text of the newest error.  Then follow the stacks of the chain, oldest
first, each after a separator, and of each only what the stack before it does not already end with
(`Elision.elide`).  A link without a segment takes no part; a segment without a frame to show is
reported by a placeholder.
-/

namespace Eventual.Trace

variable {E : Type}

/-- The line between two stacks. -/
def separator : String := "--- triggering the failure of ---"

/-- The line that stands for elided ones. -/
def elided : String := "(... rest of trace same as previous ...)"

/-- The line that stands for a stack that could not be captured. -/
def noStack : String := "(... no stack trace available ...)"

/-- The lines to show for a segment. -/
def stackLines (s : Segment) : List String :=
  if s.isAvailable then Elision.stripEmpty s.frames else [noStack]

/-- The stacks of consecutive segments, each without what the one before it ends with; `previous` is
the full stack before the first. -/
def blocks (previous : List String) : List Segment → List (List String)
  | [] => []
  | s :: rest => Elision.elide previous (stackLines s) elided :: blocks (stackLines s) rest

/-- The report of a chain, its lines separated by line feeds; `text` gives the text of an error. -/
def render (text : E → String) (t : Trace E) : String :=
  "\n".intercalate (text t.error ::
    (blocks [] t.segments).flatMap fun b => [separator, "\n".intercalate b])

/-- The first line of a report. -/
def firstLine (text : E → String) (t : Trace E) : String :=
  (Text.lines (t.render text)).headD ""

/-- How often the separator occurs in a report. -/
def separatorCount (text : E → String) (t : Trace E) : Nat :=
  Text.occurrences separator.toList 0 (t.render text).toList

/-- A trace in diagnostic output: its error, its depth and the identifiers of its segments. -/
def debugText (errorText : E → String) (t : Trace E) : String :=
  Text.record "Trace" [("error", errorText t.error), ("depth", Nat.repr t.depth),
    ("segments", Text.bracketed (t.segments.map fun s => s.id.debugText))]

end Eventual.Trace
