import Eventual.Text.Blank

/-!
# Eliding what two stacks have in common

Two stacks listed one above the other often end alike.  Of the lines that the lower one shares with
the end of the upper one only the first is kept, as an anchor, and one line indented like it stands
for the others.  Empty lines at the ends of a stack are removed beforehand.
-/

namespace Eventual.Elision

/-- Lines without the empty ones at both ends. -/
def stripEmpty (lines : List String) : List String :=
  ((lines.dropWhile String.isEmpty).reverse.dropWhile String.isEmpty).reverse

/-- Adds a line indented like the last one. -/
def appendIndented (lines : List String) (message : String) : List String :=
  lines ++ [(lines.getLast?.map Text.indent).getD "" ++ message]

/-- How many lines, counted from the end, two stacks have in common. -/
def sharedLength (upper current : List String) : Nat :=
  ((upper.reverse.zip current.reverse).takeWhile fun p => p.1 == p.2).length

/-- The lines of `current`, those after the first one it shares with the end of `upper` replaced by
one line. -/
def elide (upper current : List String) (replacement : String) : List String :=
  let shared := sharedLength upper current
  if shared = 0 then current
  else appendIndented (current.take (current.length - shared + 1)) replacement

end Eventual.Elision
