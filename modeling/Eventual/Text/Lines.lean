/-!
# Lines of a text

A text is cut into lines at its line feeds.  A line feed at the very end starts no further line, and
a carriage return in front of a line feed belongs to the line end.
-/

namespace Eventual.Text

/-- The pieces of a list of characters between its line feeds; `line` holds the characters of the
present piece, the last one first. -/
def cutLines (line : List Char) : List Char → List (List Char)
  | [] => if line.isEmpty then [] else [line.reverse]
  | c :: cs =>
    if c = '\n' then
      (match line with
        | '\r' :: rest => rest.reverse
        | _ => line.reverse) :: cutLines [] cs
    else cutLines (c :: line) cs

/-- The lines of a text. -/
def lines (s : String) : List String := (cutLines [] s.toList).map String.ofList

/-- How often `needle` occurs in a list of characters, counted from the front and without overlaps;
the next `skip` characters belong to an occurrence already counted. -/
def occurrences (needle : List Char) : Nat → List Char → Nat
  | _, [] => 0
  | skip + 1, _ :: cs => occurrences needle skip cs
  | 0, c :: cs =>
    if needle.isPrefixOf (c :: cs) then occurrences needle (needle.length - 1) cs + 1
    else occurrences needle 0 cs

end Eventual.Text
