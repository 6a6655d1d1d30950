import Eventual.Text.Marks

/-!
# Blank characters

Indentation and trimming both rest on one class of characters: those with the Unicode property
White_Space.  The class has twenty-five members in ten ranges and is given here as a table; it is
wider than `Char.isWhitespace`, which knows only four of them.
-/

namespace Eventual.Text

/-- The ranges of code points, first and last included, of the characters with the property
White_Space. -/
def blankRanges : List (Nat × Nat) :=
  [(0x09, 0x0D), (0x20, 0x20), (0x85, 0x85), (0xA0, 0xA0), (0x1680, 0x1680), (0x2000, 0x200A),
    (0x2028, 0x2029), (0x202F, 0x202F), (0x205F, 0x205F), (0x3000, 0x3000)]

/-- A character is blank when its code point lies in one of the `blankRanges`. -/
def isBlank (c : Char) : Bool :=
  inRanges blankRanges c.toNat

/-- The blanks a text starts with. -/
def indent (s : String) : String :=
  String.ofList (s.toList.takeWhile isBlank)

/-- The characters left once the blanks at both ends are removed. -/
def trimChars (cs : List Char) : List Char :=
  ((cs.dropWhile isBlank).reverse.dropWhile isBlank).reverse

end Eventual.Text
