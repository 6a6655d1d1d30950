import Eventual.Text.Blank
import Eventual.Text.Unassigned

/-!
# Quoted text

Diagnostic output shows a text between double quotes, so that its ends and the characters that
would not be seen are visible.  A quote and a backslash are preceded by a backslash, the common
control characters have a letter of their own, and every other character that leaves no mark (a
control or format character, a blank other than the space, one that joins onto the character before,
a filler, one not assigned) is written by its code point.
-/

namespace Eventual.Text

/-- A digit of the hexadecimal system, in lower case. -/
def hexDigit (n : Nat) : Char :=
  if n < 10 then Char.ofNat (48 + n) else Char.ofNat (87 + n)

/-- The hexadecimal digits of a number, at most `width` of them and none in front that is zero
unless the number is. -/
def hexChars : Nat → Nat → List Char
  | 0, _ => []
  | width + 1, n => if n < 16 then [hexDigit n] else hexChars width (n / 16) ++ [hexDigit (n % 16)]

/-- Whether a character leaves no mark of its own: a control character, a blank that is not the
space, or one that `isUnseen`. -/
def isUnmarked (c : Char) : Bool :=
  c.toNat < 0x20 || (0x7F ≤ c.toNat && c.toNat < 0xA0) || (isBlank c && c != ' ') || isUnseen c

/-- How one character is written between the quotes. -/
def quoteChar (c : Char) : List Char :=
  if c = '"' then ['\\', '"']
  else if c = '\\' then ['\\', '\\']
  else if c = '\n' then ['\\', 'n']
  else if c = '\t' then ['\\', 't']
  else if c = '\r' then ['\\', 'r']
  else if c.toNat = 0 then ['\\', '0']
  else if isUnmarked c then ['\\', 'u', '\x7b'] ++ hexChars 6 c.toNat ++ ['\x7d']
  else [c]

/-- A text between double quotes. -/
def quoted (s : String) : String :=
  String.ofList ('"' :: s.toList.flatMap quoteChar ++ ['"'])

/-! ## Records and lists in diagnostic output -/

/-- A record as its name followed by its fields between braces, `Name { a: x, b: y }`. -/
def record (name : String) (fields : List (String × String)) : String :=
  name ++ " \x7b " ++ ", ".intercalate (fields.map fun f => f.1 ++ ": " ++ f.2) ++ " \x7d"

/-- A list between brackets, `[x, y]`. -/
def bracketed (items : List String) : String :=
  "[" ++ ", ".intercalate items ++ "]"

/-- A truth value as a word. -/
def truth (b : Bool) : String :=
  if b then "true" else "false"

end Eventual.Text
