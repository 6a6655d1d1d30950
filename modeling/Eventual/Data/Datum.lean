import Eventual.Text.Quoted

/-!
# Data

The plain values that promises hold: a missing value, truth values, whole numbers, texts, lists and
records.  The fields of a record are kept in the order of their names, each name
once, so that equal records are equal data.
-/

namespace Eventual

/-- A piece of data. -/
inductive Datum where
  | null
  | bool (b : Bool)
  | int (n : Int)
  | text (s : String)
  | list (items : List Datum)
  | record (fields : List (String × Datum))

namespace Datum

instance : Inhabited Datum := ⟨null⟩

/-! ## Equality -/

mutual

/-- Decides equality. -/
def decideEq : (a b : Datum) → Decidable (a = b)
  | null, null => isTrue rfl
  | bool a, bool b => decidable_of_iff (a = b) (by simp)
  | int a, int b => decidable_of_iff (a = b) (by simp)
  | text a, text b => decidable_of_iff (a = b) (by simp)
  | list a, list b =>
    haveI := decideEqItems a b
    decidable_of_iff (a = b) (by simp)
  | record a, record b =>
    haveI := decideEqFields a b
    decidable_of_iff (a = b) (by simp)
  | null, bool _ | null, int _ | null, text _ | null, list _ | null, record _
  | bool _, null | bool _, int _ | bool _, text _ | bool _, list _ | bool _, record _
  | int _, null | int _, bool _ | int _, text _ | int _, list _ | int _, record _
  | text _, null | text _, bool _ | text _, int _ | text _, list _ | text _, record _
  | list _, null | list _, bool _ | list _, int _ | list _, text _ | list _, record _
  | record _, null | record _, bool _ | record _, int _ | record _, text _ | record _, list _ =>
    isFalse (by simp)

/-- Decides equality of lists. -/
def decideEqItems : (a b : List Datum) → Decidable (a = b)
  | [], [] => isTrue rfl
  | a :: as, b :: bs =>
    haveI := decideEq a b
    haveI := decideEqItems as bs
    decidable_of_iff (a = b ∧ as = bs) (by simp)
  | [], _ :: _ | _ :: _, [] => isFalse (by simp)

/-- Decides equality of fields. -/
def decideEqFields : (a b : List (String × Datum)) → Decidable (a = b)
  | [], [] => isTrue rfl
  | (k, a) :: as, (l, b) :: bs =>
    haveI := decideEq a b
    haveI := decideEqFields as bs
    decidable_of_iff ((k = l ∧ a = b) ∧ as = bs) (by simp)
  | [], _ :: _ | _ :: _, [] => isFalse (by simp)

end

instance : DecidableEq Datum := decideEq

/-! ## Text -/

/-- How one character of a text is written: a quote, a backslash and the control characters are
escaped. -/
def escapeChar (c : Char) : List Char :=
  if c = '"' then ['\\', '"']
  else if c = '\\' then ['\\', '\\']
  else if c = '\n' then ['\\', 'n']
  else if c = '\r' then ['\\', 'r']
  else if c = '\t' then ['\\', 't']
  else if c.toNat = 8 then ['\\', 'b']
  else if c.toNat = 12 then ['\\', 'f']
  else if c.toNat < 32 then
    ['\\', 'u', '0', '0', Text.hexDigit (c.toNat / 16), Text.hexDigit (c.toNat % 16)]
  else [c]

/-- A text between quotes. -/
def escaped (s : String) : String :=
  String.ofList ('"' :: s.toList.flatMap escapeChar ++ ['"'])

mutual

/-- A piece of data as text, without blanks between its parts. -/
def compact : Datum → String
  | null => "null"
  | bool b => Text.truth b
  | int n => if n < 0 then "-" ++ Nat.repr n.natAbs else Nat.repr n.natAbs
  | text s => escaped s
  | list items => "[" ++ ",".intercalate (compactItems items) ++ "]"
  | record fields => "\x7b" ++ ",".intercalate (compactFields fields) ++ "\x7d"

/-- The texts of the items of a list. -/
def compactItems : List Datum → List String
  | [] => []
  | d :: ds => d.compact :: compactItems ds

/-- The texts of the fields of a record. -/
def compactFields : List (String × Datum) → List String
  | [] => []
  | (k, d) :: fs => (escaped k ++ ":" ++ d.compact) :: compactFields fs

end

/-! ## Reading -/

/-- A field of a record. -/
def field? (d : Datum) (name : String) : Option Datum :=
  match d with
  | record fields => fields.lookup name
  | _ => none

/-- A number that is not negative. -/
def nat? : Datum → Option Nat
  | int n => if 0 ≤ n then some n.toNat else none
  | _ => none

/-- The numbers of a list that holds nothing else. -/
def ints? : List Datum → Option (List Int)
  | [] => some []
  | int n :: ds => (ints? ds).map (n :: ·)
  | _ => none

end Datum

end Eventual
