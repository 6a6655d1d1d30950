import Eventual.Data.Datum
import Eventual.Failure
import Eventual.Script.Basic

/-!
# Items

What promises are fulfilled with: data, lists of data, pairs of data, and spans of time.  The kind
of a promise says which of them it can be fulfilled with.  Callbacks and answers see an item as
data.
-/

namespace Eventual

/-- What a promise can be fulfilled with. -/
inductive Kind where
  | value
  | list
  | pair
  | duration
deriving DecidableEq

/-- What promises are fulfilled with. -/
inductive Item where
  | value (d : Datum)
  | list (ds : List Datum)
  | pair (a b : Datum)
  | duration (d : Duration)
deriving DecidableEq

/-- The span that a piece of data stands for: a number of milliseconds, or a record of seconds `s`
and nanoseconds `n`. -/
def durationOf? (d : Datum) : Option Duration :=
  match d.nat?, d.field? "s", d.field? "n" with
  | some n, _, _ => Duration.ofMillis? n
  | none, some s, some n =>
    match s.nat?, n.nat? with
    | some s, some n => Duration.ofSeconds? s n
    | _, _ => none
  | none, _, _ => none

namespace Item

/-- An item as data; a span is the text of its number of nanoseconds. -/
def datum : Item → Datum
  | value d => d
  | list ds => .list ds
  | pair a b => .list [a, b]
  | duration d => .text (Nat.repr d.nanos)

/-- The two sides of a pair; of any other item, null twice. -/
def operands : Item → Datum × Datum
  | pair a b => (a, b)
  | _ => (.null, .null)

/-- The item of a kind that a piece of data stands for. -/
def ofDatum? : Kind → Datum → Option Item
  | .value, d => some (value d)
  | .list, .list ds => some (list ds)
  | .pair, .list [a, b] => some (pair a b)
  | .duration, d => (durationOf? d).map duration
  | _, _ => none

end Item

/-- The payload of programs on items, for the notes and the store they use. -/
abbrev payload (Note Store : Type) : Payload where
  Value := Item
  Error := Failure
  Note
  Store
  list items := .list (items.map Item.datum)
  pair a b := .pair a.datum b.datum
  span := .duration
  timeout := .timeout

end Eventual
