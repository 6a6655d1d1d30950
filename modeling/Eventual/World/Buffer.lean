/-!
# Buffers for joining promises

Promises that are joined settle one by one, in any order.  Their values are kept in a buffer until
the last one has arrived: in a gathering for any number of them, in a pairing for two.
-/

namespace Eventual

/-! ## Gatherings -/

/-- The values that have arrived for a number of places. -/
structure Gathering (V : Type) where
  /-- The value of each place, once it has arrived. -/
  values : List (Option V)
  /-- The number of places still empty. -/
  remaining : Nat

namespace Gathering

variable {V : Type}

/-- A gathering of `n` empty places. -/
def empty (n : Nat) : Gathering V := ⟨List.replicate n none, n⟩

/-- Puts a value into a place, where it replaces one that is there already.  Once no place is empty
all values are taken out, in the order of their places.  Without such a place nothing happens. -/
def insert (g : Gathering V) (i : Nat) (v : V) : Gathering V × Option (List V) :=
  match g.values[i]? with
  | none => (g, none)
  | some old =>
    let values := g.values.set i (some v)
    let remaining := if old.isNone then g.remaining - 1 else g.remaining
    if 0 < remaining then (⟨values, remaining⟩, none)
    else (⟨values.map fun _ => none, remaining⟩, some (values.filterMap id))

end Gathering

/-! ## Pairings -/

/-- The values that have arrived for the two sides of a pair. -/
structure Pairing (V : Type) where
  /-- The left value, once it has arrived. -/
  first : Option V := none
  /-- The right value, once it has arrived. -/
  second : Option V := none

namespace Pairing

variable {V : Type}

/-- Takes both values out, if both are there. -/
def take? (p : Pairing V) : Pairing V × Option (V × V) :=
  match p.first, p.second with
  | some a, some b => ({}, some (a, b))
  | _, _ => (p, none)

/-- Puts a value on the left side; both values once both are there. -/
def insertFirst (p : Pairing V) (v : V) : Pairing V × Option (V × V) :=
  { p with first := some v }.take?

/-- Puts a value on the right side; both values once both are there. -/
def insertSecond (p : Pairing V) (v : V) : Pairing V × Option (V × V) :=
  { p with second := some v }.take?

end Pairing

end Eventual
