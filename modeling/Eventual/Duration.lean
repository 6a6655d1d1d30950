import Eventual.Word

/-!
# Durations

A span of time is a whole number of nanoseconds.  Its whole seconds fit in a machine word, so there
is a longest span, and the bound is part of the type: a sum that would exceed it does not exist
(`Duration.add?`).  Instants of a virtual clock are durations too, counted from its start.
-/

namespace Eventual

/-- The number of nanoseconds in a microsecond. -/
abbrev microsecond : Nat := 1000

/-- The number of nanoseconds in a millisecond. -/
abbrev millisecond : Nat := 1000000

/-- The number of nanoseconds in a second. -/
abbrev second : Nat := 1000000000

/-- A span of time. -/
@[ext]
structure Duration where
  /-- Its length in nanoseconds. -/
  nanos : Nat
  /-- It is not longer than the longest span. -/
  bounded : nanos < wordCount * second
deriving DecidableEq

namespace Duration

/-- The empty span. -/
def zero : Duration := ⟨0, by decide⟩

/-- The longest span. -/
def longest : Duration := ⟨wordCount * second - 1, by decide⟩

instance : Inhabited Duration := ⟨zero⟩

/-- The span of `n` nanoseconds, if it exists. -/
def ofNanos? (n : Nat) : Option Duration :=
  if h : n < wordCount * second then some ⟨n, h⟩ else none

/-- The span of `n` milliseconds, if it exists. -/
def ofMillis? (n : Nat) : Option Duration := ofNanos? (n * millisecond)

/-- The span of `s` seconds and `n` nanoseconds, if it exists. -/
def ofSeconds? (s n : Nat) : Option Duration := ofNanos? (s * second + n)

/-- The span of `n` milliseconds, cut to the longest one. -/
def millis (n : Nat) : Duration := (ofMillis? n).getD longest

/-- The sum of two spans, if it exists. -/
def add? (a b : Duration) : Option Duration := ofNanos? (a.nanos + b.nanos)

/-- What is left of `a` after `b`, nothing if `b` is the longer. -/
def monus (a b : Duration) : Duration :=
  ⟨a.nanos - b.nanos, Nat.lt_of_le_of_lt (Nat.sub_le _ _) a.bounded⟩

instance : LE Duration := ⟨fun a b => a.nanos ≤ b.nanos⟩

instance : LT Duration := ⟨fun a b => a.nanos < b.nanos⟩

instance (a b : Duration) : Decidable (a ≤ b) := inferInstanceAs (Decidable (a.nanos ≤ b.nanos))

instance (a b : Duration) : Decidable (a < b) := inferInstanceAs (Decidable (a.nanos < b.nanos))

/-- The later of two instants. -/
def later (a b : Duration) : Duration := if a ≤ b then b else a

/-! ## Order and sum through the number of nanoseconds -/

theorem le_iff {a b : Duration} : a ≤ b ↔ a.nanos ≤ b.nanos := Iff.rfl

theorem lt_iff {a b : Duration} : a < b ↔ a.nanos < b.nanos := Iff.rfl

@[simp] theorem nanos_zero : zero.nanos = 0 := rfl

theorem ofNanos?_eq_some_iff {n : Nat} {d : Duration} : ofNanos? n = some d ↔ d.nanos = n := by
  unfold ofNanos?
  split
  · rw [Option.some.injEq, Duration.ext_iff]
    exact eq_comm
  · rename_i h
    exact iff_of_false (by simp) fun e => h (e ▸ d.bounded)

theorem add?_eq_some_iff {a b c : Duration} : a.add? b = some c ↔ c.nanos = a.nanos + b.nanos :=
  ofNanos?_eq_some_iff

/-- A sum is missing exactly when it would exceed the longest span. -/
theorem add?_eq_none_iff {a b : Duration} :
    a.add? b = none ↔ longest.nanos < a.nanos + b.nanos := by
  have hlongest : longest.nanos = 18446744073709551615999999999 := rfl
  rw [hlongest]
  unfold add? ofNanos?
  split
  · rename_i h
    exact iff_of_false (by simp) (by simp only [wordCount, second] at h; omega)
  · rename_i h
    exact iff_of_true rfl (by simp only [wordCount, second] at h; omega)

@[simp] theorem add?_zero (a : Duration) : a.add? zero = some a := by
  rw [add?_eq_some_iff]
  rfl

@[simp] theorem nanos_monus (a b : Duration) : (a.monus b).nanos = a.nanos - b.nanos := rfl

theorem nanos_later (a b : Duration) : (a.later b).nanos = max a.nanos b.nanos := by
  unfold later
  split <;> rename_i h <;> rw [le_iff] at h <;> omega

/-! ## Text -/

/-- The digits after the point of `n` parts of a whole that has `whole` of them, a power of ten, the
zeros at the end removed. -/
def fraction (whole n : Nat) : String :=
  let digits := (Nat.toDigits 10 (whole + n)).drop 1
  let kept := (digits.reverse.dropWhile (· == '0')).reverse
  if kept.isEmpty then "" else "." ++ String.ofList kept

/-- A number of nanoseconds in a unit of `size` of them, with the decimals it needs. -/
def inUnit (size : Nat) (unit : String) (n : Nat) : String :=
  Nat.repr (n / size) ++ fraction size (n % size) ++ unit

/-- The text of a span: the largest of the units s, ms, µs and ns of which it holds at least one,
with as many decimals as needed; the empty span is `0ns`. -/
def text (d : Duration) : String :=
  if second ≤ d.nanos then inUnit second "s" d.nanos
  else if millisecond ≤ d.nanos then inUnit millisecond "ms" d.nanos
  else if microsecond ≤ d.nanos then inUnit microsecond "µs" d.nanos
  else inUnit 1 "ns" d.nanos

end Duration

end Eventual
