/-!
# Digits of a display

A display shows a number in a fixed number of decimal digits: zeros in front if the number is short,
and only its last digits if it is long.  The number is read off its digits from the front, in a word
of 32 bits.
-/

namespace Eventual.Scenario

/-- The last `width` digits of a number, the first of them in front. -/
def digitsOf (n : Nat) : Nat → List Nat
  | 0 => []
  | width + 1 => digitsOf (n / 10) width ++ [n % 10]

/-- The number that digits stand for. -/
def valueOf (digits : List Nat) : UInt32 := digits.foldl (fun n d => n * 10 + d.toUInt32) 0

@[simp] theorem length_digitsOf (n width : Nat) : (digitsOf n width).length = width := by
  induction width generalizing n with
  | zero => rfl
  | succ w ih => simp [digitsOf, ih]

@[simp] theorem valueOf_nil : valueOf [] = 0 := rfl

@[simp] theorem valueOf_concat (digits : List Nat) (d : Nat) :
    valueOf (digits ++ [d]) = valueOf digits * 10 + d.toUInt32 := by
  simp [valueOf]

end Eventual.Scenario
