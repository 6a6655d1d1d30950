import Eventual.Scenario.Wheels
import Mathlib.Data.List.Induction
import Mathlib.Data.Nat.Digits.Defs
import Mathlib.Tactic.Common

/-!
# What a display shows

Digits are written from the last one, while the number shrinks, and read from the first one, while
the number read so far grows in a word of 32 bits.  The two meet in the number that the digits stand
for: what is written stands for the number without the digits that have no room on the display
(`Scenario.ofDigits_digitsOf`), and digits are read without leaving the word exactly if what they
stand for fits in it (`Scenario.readable_iff`), since nothing that is read on the way is larger.  So
a number that fits is read off a display of any width, as far as it is shown.
-/

namespace Eventual.Scenario

variable {n d : Nat} {digits : List Nat}

/-! ## Writing -/

lemma lt_ten_of_mem_digitsOf {width : Nat} (h : d ∈ digitsOf n width) : d < 10 := by
  induction width generalizing n with
  | zero => cases h
  | succ width ih =>
    rcases List.mem_append.mp h with hfront | hlast
    · exact ih hfront
    · rw [List.mem_singleton.mp hlast]
      exact Nat.mod_lt n (by decide)

/-- One more digit behind others. -/
lemma ofDigits_concat (digits : List Nat) (d : Nat) :
    Nat.ofDigits 10 (digits ++ [d]).reverse = Nat.ofDigits 10 digits.reverse * 10 + d := by
  rw [List.reverse_concat, Nat.ofDigits_cons]
  omega

/-- **A display of a number shows its last digits.** -/
theorem ofDigits_digitsOf (n width : Nat) :
    Nat.ofDigits 10 (digitsOf n width).reverse = n % 10 ^ width := by
  induction width generalizing n with
  | zero => simp [digitsOf, Nat.mod_one]
  | succ width ih =>
    rw [digitsOf, ofDigits_concat, ih, Nat.pow_succ', Nat.mod_mul]
    omega

/-! ## Reading -/

/-- Digits can be read in a word of 32 bits: each of them finds room behind the number that has been
read before it, and so does the product by ten on the way. -/
def Readable (digits : List Nat) : Prop :=
  ∀ front d, front ++ [d] <+: digits → (valueOf front).toNat * 10 + d < UInt32.size

lemma readable_nil : Readable [] := by
  intro front d h
  simp at h

lemma readable_concat_iff : Readable (digits ++ [d]) ↔
    Readable digits ∧ (valueOf digits).toNat * 10 + d < UInt32.size := by
  constructor
  · intro h
    exact ⟨fun front e hfront => h front e (hfront.trans (List.prefix_append digits [d])),
      h digits d (List.prefix_refl _)⟩
  · rintro ⟨h, hd⟩ front e hfront
    rcases List.prefix_concat_iff.mp hfront with hall | hpart
    · obtain ⟨rfl, rfl⟩ := List.append_singleton_inj.mp hall
      exact hd
    · exact h front e hpart

/-- Nothing is lost if there is room for one more digit. -/
lemma toNat_valueOf_concat (h : (valueOf digits).toNat * 10 + d < UInt32.size) :
    (valueOf (digits ++ [d])).toNat = (valueOf digits).toNat * 10 + d := by
  have hproduct : (valueOf digits * 10).toNat = (valueOf digits).toNat * 10 := by
    rw [UInt32.toNat_mul]
    exact Nat.mod_eq_of_lt (Nat.lt_of_le_of_lt (Nat.le_add_right _ d) h)
  have hdigit : d.toUInt32.toNat = d :=
    UInt32.toNat_ofNat_of_lt (Nat.lt_of_le_of_lt (Nat.le_add_left d _) h)
  rw [valueOf_concat, UInt32.toNat_add, hproduct, hdigit]
  exact Nat.mod_eq_of_lt h

/-- Digits that can be read are read as what they stand for. -/
lemma Readable.toNat_valueOf (h : Readable digits) :
    (valueOf digits).toNat = Nat.ofDigits 10 digits.reverse := by
  induction digits using List.reverseRecOn with
  | nil => rfl
  | append_singleton digits d ih =>
    obtain ⟨hfront, hd⟩ := readable_concat_iff.mp h
    rw [toNat_valueOf_concat hd, ih hfront, ofDigits_concat]

/-- **Digits can be read exactly if what they stand for fits in a word**, however many they are. -/
theorem readable_iff : Readable digits ↔ Nat.ofDigits 10 digits.reverse < UInt32.size := by
  constructor
  · intro h
    rw [← h.toNat_valueOf]
    exact UInt32.toNat_lt_size _
  · intro h
    induction digits using List.reverseRecOn with
    | nil => exact readable_nil
    | append_singleton digits d ih =>
      rw [ofDigits_concat] at h
      -- what is read before the last digit is smaller than the whole
      have hfront : Readable digits := ih (by omega)
      exact readable_concat_iff.mpr ⟨hfront, by rwa [hfront.toNat_valueOf]⟩

/-- The reading of wheels that have come to rest at digits. -/
lemma reading_digits (digits : List Nat) :
    reading (.list (digits.map fun d : Nat => .int d)) = .value (.int (valueOf digits).toNat) := by
  have hdigits : (digits.map fun d : Nat => Datum.int d).filterMap Datum.nat? = digits := by
    rw [List.filterMap_map]
    simp [Function.comp_def, Datum.nat?]
  rw [reading, hdigits]

/-- **A number of 32 bits is read off its digits again.**  A display has as many digits as it is wide,
each of them below ten.  At no digit does the reading leave the word, whatever the width, and what
is read is the number as far as it is shown, on ten wheels or more the number itself.  This is what
a display of wheels reports. -/
theorem display_read_back (n : UInt32) (width : Nat) :
    (digitsOf n.toNat width).length = width ∧ (∀ d ∈ digitsOf n.toNat width, d < 10) ∧
      Readable (digitsOf n.toNat width) ∧
      (valueOf (digitsOf n.toNat width)).toNat = n.toNat % 10 ^ width ∧
      (10 ≤ width → valueOf (digitsOf n.toNat width) = n) ∧
      reading (.list ((digitsOf n.toNat width).map fun d : Nat => .int d)) =
        .value (.int (n.toNat % 10 ^ width : Nat)) := by
  have hn : n.toNat < UInt32.size := n.toNat_lt_size
  have hreadable : Readable (digitsOf n.toNat width) := by
    rw [readable_iff, ofDigits_digitsOf]
    exact Nat.lt_of_le_of_lt (Nat.mod_le _ _) hn
  have hvalue : (valueOf (digitsOf n.toNat width)).toNat = n.toNat % 10 ^ width := by
    rw [hreadable.toNat_valueOf, ofDigits_digitsOf]
  refine ⟨length_digitsOf _ _, fun d hd => lt_ten_of_mem_digitsOf hd, hreadable, hvalue, ?_, ?_⟩
  · intro hwidth
    -- ten digits are enough for every number of 32 bits
    have hpow : 10 ^ 10 ≤ 10 ^ width := Nat.pow_le_pow_right (by decide) hwidth
    rw [UInt32.size] at hn
    rw [← UInt32.toNat_inj, hvalue]
    exact Nat.mod_eq_of_lt (by omega)
  · rw [reading_digits, hvalue]

/-- A narrow display shows the last digits of the largest number. -/
example : digitsOf 4294967295 3 = [2, 9, 5] ∧ valueOf (digitsOf 4294967295 12) = 4294967295 := by
  decide

end Eventual.Scenario
