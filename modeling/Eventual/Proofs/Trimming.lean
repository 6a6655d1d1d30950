import Mathlib.Data.List.DropRight

/-!
# Lists without what stands at their ends

Texts are read without the blanks around them, and stacks are shown without the empty lines around
them.  In both cases the elements at the two ends of a list are dropped that have some property, and
nothing else (`Trimmed`).  This determines what is left (`Trimmed.eq`).
-/

namespace Eventual

/-- `core` is what is left of a list without the elements at its two ends that satisfy `p`. -/
structure Trimmed {α : Type} (p : α → Bool) (all core : List α) : Prop where
  around : ∃ front back, all = front ++ core ++ back ∧ (∀ x ∈ front, p x = true) ∧
    ∀ x ∈ back, p x = true
  first : ∀ x, core.head? = some x → p x = false
  last : ∀ x, core.getLast? = some x → p x = false

variable {α : Type} {p : α → Bool} {all core : List α}

/-- Elements are dropped up to the first one that does not satisfy the test. -/
lemma dropWhile_append {front rest : List α} (hfront : ∀ x ∈ front, p x = true)
    (hrest : ∀ x, rest.head? = some x → p x = false) : (front ++ rest).dropWhile p = rest := by
  rw [List.dropWhile_append_of_pos hfront]
  cases rest with
  | nil => rfl
  | cons x rest => simp [hrest x rfl]

/-- What is left begins with an element that does not satisfy the test. -/
lemma eq_false_of_head?_dropWhile {x : α} (h : (all.dropWhile p).head? = some x) :
    p x = false := by
  have hhead := List.head?_dropWhile_not p all
  rw [h] at hhead
  simpa using hhead

/-- The elements are dropped from the front first and then from the back. -/
theorem trimmed_dropWhile (p : α → Bool) (all : List α) :
    Trimmed p all ((all.dropWhile p).rdropWhile p) where
  around := by
    refine ⟨all.takeWhile p, (all.dropWhile p).rtakeWhile p, ?_, ?_, ?_⟩
    · rw [List.append_assoc, List.rdropWhile_append_rtakeWhile, List.takeWhile_append_dropWhile]
    · exact fun x hx => List.mem_takeWhile_imp hx
    · exact fun x hx => List.mem_rtakeWhile_imp hx
  first x hx := by
    -- what is dropped from the back leaves the first element
    obtain ⟨back, hback⟩ := List.rdropWhile_prefix p (all.dropWhile p)
    have hhead : (all.dropWhile p).head? = some x := by
      rw [← hback]
      exact List.mem_head?_append_of_mem_head? hx
    exact eq_false_of_head?_dropWhile hhead
  last x hx := by
    rw [List.rdropWhile, List.getLast?_reverse] at hx
    exact eq_false_of_head?_dropWhile hx

namespace Trimmed

/-- **What is left is determined.** -/
theorem eq (h : Trimmed p all core) : core = (all.dropWhile p).rdropWhile p := by
  obtain ⟨front, back, rfl, hfront, hback⟩ := h.around
  rcases eq_or_ne core [] with rfl | hne
  · have hall : ∀ x ∈ front ++ [] ++ back, p x = true := by
      simpa [or_imp, forall_and] using ⟨hfront, hback⟩
    rw [List.dropWhile_eq_nil_iff.mpr hall, List.rdropWhile_nil]
  · have hfirst : ∀ x, (core ++ back).head? = some x → p x = false := by
      rw [List.head?_append_of_ne_nil _ hne]
      exact h.first
    have hlast : ∀ x, core.reverse.head? = some x → p x = false := by
      rw [List.head?_reverse]
      exact h.last
    have hback' : ∀ x ∈ back.reverse, p x = true := fun x hx => hback x (List.mem_reverse.mp hx)
    rw [List.append_assoc, dropWhile_append hfront hfirst, List.rdropWhile, List.reverse_append,
      dropWhile_append hback' hlast, List.reverse_reverse]

end Trimmed

end Eventual
