import Eventual.Proofs.Trimming
import Eventual.Trace.Elision
import Mathlib.Data.List.Infix
import Mathlib.Data.List.TakeWhile
import Mathlib.Tactic.Common

/-!
# What two stacks have in common

Of a stack below another one those lines are left out that both end with, save the first
(`Elision.Abridged`), and beforehand a stack loses the empty lines at its ends (`Elision.Stripped`).
Both are said here without counting; the functions that count lines from the ends have these
properties (`abridged_elide`, `stripped_stripEmpty`).  The places at which lists are cut are
computed as well, and they lie within the lists: cutting with a check comes to the same
(`stripEmpty?_eq`, `elide?_eq`).
-/

namespace Eventual.Elision

/-! ## The lines that two stacks both end with -/

/-- `tail` is the longest stack that two stacks both end with. -/
structure LongestShared (upper current tail : List String) : Prop where
  suffix_upper : tail <:+ upper
  suffix_current : tail <:+ current
  longest : ∀ lines, lines <:+ upper → lines <:+ current → lines.length ≤ tail.length

/-- What is shown of a stack below another one: all of it if they end with different lines, and else
the lines up to the first one of the longest common end, with one line indented like that one for
the others. -/
inductive Abridged (upper current : List String) (replacement : String) : List String → Prop
  /-- The two stacks have nothing in common. -/
  | whole (apart : LongestShared upper current []) : Abridged upper current replacement current
  /-- The two stacks both end with `anchor :: rest`. -/
  | cut {own rest : List String} {anchor : String} (split : current = own ++ anchor :: rest)
      (shared : LongestShared upper current (anchor :: rest)) :
      Abridged upper current replacement (own ++ [anchor, Text.indent anchor ++ replacement])

/-- The number of places, from the front, up to which two lists are the same. -/
def agreement (xs ys : List String) : Nat :=
  ((xs.zip ys).takeWhile fun p => p.1 == p.2).length

lemma agreement_nil_left (ys : List String) : agreement [] ys = 0 := rfl

lemma agreement_nil_right (xs : List String) : agreement xs [] = 0 := by
  simp [agreement]

lemma agreement_cons (x y : String) (xs ys : List String) :
    agreement (x :: xs) (y :: ys) = if x = y then agreement xs ys + 1 else 0 := by
  by_cases h : x = y
  · simp [agreement, h]
  · simp [agreement, h]

lemma take_agreement (xs ys : List String) :
    xs.take (agreement xs ys) = ys.take (agreement xs ys) := by
  induction xs generalizing ys with
  | nil => simp [agreement_nil_left]
  | cons x xs ih =>
    cases ys with
    | nil => simp [agreement_nil_right]
    | cons y ys =>
      rw [agreement_cons]
      split
      · rename_i h
        simp [h, ih ys]
      · simp

lemma agreement_le (xs ys : List String) :
    agreement xs ys ≤ xs.length ∧ agreement xs ys ≤ ys.length := by
  have hzip : agreement xs ys ≤ (xs.zip ys).length := (List.takeWhile_prefix _).length_le
  rw [List.length_zip] at hzip
  omega

/-- No longer prefix is common to both lists. -/
lemma length_le_agreement {l xs ys : List String} (hx : l <+: xs) (hy : l <+: ys) :
    l.length ≤ agreement xs ys := by
  induction l generalizing xs ys with
  | nil => simp
  | cons a l ih =>
    obtain ⟨xs', rfl, hx'⟩ := List.cons_prefix_iff.mp hx
    obtain ⟨ys', rfl, hy'⟩ := List.cons_prefix_iff.mp hy
    have hlen := ih hx' hy'
    rw [agreement_cons, if_pos rfl, List.length_cons]
    omega

lemma sharedLength_le (upper current : List String) :
    sharedLength upper current ≤ current.length := by
  have h := (agreement_le upper.reverse current.reverse).2
  rwa [List.length_reverse] at h

/-- The lines counted from the end are the longest common end. -/
lemma longestShared_drop (upper current : List String) :
    LongestShared upper current
      (current.drop (current.length - sharedLength upper current)) where
  suffix_upper := by
    -- read from the end, the common end is a common beginning
    have htake : current.drop (current.length - sharedLength upper current) =
        upper.drop (upper.length - sharedLength upper current) := by
      have h := congrArg List.reverse (take_agreement upper.reverse current.reverse)
      rw [List.reverse_take, List.reverse_take, List.length_reverse, List.length_reverse,
        List.reverse_reverse, List.reverse_reverse] at h
      exact h.symm
    rw [htake]
    exact List.drop_suffix _ _
  suffix_current := List.drop_suffix _ _
  longest := by
    intro lines hu hc
    have h := length_le_agreement (List.reverse_prefix.mpr hu) (List.reverse_prefix.mpr hc)
    have hle := sharedLength_le upper current
    rw [List.length_reverse] at h
    rw [List.length_drop]
    change lines.length ≤ sharedLength upper current at h
    omega

lemma getLast?_append_cons_nil (own : List String) (anchor : String) :
    (own ++ [anchor]).getLast? = some anchor := by
  simp

/-- **What is shown of a stack is the stack abridged.** -/
theorem abridged_elide (upper current : List String) (replacement : String) :
    Abridged upper current replacement (elide upper current replacement) := by
  have hshared := longestShared_drop upper current
  have hle := sharedLength_le upper current
  by_cases hzero : sharedLength upper current = 0
  · rw [hzero, Nat.sub_zero, List.drop_length] at hshared
    rw [elide, if_pos hzero]
    exact .whole hshared
  · -- the first common line is the last one that is kept
    obtain ⟨anchor, rest, htail⟩ : ∃ anchor rest,
        current.drop (current.length - sharedLength upper current) = anchor :: rest := by
      refine List.exists_cons_of_ne_nil fun hnil => ?_
      have hlen := congrArg List.length hnil
      rw [List.length_drop, List.length_nil] at hlen
      omega
    have hsplit : current =
        current.take (current.length - sharedLength upper current) ++ anchor :: rest := by
      rw [← htail, List.take_append_drop]
    have hkept : current.take (current.length - sharedLength upper current + 1) =
        current.take (current.length - sharedLength upper current) ++ [anchor] := by
      rw [List.take_add, htail]
      simp
    rw [elide, if_neg hzero, hkept, appendIndented, List.append_assoc]
    simp only [getLast?_append_cons_nil, Option.map_some, Option.getD_some]
    rw [htail] at hshared
    exact .cut hsplit hshared

lemma Abridged.ne_nil {upper current block : List String} {replacement : String}
    (h : Abridged upper current replacement block) (hne : current ≠ []) : block ≠ [] := by
  cases h with
  | whole => exact hne
  | cut => simp

/-! ## Stacks without empty lines at their ends -/

/-- `lines` is what is left of a stack without the empty lines at its two ends. -/
structure Stripped (all lines : List String) : Prop where
  around : ∃ before after, all = List.replicate before "" ++ lines ++ List.replicate after ""
  first : lines.head? ≠ some ""
  last : lines.getLast? ≠ some ""

lemma forall_isEmpty_iff {lines : List String} :
    (∀ l ∈ lines, l.isEmpty = true) ↔ lines = List.replicate lines.length "" := by
  simp [List.eq_replicate_iff]

lemma ne_some_empty_iff {line? : Option String} :
    line? ≠ some "" ↔ ∀ l, line? = some l → l.isEmpty = false := by
  cases line? with
  | none => simp
  | some l => simp

/-- A stack is stripped exactly if the lines at its two ends are dropped that have no text. -/
lemma stripped_iff_trimmed {all lines : List String} :
    Stripped all lines ↔ Trimmed String.isEmpty all lines := by
  constructor
  · intro h
    obtain ⟨before, after, hall⟩ := h.around
    refine ⟨⟨_, _, hall, ?_, ?_⟩, ne_some_empty_iff.mp h.first, ne_some_empty_iff.mp h.last⟩
    · rw [forall_isEmpty_iff, List.length_replicate]
    · rw [forall_isEmpty_iff, List.length_replicate]
  · intro h
    obtain ⟨front, back, hall, hfront, hback⟩ := h.around
    refine ⟨⟨front.length, back.length, ?_⟩, ne_some_empty_iff.mpr h.first,
      ne_some_empty_iff.mpr h.last⟩
    rw [← forall_isEmpty_iff.mp hfront, ← forall_isEmpty_iff.mp hback, hall]

/-- Empty lines are stripped from both ends, and nothing else. -/
theorem stripped_stripEmpty (all : List String) : Stripped all (stripEmpty all) :=
  stripped_iff_trimmed.mpr (trimmed_dropWhile String.isEmpty all)

lemma Stripped.eq_nil_iff {all lines : List String} (h : Stripped all lines) :
    lines = [] ↔ ∀ l ∈ all, l = "" := by
  obtain ⟨before, after, rfl⟩ := h.around
  constructor
  · rintro rfl l hl
    rw [List.append_nil] at hl
    rcases List.mem_append.mp hl with hl | hl <;> exact List.eq_of_mem_replicate hl
  · intro hempty
    cases lines with
    | nil => rfl
    | cons l rest => exact absurd (congrArg some (hempty l (by simp))) h.first

/-! ## Cutting with a check -/

/-- The lines from one place up to another one, if there are such places. -/
def slice? (lines : List String) (start stop : Nat) : Option (List String) :=
  if start ≤ stop ∧ stop ≤ lines.length then some ((lines.take stop).drop start) else none

/-- The place of the first line that is not empty; the end if there is none. -/
def firstFilled (lines : List String) : Nat := lines.findIdx fun l => !l.isEmpty

/-- The place behind the last line that is not empty; that of the first if there is none. -/
def lastFilled (lines : List String) : Nat :=
  match lines.reverse.findIdx? fun l => !l.isEmpty with
  | some i => lines.length - i
  | none => firstFilled lines

/-- Lines without the empty ones at both ends, cut with a check. -/
def stripEmpty? (lines : List String) : Option (List String) :=
  slice? lines (firstFilled lines) (lastFilled lines)

/-- What is shown of a stack below another one, cut with a check. -/
def elide? (upper current : List String) (replacement : String) : Option (List String) :=
  let shared := sharedLength upper current
  if shared = 0 then some current
  else if shared ≤ current.length then
    (slice? current 0 (current.length - shared + 1)).map (appendIndented · replacement)
  else none

lemma slice?_append (front lines back : List String) :
    slice? (front ++ lines ++ back) front.length (front.length + lines.length) = some lines := by
  have htake : (front ++ lines ++ back).take (front.length + lines.length) = front ++ lines := by
    rw [← List.length_append, List.take_left]
  rw [slice?, if_pos, htake, List.drop_left]
  simp only [List.length_append]
  omega

lemma firstFilled_append {before : Nat} {lines : List String} (h : lines.head? ≠ some "") :
    firstFilled (List.replicate before "" ++ lines) = before := by
  induction before with
  | zero =>
    cases lines with
    | nil => rfl
    | cons l rest =>
      have hl : l.isEmpty = false := by simpa using h
      simp [firstFilled, List.findIdx_cons, hl]
  | succ before ih =>
    have hempty : "".isEmpty = true := rfl
    rw [List.replicate_succ, List.cons_append, firstFilled, List.findIdx_cons]
    simpa [firstFilled, hempty] using ih

lemma firstFilled_replicate (n : Nat) : firstFilled (List.replicate n "") = n := by
  have h : firstFilled (List.replicate n "" ++ []) = n := firstFilled_append (by simp)
  rwa [List.append_nil] at h

lemma lastFilled_append {front lines : List String} {after : Nat} (hne : lines ≠ [])
    (h : lines.getLast? ≠ some "") :
    lastFilled (front ++ lines ++ List.replicate after "") = front.length + lines.length := by
  have hindex : (front ++ lines ++ List.replicate after "").reverse.findIdx? (fun l => !l.isEmpty) =
      some after := by
    have hreverse : (front ++ lines ++ List.replicate after "").reverse =
        List.replicate after "" ++ (lines.reverse ++ front.reverse) := by
      simp
    have hfirst : (lines.reverse ++ front.reverse).head? ≠ some "" := by
      rw [List.head?_append_of_ne_nil _ (by simpa using hne), List.head?_reverse]
      exact h
    have hlt : after < (List.replicate after "" ++ (lines.reverse ++ front.reverse)).length := by
      have := List.length_pos_iff.mpr hne
      simp only [List.length_append, List.length_replicate, List.length_reverse]
      omega
    rw [hreverse, List.findIdx?_eq_some_iff_findIdx_eq]
    exact ⟨hlt, firstFilled_append hfirst⟩
  rw [lastFilled, hindex]
  simp only [List.length_append, List.length_replicate]
  omega

/-- The ends of what is left are places of the list, the first one no later than the second. -/
theorem stripEmpty?_eq (lines : List String) : stripEmpty? lines = some (stripEmpty lines) := by
  have h := stripped_stripEmpty lines
  generalize stripEmpty lines = kept at h
  obtain ⟨before, after, rfl⟩ := h.around
  rcases eq_or_ne kept [] with rfl | hne
  · -- there are only empty lines, and both places are the end
    have hall : List.replicate before "" ++ [] ++ List.replicate after "" =
        List.replicate (before + after) "" := by
      simp
    have hnone : (List.replicate (before + after) "").reverse.findIdx? (fun l => !l.isEmpty) =
        none := by
      simp
    rw [hall, stripEmpty?, lastFilled, hnone, firstFilled_replicate, slice?, if_pos]
    · simp
    · simp
  · have hfirst : (kept ++ List.replicate after "").head? ≠ some "" := by
      rw [List.head?_append_of_ne_nil _ hne]
      exact h.first
    have hstart : firstFilled (List.replicate before "" ++ kept ++ List.replicate after "") =
        (List.replicate before "").length := by
      rw [List.append_assoc, firstFilled_append hfirst, List.length_replicate]
    rw [stripEmpty?, hstart, lastFilled_append hne h.last]
    exact slice?_append _ _ _

/-- The number of shared lines can be taken from that of all, and the cut is within the list. -/
theorem elide?_eq (upper current : List String) (replacement : String) :
    elide? upper current replacement = some (elide upper current replacement) := by
  have hle := sharedLength_le upper current
  by_cases hzero : sharedLength upper current = 0
  · simp [elide?, elide, hzero]
  · have hcut : slice? current 0 (current.length - sharedLength upper current + 1) =
        some (current.take (current.length - sharedLength upper current + 1)) := by
      rw [slice?, if_pos, List.drop_zero]
      omega
    simp [elide?, elide, hzero, hle, hcut]

end Eventual.Elision
