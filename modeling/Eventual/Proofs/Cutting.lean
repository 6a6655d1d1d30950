import Eventual.Proofs.Report
import Eventual.Proofs.Restoring

/-!
# Where stacks are cut

A stack loses the empty lines at its ends, and below another stack it is cut behind the first of the
lines that both end with.  What is left is determined in either case: there is one part of a stack
without empty lines at its ends (`Elision.Stripped.eq`), and one longest end that two stacks share,
whose length is the number of lines counted (`Elision.LongestShared.sharedLength_eq`).  From this
follow the exact places of the cuts.
-/

namespace Eventual

namespace Elision

/-! ## Stripping -/

/-- What is left of a stack without the empty lines at its ends is one list. -/
lemma Stripped.eq {all part : List String} (h : Stripped all part) : part = stripEmpty all :=
  (stripped_iff_trimmed.mp h).eq

/-- Stripping again changes nothing. -/
lemma stripEmpty_stripEmpty (all : List String) :
    stripEmpty (stripEmpty all) = stripEmpty all := by
  have h := stripped_stripEmpty all
  have hagain : Stripped (stripEmpty all) (stripEmpty all) := ⟨⟨0, 0, by simp⟩, h.first, h.last⟩
  exact hagain.eq.symm

lemma slice?_eq_some_iff {lines part : List String} {start stop : Nat} :
    slice? lines start stop = some part ↔
      start ≤ stop ∧ stop ≤ lines.length ∧ part = (lines.take stop).drop start := by
  rw [slice?]
  split
  · rename_i h
    simp [h, eq_comm]
  · rename_i h
    simp only [reduceCtorEq, false_iff]
    tauto

/-- **Stripping a stack and asking whether it shows anything agree.**  Of a stack there is exactly
one part that has no empty line at its ends and leaves out empty lines only, on either side; this is
what stripping returns, so that it changes nothing the second time.  It is cut out between two
places of the stack, the first of which does not come after the second.  A segment is available
exactly if something is left of its frames, and so there is always a line to show for it. -/
theorem stripping_decides (all : List String) (s : Segment) :
    (∀ part, Stripped all part ↔ part = stripEmpty all) ∧
      stripEmpty (stripEmpty all) = stripEmpty all ∧
      firstFilled all ≤ lastFilled all ∧ lastFilled all ≤ all.length ∧
      stripEmpty all = (all.take (lastFilled all)).drop (firstFilled all) ∧
      (s.isAvailable = true ↔ stripEmpty s.frames ≠ []) ∧ Trace.stackLines s ≠ [] := by
  obtain ⟨hle, hlength, hslice⟩ := slice?_eq_some_iff.mp (stripEmpty?_eq all)
  refine ⟨fun part => ⟨fun h => h.eq, ?_⟩, stripEmpty_stripEmpty all, hle, hlength, hslice,
    Trace.isAvailable_iff, (Trace.shown_stackLines s).ne_nil⟩
  rintro rfl
  exact stripped_stripEmpty all

/-! ## Eliding -/

variable {upper current tail own rest : List String} {anchor : String}

/-- The lines counted from the ends of two stacks are as many as their longest common end has. -/
lemma LongestShared.sharedLength_eq (h : LongestShared upper current tail) :
    sharedLength upper current = tail.length := by
  have hle := sharedLength_le upper current
  rw [h.unique (longestShared_drop upper current), List.length_drop]
  omega

/-- The lines behind the anchor are the last ones of the upper stack. -/
lemma LongestShared.drop_eq (h : LongestShared upper current (anchor :: rest)) :
    upper.drop (upper.length - rest.length) = rest := by
  have hrest : rest <:+ upper := (List.suffix_cons anchor rest).trans h.suffix_upper
  exact (List.suffix_iff_eq_drop.mp hrest).symm

/-- **Where a stack is cut below another one.**  The two stacks have a longest common end, and its
length is the number of lines counted; no list is cut at a place that it does not have.  If they end
with different lines, all of the stack is shown.  Otherwise the first of the common lines is the
last one that is shown, and one line follows, the replacement behind the blanks that this one starts
with.  The stack is what is shown without the line for the others, and then the last lines of the
upper stack, one less than they share. -/
theorem cut_at_longest_shared (upper current : List String) (replacement : String) :
    ∃ tail block, LongestShared upper current tail ∧ sharedLength upper current = tail.length ∧
      elide upper current replacement = block ∧ elide? upper current replacement = some block ∧
      (tail.length = 0 → block = current) ∧
      (tail.length ≠ 0 →
        block.length = current.length - tail.length + 2 ∧
        block.dropLast = current.take (current.length - tail.length + 1) ∧
        block.dropLast ++ upper.drop (upper.length - (tail.length - 1)) = current ∧
        ∃ blanks text : String, block.dropLast.getLast? = some (blanks ++ text) ∧
          (∀ c ∈ blanks.toList, Text.isBlank c = true) ∧
          (∀ c, text.toList.head? = some c → Text.isBlank c = false) ∧
          block.getLast? = some (blanks ++ replacement)) := by
  have h := abridged_elide upper current replacement
  have hcheck := elide?_eq upper current replacement
  generalize elide upper current replacement = block at h hcheck
  cases h with
  | whole apart =>
    refine ⟨[], current, apart, apart.sharedLength_eq, rfl, hcheck, fun _ => rfl, ?_⟩
    intro hne
    exact absurd rfl hne
  | @cut own rest anchor split shared =>
    refine ⟨anchor :: rest, _, shared, shared.sharedLength_eq, rfl, hcheck, ?_, ?_⟩
    · intro hzero
      cases hzero
    intro _
    -- the lines that are not shared, and the anchor behind them
    have hlength : current.length - (anchor :: rest).length = own.length := by
      rw [split, List.length_append, Nat.add_sub_cancel]
    have hdropLast : (own ++ [anchor, Text.indent anchor ++ replacement]).dropLast =
        own ++ [anchor] := by
      simp
    obtain ⟨text, hanchor, hblanks, htext⟩ := Text.exists_indent anchor
    rw [hlength, hdropLast]
    refine ⟨?_, ?_, ?_, Text.indent anchor, text, ?_, hblanks, htext, ?_⟩
    · simp
    · simp [split, List.take_append]
    · rw [List.length_cons, Nat.add_sub_cancel, shared.drop_eq, split]
      simp
    · rw [← hanchor]
      simp
    · simp

/-- The line for the others is indented like the anchor, not like the lines before it. -/
example : elide ["  dial", "  run", "  main"] ["\trun", "  run", "  main"] "..." =
    ["\trun", "  run", "  ..."] := by
  decide +kernel

end Elision

end Eventual
