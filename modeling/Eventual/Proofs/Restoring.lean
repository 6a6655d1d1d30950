import Eventual.Proofs.Elision
import Eventual.Proofs.Trimming
import Eventual.Trace.Render
import Mathlib.Data.List.Duplicate

/-!
# What can be restored of an elided stack

Whoever knows the stack above can put the lines back that were left out of a stack: they are the
lines of the upper stack behind the anchor.  The line that stands for them does not say how many
they are, so this works as long as there is one place in the upper stack for the anchor.  Two
different stacks are shown alike only if they go on behind the anchor as the upper stack does at two
different places (`Elision.Alternatives`), and then the anchor is a repeated line of the upper
stack, as it is with recursive calls.
-/

namespace Eventual

/-- A line is its indentation and a text that does not begin with a blank. -/
lemma Text.exists_indent (line : String) : ∃ text : String, line = indent line ++ text ∧
    (∀ c ∈ (indent line).toList, isBlank c = true) ∧
    ∀ c, text.toList.head? = some c → isBlank c = false := by
  refine ⟨String.ofList (line.toList.dropWhile isBlank), ?_, ?_, ?_⟩
  · rw [indent, ← String.ofList_append, List.takeWhile_append_dropWhile, String.ofList_toList]
  · intro c hc
    rw [indent, String.toList_ofList] at hc
    exact List.mem_takeWhile_imp hc
  · intro c hc
    rw [String.toList_ofList] at hc
    exact eq_false_of_head?_dropWhile hc

namespace Elision

variable {upper current tail tail' own rest c₁ c₂ : List String} {anchor replacement : String}

/-- A line that looks as if it stood for others: blanks and the replacement. -/
def IsMarker (replacement line : String) : Prop :=
  ∃ blanks : String, (∀ c ∈ blanks.toList, Text.isBlank c = true) ∧ line = blanks ++ replacement

/-- Two stacks that are the same up to an anchor, with which what they share with the end of the
upper stack begins, and which go on behind it as the upper stack does at different places. -/
def Alternatives (upper : List String) (anchor : String) (c₁ c₂ : List String) : Prop :=
  ∃ own rest₁ rest₂, c₁ = own ++ anchor :: rest₁ ∧ c₂ = own ++ anchor :: rest₂ ∧
    LongestShared upper c₁ (anchor :: rest₁) ∧ LongestShared upper c₂ (anchor :: rest₂) ∧
    rest₁.length ≠ rest₂.length

lemma isMarker_indent (replacement line : String) :
    IsMarker replacement (Text.indent line ++ replacement) := by
  obtain ⟨-, -, hblanks, -⟩ := Text.exists_indent line
  exact ⟨Text.indent line, hblanks, rfl⟩

lemma not_isMarker_of_length_lt {line : String} (h : line.length < replacement.length) :
    ¬ IsMarker replacement line := by
  rintro ⟨blanks, -, rfl⟩
  rw [String.length_append] at h
  omega

/-! ## The lines of an abridged stack -/

/-- The longest common end is one stack. -/
lemma LongestShared.unique (h : LongestShared upper current tail)
    (h' : LongestShared upper current tail') : tail = tail' := by
  have hlength : tail.length = tail'.length :=
    Nat.le_antisymm (h'.longest tail h.suffix_upper h.suffix_current)
      (h.longest tail' h'.suffix_upper h'.suffix_current)
  exact (List.suffix_of_suffix_length_le h.suffix_current h'.suffix_current
    hlength.le).eq_of_length hlength

/-- What is shown of a stack is the stack itself or ends with the line for the others. -/
lemma elide_cases (upper current : List String) (replacement : String) :
    elide upper current replacement = current ∨
      ∃ own anchor rest, current = own ++ anchor :: rest ∧
        LongestShared upper current (anchor :: rest) ∧
        elide upper current replacement = own ++ [anchor, Text.indent anchor ++ replacement] := by
  have h := abridged_elide upper current replacement
  generalize elide upper current replacement = block at h
  cases h with
  | whole => exact Or.inl rfl
  | @cut own rest anchor split shared => exact Or.inr ⟨own, anchor, rest, split, shared, rfl⟩

/-- What is shown of a stack that has some lines in common with the end of the upper one. -/
lemma elide_of_shared (split : current = own ++ anchor :: rest)
    (shared : LongestShared upper current (anchor :: rest)) :
    elide upper current replacement = own ++ [anchor, Text.indent anchor ++ replacement] := by
  have h := abridged_elide upper current replacement
  generalize elide upper current replacement = block at h
  cases h with
  | whole apart => cases apart.unique shared
  | @cut own' rest' anchor' split' shared' =>
    obtain ⟨rfl, rfl⟩ := List.cons.inj (shared'.unique shared)
    rw [List.append_cancel_right (split'.symm.trans split)]

/-! ## Stacks that are shown alike -/

/-- Behind two different places there are different numbers of lines, so the line at these places is
a repeated one. -/
lemma duplicate_of_suffixes {rest₁ rest₂ : List String} (h₁ : anchor :: rest₁ <:+ upper)
    (h₂ : anchor :: rest₂ <:+ upper) (hlt : rest₁.length < rest₂.length) :
    List.Duplicate anchor upper := by
  have hsuffix : anchor :: rest₁ <:+ rest₂ := by
    have hle : (anchor :: rest₁).length ≤ (anchor :: rest₂).length := by
      simpa using Nat.le_of_lt hlt
    refine (List.suffix_cons_iff.mp (List.suffix_of_suffix_length_le h₁ h₂ hle)).resolve_left ?_
    intro heq
    obtain rfl := (List.cons.inj heq).2
    exact Nat.lt_irrefl _ hlt
  have hmem : anchor ∈ rest₂ := hsuffix.mem (.head rest₁)
  exact (List.Mem.duplicate_cons_self hmem).mono_sublist h₂.sublist

namespace Alternatives

/-- The anchor of alternatives is a repeated line of the upper stack. -/
lemma duplicate (h : Alternatives upper anchor c₁ c₂) : List.Duplicate anchor upper := by
  obtain ⟨-, rest₁, rest₂, -, -, shared₁, shared₂, hne⟩ := h
  rcases Nat.lt_or_gt_of_ne hne with hlt | hlt
  · exact duplicate_of_suffixes shared₁.suffix_upper shared₂.suffix_upper hlt
  · exact duplicate_of_suffixes shared₂.suffix_upper shared₁.suffix_upper hlt

lemma anchor_mem (h : Alternatives upper anchor c₁ c₂) : anchor ∈ c₁ ∧ anchor ∈ c₂ := by
  obtain ⟨own, rest₁, rest₂, rfl, rfl, -⟩ := h
  exact ⟨by simp, by simp⟩

lemma length_ne (h : Alternatives upper anchor c₁ c₂) : c₁.length ≠ c₂.length := by
  obtain ⟨own, rest₁, rest₂, rfl, rfl, -, -, hne⟩ := h
  simpa using hne

/-- Alternatives are shown alike. -/
lemma elide_eq (h : Alternatives upper anchor c₁ c₂) (replacement : String) :
    elide upper c₁ replacement = elide upper c₂ replacement := by
  obtain ⟨own, rest₁, rest₂, split₁, split₂, shared₁, shared₂, -⟩ := h
  rw [elide_of_shared split₁ shared₁, elide_of_shared split₂ shared₂]

end Alternatives

/-- Stacks that share lines with the upper one and are shown alike have the same lines up to the
anchor. -/
lemma eq_or_alternatives {own' rest' : List String} {anchor' : String}
    (split : c₁ = own ++ anchor :: rest) (shared : LongestShared upper c₁ (anchor :: rest))
    (split' : c₂ = own' ++ anchor' :: rest') (shared' : LongestShared upper c₂ (anchor' :: rest'))
    (alike : own ++ [anchor, Text.indent anchor ++ replacement] =
      own' ++ [anchor', Text.indent anchor' ++ replacement]) :
    c₁ = c₂ ∨ Alternatives upper anchor c₁ c₂ := by
  obtain ⟨rfl, hlines⟩ := List.append_inj' alike rfl
  obtain ⟨rfl, -⟩ := List.cons.inj hlines
  by_cases hlength : rest.length = rest'.length
  · left
    have hsuffix := List.suffix_of_suffix_length_le shared.suffix_upper shared'.suffix_upper
      (by simp [hlength])
    rw [split, split', hsuffix.eq_of_length (by simp [hlength])]
  · exact Or.inr ⟨own, rest, rest', split, split', shared, shared', hlength⟩

/-- A stack without a line that could be taken for an elision does not end with one. -/
lemma ne_cut_of_unmarked (unmarked : ∀ line ∈ current, ¬ IsMarker replacement line) :
    current ≠ own ++ [anchor, Text.indent anchor ++ replacement] := by
  rintro rfl
  exact unmarked _ (by simp) (isMarker_indent replacement anchor)

/-! ## Putting lines back -/

/-- Puts back what was left out of a stack below an upper one: if the last line stands for others,
the lines of the upper stack from the first place of the anchor on. -/
def restore (replacement : String) (upper block : List String) : List String :=
  match block.reverse with
  | mark :: anchor :: own =>
    if mark = Text.indent anchor ++ replacement then own.reverse ++ upper.dropWhile (· != anchor)
    else block
  | _ => block

/-- What was shown in full is left as it is. -/
lemma restore_of_unmarked (unmarked : ∀ line ∈ current, ¬ IsMarker replacement line) :
    restore replacement upper current = current := by
  rw [restore]
  split
  · rename_i mark anchor own hreverse
    have hcurrent : current = own.reverse ++ [anchor, mark] := by
      simpa using congrArg List.reverse hreverse
    refine if_neg ?_
    rintro rfl
    exact ne_cut_of_unmarked unmarked hcurrent
  · rfl

/-- A line that is not repeated has one place. -/
lemma dropWhile_of_nodup (nodup : upper.Nodup) (h : anchor :: rest <:+ upper) :
    upper.dropWhile (· != anchor) = anchor :: rest := by
  obtain ⟨front, rfl⟩ := h
  refine dropWhile_append (fun line hline => ?_) fun line hline => ?_
  · have hne : line ≠ anchor := by
      rintro rfl
      exact (List.nodup_append.mp nodup).2.2 line hline line (.head rest) rfl
    simpa using hne
  · cases hline
    simp

/-- **Below a stack without repeated lines nothing is lost.** -/
theorem restore_elide (nodup : upper.Nodup)
    (unmarked : ∀ line ∈ current, ¬ IsMarker replacement line) :
    restore replacement upper (elide upper current replacement) = current := by
  rcases elide_cases upper current replacement with whole | ⟨own, anchor, rest, split, shared, cut⟩
  · rw [whole, restore_of_unmarked unmarked]
  · rw [cut, restore]
    simp only [List.reverse_append, List.reverse_cons, List.reverse_nil, List.nil_append,
      List.cons_append, if_pos, List.reverse_reverse]
    rw [dropWhile_of_nodup nodup shared.suffix_upper, ← split]

/-! ## The main statement -/

/-- **What is shown of a stack tells which stack it is**, up to repeated lines.  Below one upper
stack, two stacks without a line that could be taken for an elision are shown alike only if they are
the same, or go on behind an anchor as the upper stack does at two different places.  Then they have
different lengths, and this anchor is a line of both and a repeated one of the upper stack.  If the
upper stack repeats no line, the stack can be restored. -/
theorem elided_stacks_alike (upper c₁ c₂ : List String) (replacement : String)
    (unmarked₁ : ∀ line ∈ c₁, ¬ IsMarker replacement line)
    (unmarked₂ : ∀ line ∈ c₂, ¬ IsMarker replacement line) :
    (elide upper c₁ replacement = elide upper c₂ replacement ↔
      c₁ = c₂ ∨ ∃ anchor, Alternatives upper anchor c₁ c₂) ∧
    (∀ anchor, Alternatives upper anchor c₁ c₂ → c₁.length ≠ c₂.length ∧
      anchor ∈ c₁ ∧ anchor ∈ c₂ ∧ List.Duplicate anchor upper) ∧
    (upper.Nodup → restore replacement upper (elide upper c₁ replacement) = c₁) := by
  refine ⟨⟨fun alike => ?_, ?_⟩,
    fun anchor h => ⟨h.length_ne, h.anchor_mem.1, h.anchor_mem.2, h.duplicate⟩,
    fun nodup => restore_elide nodup unmarked₁⟩
  · rcases elide_cases upper c₁ replacement with
      whole₁ | ⟨own₁, anchor₁, rest₁, split₁, shared₁, cut₁⟩
    all_goals rcases elide_cases upper c₂ replacement with
      whole₂ | ⟨own₂, anchor₂, rest₂, split₂, shared₂, cut₂⟩
    · exact Or.inl (whole₁.symm.trans (alike.trans whole₂))
    · exact absurd (whole₁.symm.trans (alike.trans cut₂)) (ne_cut_of_unmarked unmarked₁)
    · exact absurd (whole₂.symm.trans (alike.symm.trans cut₁)) (ne_cut_of_unmarked unmarked₂)
    · have hlines := cut₁.symm.trans (alike.trans cut₂)
      exact (eq_or_alternatives split₁ shared₁ split₂ shared₂ hlines).imp_right fun h => ⟨anchor₁, h⟩
  · rintro (rfl | ⟨anchor, h⟩)
    · rfl
    · exact h.elide_eq replacement

/-- The lines of three calls, two of which share their outermost frames with those of another. -/
def dialling : List String := ["  dial", "  run", "  main"]

/-- Below `dialling`, which repeats no line, two stacks that share one or two lines with it are
shown differently. -/
theorem elided_stacks_alike_dialling :
    elide dialling ["  log in", "  run", "  main"] Trace.elided ≠
        elide dialling ["  log in", "  main"] Trace.elided ∧
      restore Trace.elided dialling
          (elide dialling ["  log in", "  run", "  main"] Trace.elided) =
        ["  log in", "  run", "  main"] := by
  have nodup : dialling.Nodup := by decide
  obtain ⟨halike, hrepeated, hrestored⟩ := elided_stacks_alike dialling
    ["  log in", "  run", "  main"] ["  log in", "  main"] Trace.elided
    (fun line hline => not_isMarker_of_length_lt (by revert line; decide))
    (fun line hline => not_isMarker_of_length_lt (by revert line; decide))
  refine ⟨fun heq => ?_, hrestored nodup⟩
  rcases halike.mp heq with heq | halternatives
  · exact absurd heq (by decide)
  · obtain ⟨anchor, h⟩ := halternatives
    exact (hrepeated anchor h).2.2.2.not_nodup nodup

/-- Below two frames of one function that calls itself, it cannot be seen whether a stack has both
of them or one. -/
theorem elided_alike_recursion :
    (∀ line ∈ ["task", "main"], ¬ IsMarker Trace.elided line) ∧
      (∀ line ∈ ["task", "main", "main"], ¬ IsMarker Trace.elided line) ∧
      elide ["main", "main"] ["task", "main"] Trace.elided =
        elide ["main", "main"] ["task", "main", "main"] Trace.elided ∧
      ["task", "main"] ≠ ["task", "main", "main"] := by
  refine ⟨fun line hline => not_isMarker_of_length_lt (by revert line; decide),
    fun line hline => not_isMarker_of_length_lt (by revert line; decide), by decide, by decide⟩

end Elision

end Eventual
