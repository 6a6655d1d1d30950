import Eventual.Proofs.Report
import Eventual.Proofs.Restoring

/-!
# How a stack without frames is reported

A segment without a frame to show stands in a report as the placeholder.  The placeholder is taken
for a stack of one line, and like any other stack it is abridged against the one before: behind a
stack that ends with the placeholder it is followed by the line for elided ones, although nothing
was left out.  So what is reported of such a segment depends on the last line shown for the segment
before it (`lastLine`).
-/

namespace Eventual

/-- A stack of one line has this line in common with the stacks that end with it. -/
lemma Elision.elide_singleton (upper : List String) (line replacement : String) :
    elide upper [line] replacement =
      if upper.getLast? = some line then [line, Text.indent line ++ replacement] else [line] := by
  split
  · rename_i hlast
    obtain ⟨front, rfl⟩ := List.getLast?_eq_some_iff.mp hlast
    have hshared : LongestShared (front ++ [line]) [line] [line] :=
      ⟨List.suffix_append front [line], List.suffix_rfl, fun _ _ hc => hc.length_le⟩
    exact elide_of_shared (List.nil_append [line]).symm hshared
  · rename_i hlast
    rcases elide_cases upper [line] replacement with whole | ⟨own, anchor, rest, split, shared, -⟩
    · exact whole
    · -- the common end could only be the line itself
      obtain ⟨front, hfront⟩ := shared.suffix_upper
      cases own with
      | nil =>
        obtain ⟨rfl, rfl⟩ := List.cons.inj split
        exact absurd (List.getLast?_eq_some_iff.mpr ⟨front, hfront.symm⟩) hlast
      | cons l own =>
        have hnil := (List.cons.inj split).2
        simp at hnil

namespace Trace

/-- The last line that is shown for a segment: its last frame with text, or the placeholder. -/
def lastLine (s : Segment) : String :=
  (s.frames.reverse.find? fun f => !f.isEmpty).getD noStack

lemma getLast?_stackLines (s : Segment) : (stackLines s).getLast? = some (lastLine s) := by
  have hshown := shown_stackLines s
  generalize stackLines s = lines at hshown
  cases hshown with
  | missing blank =>
    have hnone : s.frames.reverse.find? (fun f => !f.isEmpty) = none := by
      simpa [List.find?_eq_none] using blank
    rw [lastLine, hnone]
    rfl
  | frames stripped ne =>
    have hlast := List.getLast?_eq_some_getLast ne
    obtain ⟨front, hfront⟩ := List.getLast?_eq_some_iff.mp hlast
    have hfilled : lines.getLast ne ≠ "" := fun hempty => stripped.last (hempty ▸ hlast)
    obtain ⟨b, a, hframes⟩ := stripped.around
    -- read from the end, there are only empty lines before it
    have hfind : s.frames.reverse.find? (fun f => !f.isEmpty) = some (lines.getLast ne) := by
      refine List.find?_eq_some_iff_append.mpr ⟨by simpa using hfilled, List.replicate a "",
        front.reverse ++ List.replicate b "", ?_, ?_⟩
      · rw [hframes]
        conv_lhs => rw [hfront]
        simp
      · intro f hf
        rw [List.eq_of_mem_replicate hf]
        rfl
    rw [hlast, lastLine, hfind]
    rfl

lemma stackLines_of_missing {s : Segment} (missing : s.isAvailable = false) :
    stackLines s = [noStack] := by
  rw [stackLines, missing]
  rfl

lemma lastLine_of_missing {s : Segment} (missing : s.isAvailable = false) :
    lastLine s = noStack := by
  have h := getLast?_stackLines s
  rw [stackLines_of_missing missing] at h
  exact (Option.some.inj h).symm

/-- The stack before the later segments is that of the last earlier one. -/
lemma blocks_append (previous : List String) (earlier later : List Segment) :
    blocks previous (earlier ++ later) =
      blocks previous earlier ++
        blocks ((earlier.getLast?.map stackLines).getD previous) later := by
  induction earlier generalizing previous with
  | nil => rfl
  | cons s earlier ih =>
    rw [List.cons_append, blocks, ih, blocks, List.cons_append]
    cases earlier with
    | nil => rfl
    | cons s' earlier => rw [List.getLast?_cons_cons]; simp [List.getLast?_cons]

variable {E : Type}

lemma render_eq (text : E → String) (t : Trace E) :
    t.render text =
      "\n".intercalate (text t.head.error :: (blocks [] t.segments).flatMap (separator :: ·)) := by
  refine intercalate_flatMap ?_ _
  refine (abridgement_blocks [] t.segments).ne_nil fun stack hstack => ?_
  obtain ⟨s, -, rfl⟩ := List.mem_map.mp hstack
  exact (shown_stackLines s).ne_nil

/-- **What is reported of a segment without a frame to show.**  Between what is reported of the
earlier segments and of the later ones stand the separator and a block.  It is the placeholder and
nothing else, unless the last line of the stack right before is the placeholder.  In that case, and
so whenever the segment right before has no frame to show either, the line for elided ones
follows. -/
theorem missing_block (text : E → String) (t : Trace E) (earlier later : List Segment)
    (s : Segment) (chain : t.segments = earlier ++ s :: later) (missing : s.isAvailable = false) :
    ∃ block, t.render text = "\n".intercalate (text t.head.error ::
        ((blocks [] earlier).flatMap (separator :: ·) ++ separator :: block ++
          (blocks [noStack] later).flatMap (separator :: ·))) ∧
      (block = if earlier.getLast?.map lastLine = some noStack then [noStack, elided]
        else [noStack]) ∧
      ∀ p, earlier.getLast? = some p → p.isAvailable = false → block = [noStack, elided] := by
  have hblock : Elision.elide ((earlier.getLast?.map stackLines).getD []) [noStack] elided =
      if earlier.getLast?.map lastLine = some noStack then [noStack, elided] else [noStack] := by
    have hindent : Text.indent noStack ++ elided = elided := by decide +kernel
    have hlast : ((earlier.getLast?.map stackLines).getD []).getLast? =
        earlier.getLast?.map lastLine := by
      cases earlier.getLast? with
      | none => rfl
      | some p => exact getLast?_stackLines p
    rw [Elision.elide_singleton, hlast, hindent]
  refine ⟨_, ?_, hblock, fun p hp hmissing => ?_⟩
  · rw [render_eq, chain, blocks_append, blocks, stackLines_of_missing missing]
    simp
  · rw [hblock, hp, Option.map_some, lastLine_of_missing hmissing, if_pos rfl]

/-- A failure that was passed on once, and of whose last hop no frame is known. -/
def passedOn (first : Segment) : Trace String :=
  ⟨⟨"lost", some (.unavailable ⟨2⟩)⟩, [⟨"lost", some first⟩]⟩

/-- Behind a stack with frames the placeholder stands alone. -/
theorem missing_block_behind_frames :
    (passedOn ⟨⟨1⟩, ["  dial", "  main", ""]⟩).render id =
      "\n".intercalate ["lost", separator, "  dial", "  main", separator, noStack] := by
  obtain ⟨block, hrender, hblock, -⟩ := missing_block id (passedOn ⟨⟨1⟩, ["  dial", "  main", ""]⟩)
    [⟨⟨1⟩, ["  dial", "  main", ""]⟩] [] (.unavailable ⟨2⟩) rfl rfl
  have hlast : lastLine ⟨⟨1⟩, ["  dial", "  main", ""]⟩ ≠ noStack := by decide +kernel
  have hshown : blocks [] [⟨⟨1⟩, ["  dial", "  main", ""]⟩] = [["  dial", "  main"]] := by
    decide +kernel
  rw [if_neg (by simpa using hlast)] at hblock
  rw [hrender, hblock, hshown]
  rfl

/-- Behind another segment without frames the line for elided ones follows the placeholder. -/
theorem missing_blocks_consecutive :
    (passedOn (.unavailable ⟨1⟩)).segments = [.unavailable ⟨1⟩, .unavailable ⟨2⟩] ∧
      blocks [] [.unavailable ⟨1⟩, .unavailable ⟨2⟩] = [[noStack], [noStack, elided]] ∧
      (passedOn (.unavailable ⟨1⟩)).render id =
        "\n".intercalate ["lost", separator, noStack, separator, noStack, elided] := by
  have hblocks :
      blocks [] [.unavailable ⟨1⟩, .unavailable ⟨2⟩] = [[noStack], [noStack, elided]] := by
    decide +kernel
  have hsegments :
      (passedOn (.unavailable ⟨1⟩)).segments = [.unavailable ⟨1⟩, .unavailable ⟨2⟩] := rfl
  refine ⟨hsegments, hblocks, ?_⟩
  rw [render_eq, hsegments, hblocks]
  rfl

end Trace

end Eventual
