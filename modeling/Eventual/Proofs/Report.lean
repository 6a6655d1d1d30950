import Eventual.Proofs.Elision
import Eventual.Trace.Render

/-!
# What a report of a failure shows

A report is the text of the error and one block for each segment of the chain, oldest first, each
behind a separator.  The block of a segment is its stack, abridged against the full stack of the
segment before it (`render_chain`).
-/

namespace Eventual.Trace

/-- The lines that stand for a segment: its frames without the empty ones at both ends, or the
placeholder if there is no frame to show. -/
inductive Shown (s : Segment) : List String → Prop
  /-- Some frame has text. -/
  | frames {lines : List String} (stripped : Elision.Stripped s.frames lines) (ne : lines ≠ []) :
      Shown s lines
  /-- No frame has text. -/
  | missing (blank : ∀ f ∈ s.frames, f = "") : Shown s [noStack]

/-- The blocks of the given stacks, each abridged against the stack before it; `previous` is the
stack before the first one. -/
inductive Abridgement : List String → List (List String) → List (List String) → Prop
  /-- There are no stacks. -/
  | nil {previous : List String} : Abridgement previous [] []
  /-- The first stack is abridged against the one before it, and the next against it in full. -/
  | cons {previous stack block : List String} {originals blocks : List (List String)}
      (first : Elision.Abridged previous stack elided block)
      (others : Abridgement stack originals blocks) :
      Abridgement previous (stack :: originals) (block :: blocks)

/-- Some frame has text if there is something left without the empty frames at both ends. -/
lemma isAvailable_iff {s : Segment} :
    s.isAvailable = true ↔ Elision.stripEmpty s.frames ≠ [] := by
  rw [Ne, (Elision.stripped_stripEmpty s.frames).eq_nil_iff, Segment.isAvailable,
    List.any_eq_true]
  simp

lemma shown_stackLines (s : Segment) : Shown s (stackLines s) := by
  have hstripped := Elision.stripped_stripEmpty s.frames
  rw [stackLines]
  split
  · rename_i h
    exact .frames hstripped (isAvailable_iff.mp h)
  · rename_i h
    exact .missing (hstripped.eq_nil_iff.mp (not_not.mp fun hne => h (isAvailable_iff.mpr hne)))

lemma Shown.ne_nil {s : Segment} {lines : List String} (h : Shown s lines) : lines ≠ [] := by
  cases h with
  | frames _ ne => exact ne
  | missing => simp

lemma abridgement_blocks (previous : List String) (segments : List Segment) :
    Abridgement previous (segments.map stackLines) (blocks previous segments) := by
  induction segments generalizing previous with
  | nil => exact .nil
  | cons s segments ih =>
    have hfirst := Elision.abridged_elide previous (stackLines s) elided
    exact .cons hfirst (ih (stackLines s))

lemma forall₂_shown (segments : List Segment) :
    List.Forall₂ Shown segments (segments.map stackLines) := by
  induction segments with
  | nil => exact .nil
  | cons s segments ih => exact .cons (shown_stackLines s) ih

lemma Abridgement.ne_nil {previous : List String} {originals blocks : List (List String)}
    (h : Abridgement previous originals blocks) (horiginals : ∀ stack ∈ originals, stack ≠ []) :
    ∀ block ∈ blocks, block ≠ [] := by
  induction h with
  | nil => simp
  | cons first _ ih =>
    intro block hblock
    rcases List.mem_cons.mp hblock with rfl | hblock
    · exact first.ne_nil (horiginals _ (.head _))
    · exact ih (fun stack hstack => horiginals stack (.tail _ hstack)) block hblock

/-- Nothing is left out of the first stack, since there is no stack before it. -/
lemma Abridgement.head_eq {originals blocks : List (List String)}
    (h : Abridgement [] originals blocks) : blocks.head? = originals.head? := by
  cases h with
  | nil => rfl
  | cons first =>
    cases first with
    | whole => rfl
    | cut _ shared =>
      have hnil := List.suffix_nil.mp shared.suffix_upper
      cases hnil

/-- Lines that are separated block by block are separated line by line. -/
lemma intercalate_flatMap {blocks : List (List String)} (h : ∀ b ∈ blocks, b ≠ []) (text : String) :
    "\n".intercalate (text :: blocks.flatMap fun b => [separator, "\n".intercalate b]) =
      "\n".intercalate (text :: blocks.flatMap fun b => separator :: b) := by
  induction blocks generalizing text with
  | nil => rfl
  | cons b blocks ih =>
    have hb : b ≠ [] := h b (.head blocks)
    have hrest := ih fun b' hb' => h b' (.tail b hb')
    -- the lines of the first block, and whatever comes behind it
    have hblock : "\n".intercalate
          ("\n".intercalate b :: blocks.flatMap fun b => [separator, "\n".intercalate b]) =
        "\n".intercalate (b ++ blocks.flatMap fun b => separator :: b) := by
      rw [hrest]
      cases blocks with
      | nil => simp
      | cons b' blocks =>
        have hne : (b' :: blocks).flatMap (fun b => separator :: b) ≠ [] := by simp
        rw [String.intercalate_cons_of_ne_nil hne, String.intercalate_append_of_ne_nil hb hne]
    have hne : b ++ blocks.flatMap (fun b => separator :: b) ≠ [] := by simp [hb]
    simp only [List.flatMap_cons, List.cons_append, List.nil_append]
    rw [String.intercalate_cons_cons, String.intercalate_cons_cons, hblock,
      String.intercalate_cons_cons, String.intercalate_cons_of_ne_nil hne]

/-! ## Reports whose lists are cut with a check -/

/-- The lines to show for a segment, cut with a check. -/
def stackLines? (s : Segment) : Option (List String) :=
  if s.isAvailable then Elision.stripEmpty? s.frames else some [noStack]

/-- The blocks of a report, cut with a check. -/
def blocks? (previous : List String) : List Segment → Option (List (List String))
  | [] => some []
  | s :: rest => do
    let current ← stackLines? s
    let block ← Elision.elide? previous current elided
    return block :: (← blocks? current rest)

lemma stackLines?_eq (s : Segment) : stackLines? s = some (stackLines s) := by
  rw [stackLines?, stackLines, Elision.stripEmpty?_eq]
  split <;> rfl

lemma blocks?_eq (previous : List String) (segments : List Segment) :
    blocks? previous segments = some (blocks previous segments) := by
  induction segments generalizing previous with
  | nil => rfl
  | cons s segments ih =>
    simp [blocks?, blocks, stackLines?_eq, Elision.elide?_eq, ih]

variable {E : Type}

/-- The report of a chain, cut with a check. -/
def render? (text : E → String) (t : Trace E) : Option String := do
  let blocks ← blocks? [] t.segments
  return "\n".intercalate (text t.error :: blocks.flatMap fun b => [separator, "\n".intercalate b])

/-- **A report shows every stack of the chain, abridged against the one before it.**  The segments
of the links, oldest first, each have a stack: their frames without the empty ones at both ends, or
the placeholder.  The lines of the report are the text of the newest error and then, for each stack,
the separator and a block, which is never empty.  The first block is the first stack, and every
later one is its stack abridged against the full stack before it.  No list is cut at a place that it
does not have. -/
theorem render_chain (text : E → String) (t : Trace E) :
    ∃ originals blocks : List (List String),
      List.Forall₂ Shown (t.links.filterMap Link.segment?) originals ∧
      blocks.head? = originals.head? ∧
      Abridgement [] originals blocks ∧
      (∀ block ∈ blocks, block ≠ []) ∧
      t.render text =
        "\n".intercalate (text t.head.error :: blocks.flatMap fun b => separator :: b) ∧
      t.render? text = some (t.render text) := by
  have hblocks := abridgement_blocks [] t.segments
  have hne : ∀ block ∈ blocks [] t.segments, block ≠ [] := by
    refine hblocks.ne_nil fun stack hstack => ?_
    obtain ⟨s, -, rfl⟩ := List.mem_map.mp hstack
    exact (shown_stackLines s).ne_nil
  refine ⟨t.segments.map stackLines, blocks [] t.segments, forall₂_shown t.segments,
    hblocks.head_eq, hblocks, hne, intercalate_flatMap hne _, ?_⟩
  simp [render?, render, blocks?_eq]

/-- A stack that could not be kept stands between two that share their outermost frame; the last one
is abridged against the one right before it. -/
example :
    blocks [] [⟨⟨1⟩, ["", "  dial", "  main"]⟩, ⟨⟨2⟩, []⟩, ⟨⟨3⟩, ["  log in", "  main"]⟩,
        ⟨⟨4⟩, ["  show", "  main", ""]⟩] =
      [["  dial", "  main"], [noStack], ["  log in", "  main"],
        ["  show", "  main", "  " ++ elided]] := by
  cbv

end Eventual.Trace
