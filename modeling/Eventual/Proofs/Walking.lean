import Eventual.Proofs.Trimming
import Eventual.Stack.Collector
import Mathlib.Data.List.Infix
import Mathlib.Tactic.Common

/-!
# What a walk of the stack gathers

The frames that a walk meets begin with a run of internal ones (`LeadingRun`).  A collector leaves
out this run and keeps the lines of all frames behind it, until it has as many as it wants.  Its
state depends only on the frames that it has been offered (`Collector.having`), and one more offer
adds one frame to these (`Collector.offer_having`); the course of a whole walk follows by induction
on the frames that are left.
-/

namespace Eventual

/-! ## Internal frames -/

/-- The symbol of a frame is known, and behind the angle brackets in front of it stands one of the
given strings. -/
def Frame.Internal (starts : List String) (f : Frame) : Prop :=
  ∃ (symbol : String) (brackets : Nat) (bare : List Char), f.symbol? = some symbol ∧
    symbol.toList = List.replicate brackets '<' ++ bare ∧ bare.head? ≠ some '<' ∧
    ∃ s ∈ starts, s.toList <+: bare

lemma Frame.isInternal_iff {starts : List String} {f : Frame} :
    f.isInternal starts = true ↔ f.Internal starts := by
  rw [isInternal, Option.any_eq_true]
  constructor
  · rintro ⟨symbol, hsymbol, hstarts⟩
    obtain ⟨s, hs, hbare⟩ := List.any_eq_true.mp hstarts
    refine ⟨symbol, (symbol.toList.takeWhile (· == '<')).length, _, hsymbol, ?_, ?_, s, hs,
      List.isPrefixOf_iff_prefix.mp hbare⟩
    · have hbrackets : symbol.toList.takeWhile (· == '<') =
          List.replicate (symbol.toList.takeWhile (· == '<')).length '<' := by
        apply List.eq_replicate_of_mem
        intro c hc
        simpa using List.mem_takeWhile_imp hc
      rw [← hbrackets, List.takeWhile_append_dropWhile]
    · intro hhead
      have hbracket := eq_false_of_head?_dropWhile hhead
      cases hbracket
  · rintro ⟨symbol, brackets, bare, hsymbol, hsplit, hhead, s, hs, hbare⟩
    refine ⟨symbol, hsymbol, List.any_eq_true.mpr ⟨s, hs, ?_⟩⟩
    have hdrop : symbol.toList.dropWhile (· == '<') = bare := by
      rw [hsplit]
      apply dropWhile_append
      · intro c hc
        simpa using List.eq_of_mem_replicate hc
      · intro c hc
        rw [hc] at hhead
        simpa using hhead
    rw [hdrop]
    exact List.isPrefixOf_iff_prefix.mpr hbare

/-- `run` is the longest run of internal frames at the front of a list. -/
structure LeadingRun (starts : List String) (frames run : List Frame) : Prop where
  leads : run <+: frames
  internal : ∀ f ∈ run, f.Internal starts
  longest : ∀ fs, fs <+: frames → (∀ f ∈ fs, f.Internal starts) → fs.length ≤ run.length

/-- Frames that do not begin with an internal one are all behind the run. -/
lemma leadingRun_nil {starts : List String} {frames : List Frame}
    (h : ∀ f, frames.head? = some f → ¬ f.Internal starts) : LeadingRun starts frames [] where
  leads := List.nil_prefix
  internal := by simp
  longest fs hfs hinternal := by
    cases fs with
    | nil => simp
    | cons f fs =>
      obtain ⟨frames', rfl, -⟩ := List.cons_prefix_iff.mp hfs
      exact absurd (hinternal f (.head fs)) (h f rfl)

lemma exists_leadingRun (starts : List String) (frames : List Frame) :
    ∃ run rest, frames = run ++ rest ∧ LeadingRun starts frames run := by
  refine ⟨frames.takeWhile fun f => f.isInternal starts, _,
    List.takeWhile_append_dropWhile.symm, List.takeWhile_prefix _, ?_, ?_⟩
  · intro f hf
    exact Frame.isInternal_iff.mp (List.mem_takeWhile_imp hf)
  · rintro fs ⟨later, rfl⟩ hinternal
    have hall : ∀ f ∈ fs, f.isInternal starts = true := by
      intro f hf
      exact Frame.isInternal_iff.mpr (hinternal f hf)
    rw [List.takeWhile_append_of_pos hall, List.length_append]
    exact Nat.le_add_right _ _

namespace LeadingRun

variable {starts : List String} {frames run rest seen : List Frame}

/-- The frames seen first are all internal as long as the run has not been left. -/
lemma all_internal_iff (h : LeadingRun starts frames run) (hseen : seen <+: frames) :
    (∀ f ∈ seen, f.Internal starts) ↔ seen.length ≤ run.length := by
  constructor
  · exact h.longest seen hseen
  · intro hle f hf
    exact h.internal f ((List.prefix_of_prefix_length_le hseen h.leads hle).mem hf)

lemma all_isInternal (h : LeadingRun starts frames run) (hseen : seen <+: frames) :
    (seen.all fun f => f.isInternal starts) = decide (seen.length ≤ run.length) := by
  rw [Bool.eq_iff_iff, List.all_eq_true, decide_eq_true_iff, ← h.all_internal_iff hseen]
  simp only [Frame.isInternal_iff]

/-- Behind the run no frame is left out, not even an internal one. -/
lemma dropWhile_eq (h : LeadingRun starts frames run) (split : frames = run ++ rest)
    (hseen : seen <+: frames) :
    (seen.dropWhile fun f => f.isInternal starts) = rest.take (seen.length - run.length) := by
  rcases Nat.le_total seen.length run.length with hle | hle
  · have hall := (h.all_internal_iff hseen).mpr hle
    rw [Nat.sub_eq_zero_of_le hle, List.take_zero, List.dropWhile_eq_nil_iff]
    exact fun f hf => Frame.isInternal_iff.mpr (hall f hf)
  · obtain ⟨later, rfl⟩ := List.prefix_of_prefix_length_le h.leads hseen hle
    have hlater : later <+: rest := by
      rw [split] at hseen
      exact (List.prefix_append_right_inj run).mp hseen
    have hdrop : (run ++ later).dropWhile (fun f => f.isInternal starts) = later := by
      apply dropWhile_append
      · exact fun f hf => Frame.isInternal_iff.mpr (h.internal f hf)
      · -- an internal frame right behind the run would make it longer
        intro f hf
        by_contra hinternal
        obtain ⟨later, rfl⟩ : ∃ later', later = f :: later' := by
          cases later with
          | nil => cases hf
          | cons f' later =>
            cases hf
            exact ⟨later, rfl⟩
        have hlonger : run ++ [f] <+: frames :=
          List.IsPrefix.trans ⟨later, by simp⟩ hseen
        have hle := h.longest (run ++ [f]) hlonger fun f' hf' => by
          rcases List.mem_append.mp hf' with hf' | hf'
          · exact h.internal f' hf'
          · rw [List.mem_singleton.mp hf']
            exact Frame.isInternal_iff.mp (by simpa using hinternal)
        rw [List.length_append, List.length_singleton] at hle
        omega
    rw [hdrop, List.length_append, Nat.add_sub_cancel_left]
    exact List.prefix_iff_eq_take.mp hlater

end LeadingRun

namespace Collector

variable {starts : List String} {limit : FrameLimit} {frames run rest seen fs : List Frame}
  {f : Frame}

/-! ## One offer -/

/-- The collector after all of some frames have been offered, whatever it answered. -/
def offered (c : Collector) (fs : List Frame) : Collector :=
  fs.foldl (fun c f => (c.offer f).2) c

lemma offered_concat (c : Collector) (fs : List Frame) (f : Frame) :
    c.offered (fs ++ [f]) = ((c.offered fs).offer f).2 := by
  simp [offered]

/-- A collector that has been offered the given frames: it skips if they are all internal, and it
has kept the lines of those behind the run that they begin with. -/
def having (starts : List String) (limit : FrameLimit) (seen : List Frame) : Collector where
  internal := starts
  limit := limit
  skipping := seen.all fun f => f.isInternal starts
  lines := (seen.dropWhile fun f => f.isInternal starts).map Frame.line

lemma having_nil (starts : List String) (limit : FrameLimit) :
    having starts limit [] = start starts limit := rfl

/-- **One more frame has been offered**, and more are wanted as long as there is room. -/
lemma offer_having (starts : List String) (limit : FrameLimit) (seen : List Frame) (f : Frame) :
    (having starts limit seen).offer f =
      (decide ((having starts limit (seen ++ [f])).lines.length < limit.value),
        having starts limit (seen ++ [f])) := by
  by_cases hall : (seen.all fun f => f.isInternal starts) = true
  · have hdrop : (seen.dropWhile fun f => f.isInternal starts) = [] :=
      List.dropWhile_eq_nil_iff.mpr (List.all_eq_true.mp hall)
    by_cases hf : f.isInternal starts = true
    · simp [offer, having, hall, hf, hdrop, List.dropWhile_append, limit.pos]
    · simp [offer, having, hall, hf, hdrop, List.dropWhile_append]
  · have hdrop : (seen.dropWhile fun f => f.isInternal starts).isEmpty = false := by
      rw [List.isEmpty_eq_false_iff, Ne, List.dropWhile_eq_nil_iff]
      exact fun hinternal => hall (List.all_eq_true.mpr hinternal)
    simp [offer, having, hall, hdrop, List.dropWhile_append]

lemma offered_start (starts : List String) (limit : FrameLimit) (seen : List Frame) :
    (start starts limit).offered seen = having starts limit seen := by
  induction seen using List.reverseRecOn with
  | nil => rfl
  | append_singleton seen f ih => rw [offered_concat, ih, offer_having]

/-! ## A whole walk -/

section

variable (limit) (h : LeadingRun starts frames run) (split : frames = run ++ rest)
include h split

lemma lines_having (hseen : seen <+: frames) : (having starts limit seen).lines =
    (rest.take (seen.length - run.length)).map Frame.line := by
  rw [having, h.dropWhile_eq split hseen]

lemma length_lines_having (hseen : seen <+: frames) :
    (having starts limit seen).lines.length = seen.length - run.length := by
  have hle := hseen.length_le
  rw [split, List.length_append] at hle
  rw [lines_having limit h split hseen, List.length_map, List.length_take]
  omega

/-- More frames are wanted until the run and as many frames behind it as there is room for have been
offered. -/
lemma wanted_iff (hseen : seen ++ [f] <+: frames) :
    (having starts limit (seen ++ [f])).lines.length < limit.value ↔
      seen.length + 1 < run.length + limit.value := by
  have hpos := limit.pos
  rw [length_lines_having limit h split hseen, List.length_append, List.length_singleton]
  omega

/-- A walk over the frames that are left ends when there is no room any more. -/
lemma walk_having (hframes : frames = seen ++ fs)
    (room : seen.length < run.length + limit.value) :
    (having starts limit seen).walk fs =
      having starts limit (frames.take (run.length + limit.value)) := by
  induction fs generalizing seen with
  | nil =>
    rw [List.append_nil] at hframes
    rw [walk, List.take_of_length_le (hframes ▸ room.le), hframes]
  | cons f fs ih =>
    have hnext : frames = (seen ++ [f]) ++ fs := by simp [hframes]
    have hwanted := wanted_iff limit h split ⟨fs, hnext.symm⟩
    rw [walk, offer_having]
    by_cases hmore : seen.length + 1 < run.length + limit.value
    · rw [if_pos (decide_eq_true (hwanted.mpr hmore))]
      exact ih hnext (by simpa using hmore)
    · have hlast : run.length + limit.value = (seen ++ [f]).length := by
        rw [List.length_append, List.length_singleton]
        omega
      rw [if_neg (by simpa [hwanted] using hmore), hlast]
      conv_rhs => rw [hnext, List.take_left]

/-- The offers of a walk over the frames that are left. -/
lemma course_having (hframes : frames = seen ++ fs)
    (room : seen.length < run.length + limit.value) (n : Nat) :
    ((having starts limit seen).course fs).1[n]? =
      if seen.length + n < frames.length ∧ seen.length + n < run.length + limit.value then
        some ⟨decide (seen.length + n + 1 < run.length + limit.value),
          decide (seen.length + n < run.length)⟩
      else none := by
  induction fs generalizing seen n with
  | nil =>
    have hlength : frames.length = seen.length := by simp [hframes]
    rw [if_neg (by omega)]
    rfl
  | cons f fs ih =>
    have hnext : frames = (seen ++ [f]) ++ fs := by simp [hframes]
    have hlt : seen.length < frames.length := by simp [hframes]
    have hwanted := wanted_iff limit h split ⟨fs, hnext.symm⟩
    have hskip : (having starts limit (seen ++ [f])).skipping =
        decide (seen.length < run.length) := by
      rw [having, h.all_isInternal ⟨fs, hnext.symm⟩, List.length_append, List.length_singleton]
      rfl
    rw [course, offer_having]
    by_cases hmore : seen.length + 1 < run.length + limit.value
    · simp only [hwanted.mpr hmore, decide_true, if_true, hskip]
      cases n with
      | zero => simp [hlt, room, hmore]
      | succ n =>
        have hrest := ih hnext (by simpa using hmore) n
        rw [List.length_append, List.length_singleton, Nat.add_right_comm, Nat.add_assoc] at hrest
        rw [List.getElem?_cons_succ, hrest]
    · simp only [hwanted, hmore, decide_false, Bool.false_eq_true, if_false, hskip]
      cases n with
      | zero => simp [hlt, room, hmore]
      | succ n =>
        rw [if_neg (by omega)]
        rfl

/-- **What a walk gathers**: the lines of the frames behind the run, as many as there is room
for. -/
lemma gather_eq : gather starts limit frames = (rest.map Frame.line).take limit.value := by
  have hwalk := walk_having limit h split (List.nil_append frames).symm
    (Nat.add_pos_right run.length limit.pos)
  have hlines := lines_having limit h split
    (List.take_prefix (run.length + limit.value) frames)
  rw [gather, ← having_nil, hwalk, hlines, ← List.map_take, split, List.length_take,
    List.length_append]
  congr 1
  rw [List.take_eq_take_iff]
  omega

/-- After any number of offers of a walk the collector skips if only the run has been offered, and
it has kept the lines of all frames behind it. -/
lemma state_of_offered (hseen : seen <+: frames)
    (room : seen.length ≤ run.length + limit.value) :
    (((start starts limit).offered seen).skipping = true ↔ seen <+: run) ∧
      ((start starts limit).offered seen).lines =
        (rest.map Frame.line).take (seen.length - run.length) ∧
      ((start starts limit).offered seen).lines.length ≤ limit.value := by
  rw [offered_start]
  refine ⟨?_, ?_, ?_⟩
  · rw [having, h.all_isInternal hseen, decide_eq_true_iff]
    constructor
    · exact List.prefix_of_prefix_length_le hseen h.leads
    · exact fun hrun => hrun.length_le
  · rw [lines_having limit h split hseen, List.map_take]
  · rw [length_lines_having limit h split hseen]
    omega

/-- The offer that is refused is the one that keeps the last line there is room for. -/
lemma refused_iff (hseen : seen ++ [f] <+: frames)
    (room : seen.length < run.length + limit.value) :
    (((start starts limit).offered seen).offer f).1 = false ↔
      (((start starts limit).offered seen).offer f).2.lines.length = limit.value := by
  have hlength := length_lines_having limit h split hseen
  rw [List.length_append, List.length_singleton] at hlength
  rw [offered_start, offer_having, decide_eq_false_iff_not]
  show _ ↔ (having starts limit (seen ++ [f])).lines.length = limit.value
  omega

end

/-- **What a walk of the stack gathers.**  The frames begin with a longest run of internal ones.  Of
the frames behind it the lines are gathered in their order, as many as are wanted, whether the
frames are internal or have a symbol or not.  The frames of the run and as many behind it are
offered, as far as there are so many, and no other; all these offers are answered yes but the one
that keeps the last line that is wanted.  After every offer the collector skips exactly if only
frames of the run have been offered, and it has no more lines than are wanted. -/
theorem gathers_behind_run (starts : List String) (limit : FrameLimit) (frames : List Frame) :
    ∃ run rest, frames = run ++ rest ∧ LeadingRun starts frames run ∧
      gather starts limit frames = (rest.map Frame.line).take limit.value ∧
      (∀ n, ((start starts limit).course frames).1[n]? =
        if n < frames.length ∧ n < run.length + limit.value then
          some ⟨decide (n + 1 < run.length + limit.value), decide (n < run.length)⟩
        else none) ∧
      (∀ seen f, seen ++ [f] <+: frames → seen.length < run.length + limit.value →
        ((((start starts limit).offered seen).offer f).1 = false ↔
          (((start starts limit).offered seen).offer f).2.lines.length = limit.value)) ∧
      ∀ seen, seen <+: frames → seen.length ≤ run.length + limit.value →
        (((start starts limit).offered seen).skipping = true ↔ seen <+: run) ∧
          ((start starts limit).offered seen).lines =
            (rest.map Frame.line).take (seen.length - run.length) ∧
          ((start starts limit).offered seen).lines.length ≤ limit.value := by
  obtain ⟨run, rest, split, h⟩ := exists_leadingRun starts frames
  refine ⟨run, rest, split, h, gather_eq limit h split, ?_, ?_, ?_⟩
  · intro n
    have hcourse := course_having limit h split (List.nil_append frames).symm
      (Nat.add_pos_right run.length limit.pos) n
    simpa [having_nil] using hcourse
  · intro seen f hseen room
    exact refused_iff limit h split hseen room
  · intro seen hseen room
    exact state_of_offered limit h split hseen room

/-- An internal frame is left out in front of the others, and kept behind them. -/
example :
    gather ["trace::"] ⟨3, by decide, by decide⟩
      [⟨some "<trace::Walk as Walk>::next", "  next"⟩, ⟨none, "  ?"⟩, ⟨some "trace::late", "  late"⟩,
        ⟨some "main", "  main"⟩, ⟨some "start", "  start"⟩] = ["  ?", "  late", "  main"] := by
  decide +kernel

end Collector

end Eventual
