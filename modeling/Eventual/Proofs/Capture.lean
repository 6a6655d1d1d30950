import Eventual.Proofs.Delivery
import Eventual.Proofs.Lockstep
import Eventual.Proofs.SessionLikeness
import Eventual.Proofs.Walking
import Eventual.Trace.Render

/-!
# Capturing stacks has no influence

A program runs once without captured stacks and once with them.  If it does not look at stacks, no
difference can be observed but the stacks themselves (`Machine.Agrees`): at every moment the same
can be read in both runs, and the same happens next (`Machine.SameNext`).  With captured stacks
every promise has a segment, and so has every link of a trace; without them a promise has one only
if it was given, and what is left of a trace is the text of its error.
-/

namespace Eventual

variable {P : Payload}

/-! ## The stacks of the two runs -/

/-- In the second run there is a stack; in the first one only a given one. -/
def Segment.kept (given : Segment → Prop) (s s' : Option Segment) : Prop :=
  s'.isSome = true ∧ ∀ x, s = some x → given x

lemma Segment.kept_none_some {given : Segment → Prop} (s : Segment) : kept given none (some s) :=
  ⟨rfl, fun _ h => nomatch h⟩

namespace Collector

/-- No more lines are gathered than are wanted. -/
theorem length_gather_le (internal : List String) (limit : FrameLimit) (fs : List Frame) :
    (gather internal limit fs).length ≤ limit.value := by
  obtain ⟨run, rest, split, hrun⟩ := exists_leadingRun internal fs
  rw [gather_eq limit hrun split]
  exact List.length_take_le _ _

/-- **Whatever lines there is room for, some walk gathers them**: frames without a symbol are all
kept. -/
theorem exists_gather_eq (internal : List String) (limit : FrameLimit) (lines : List String)
    (h : lines.length ≤ limit.value) : ∃ fs, gather internal limit fs = lines := by
  refine ⟨lines.map (Frame.mk none), ?_⟩
  have hrun : LeadingRun internal (lines.map (Frame.mk none)) [] := by
    apply leadingRun_nil
    rintro f hf ⟨symbol, -, -, hsymbol, -⟩
    obtain ⟨line, -, rfl⟩ := List.mem_map.mp (List.mem_of_mem_head? hf)
    cases hsymbol
  have hlines : (lines.map (Frame.mk none)).map Frame.line = lines := by
    rw [List.map_map]
    exact List.map_id lines
  rw [gather_eq limit hrun rfl, hlines, List.take_of_length_le h]

end Collector

namespace Trace

variable {E : Type} {t t' : Trace E} {given : Segment → Prop}

/-- If every link has a segment there are as many segments as links. -/
lemma length_segments_of_forall (h : ∀ l ∈ t.links, l.segment?.isSome = true) :
    t.segments.length = t.depth := by
  rw [segments, ← length_links]
  generalize t.links = ls at h
  induction ls with
  | nil => rfl
  | cons l ls ih =>
    obtain ⟨s, hs⟩ := Option.isSome_iff_exists.mp (h l (.head ls))
    rw [List.filterMap_cons_some hs, List.length_cons, List.length_cons,
      ih fun l' hl' => h l' (.tail l hl')]

/-- If no link has a segment, the report is the text of the error alone. -/
theorem render_of_forall_none (h : ∀ l ∈ t.links, l.segment? = none) (text : E → String) :
    t.render text = text t.error := by
  have hsegments : t.segments = [] := List.filterMap_eq_nil_iff.mpr h
  rw [render, hsegments]
  rfl

/-- Without captured stacks the segments of the links were given; with captured stacks, every link
has one. -/
lemma Alike.kept (h : t.Alike (Segment.kept given) t') :
    (∀ l ∈ t.links, ∀ s, l.segment? = some s → given s) ∧
      ∀ l ∈ t'.links, l.segment?.isSome = true := by
  have hlinks := h.links
  generalize t.links = ls at hlinks ⊢
  generalize t'.links = ls' at hlinks ⊢
  induction hlinks with
  | nil => simp
  | cons hl _ ih =>
    simp only [List.forall_mem_cons]
    exact ⟨⟨hl.segment.2, ih.1⟩, hl.segment.1, ih.2⟩

end Trace

/-! ## What can be observed -/

/-- Two operations ask for the same, and what they hand over is alike. -/
def Op.Resembles (L : Likeness P) : {ρ : Type} → Op P ρ → Op P ρ → Prop
  | _, observe p ob, o' => ∃ ob', o' = .observe p ob' ∧ ob.Alike L ob'
  | _, schedule delay body, o' => ∃ body', o' = .schedule delay body' ∧ body.Alike L Eq body'
  | _, openRetry result interval thunk onError, o' => ∃ thunk' onError',
      o' = .openRetry result interval thunk' onError' ∧
      (∀ n, (thunk n).Alike L Eq (thunk' n)) ∧
      ∀ t t', t.Alike L.segment t' → (onError t).Alike L Eq (onError' t')
  | _, o, o' => o.Alike L o'

namespace Machine

/-- The same happens next in two machines. -/
inductive SameNext (L : Likeness P) : Machine P → Machine P → Prop
  /-- Nothing is under way. -/
  | halted (w w' : World P) : SameNext L ⟨w, []⟩ ⟨w', []⟩
  /-- A script is over. -/
  | finish {w w' : World P} {rest rest' : List (Activity P)} :
      SameNext L ⟨w, .script (.pure ()) :: rest⟩ ⟨w', .script (.pure ()) :: rest'⟩
  /-- The same operation is carried out, with the same answer. -/
  | operate {w w' w₁ w₁' : World P} {ρ : Type} {o o' : Op P ρ} {k k' : ρ → Script P Unit} {r r' : ρ}
      {rest rest' : List (Activity P)} (resembles : o.Resembles L o')
      (performed : w.perform o = .answer r w₁) (performed' : w'.perform o' = .answer r' w₁')
      (answers : o.Answers L r r') :
      SameNext L ⟨w, .script (.op o k) :: rest⟩ ⟨w', .script (.op o' k') :: rest'⟩
  /-- The same operation lacks an instant. -/
  | overflow {w w' w₁ w₁' : World P} {ρ : Type} {o o' : Op P ρ} {k k' : ρ → Script P Unit}
      {rest rest' : List (Activity P)} (resembles : o.Resembles L o')
      (performed : w.perform o = .overflow w₁) (performed' : w'.perform o' = .overflow w₁') :
      SameNext L ⟨w, .script (.op o k) :: rest⟩ ⟨w', .script (.op o' k') :: rest'⟩
  /-- The clock is driven to the same instant, or in vain. -/
  | drive {w w' : World P} {k k' : Nat → Script P Unit} {rest rest' : List (Activity P)} (d : Drive)
      (horizon : d.horizon? w.clock = d.horizon? w'.clock) :
      SameNext L ⟨w, .script (.drive d k) :: rest⟩ ⟨w', .script (.drive d k') :: rest'⟩
  /-- An attempt of the same retry loop is made. -/
  | attempt {w w' : World P} {k k' : Script P Unit} {rest rest' : List (Activity P)} (r : RetryId) :
      SameNext L ⟨w, .script (.attempt r k) :: rest⟩ ⟨w', .script (.attempt r k') :: rest'⟩
  /-- A delivery is over. -/
  | delivered {w w' : World P} {o o' : Outcome P.Value P.Error} {rest rest' : List (Activity P)}
      (p : PromiseId) : SameNext L ⟨w, .delivery p o [] :: rest⟩ ⟨w', .delivery p o' [] :: rest'⟩
  /-- The same observer is told the same, or left out. -/
  | tell {w w' : World P} {o o' : Outcome P.Value P.Error} {r r' : Registration P}
      {rs rs' : List (Registration P)} {rest rest' : List (Activity P)} (p : PromiseId)
      (outcome : o.Alike L.segment o') (number : r.number = r'.number)
      (awaits : r.observer.awaits o = r'.observer.awaits o') :
      SameNext L ⟨w, .delivery p o (r :: rs) :: rest⟩ ⟨w', .delivery p o' (r' :: rs') :: rest'⟩
  /-- The same task is started. -/
  | start {w w' : World P} {k k' : Nat → Script P Unit} {t t' : Task (Work P)}
      {q q' : Queue (Work P)}
      {rest rest' : List (Activity P)} (h : Horizon) (ran : Nat)
      (taken : w.queue.next? h = some (t, q)) (taken' : w'.queue.next? h = some (t', q'))
      (due : t.due = t'.due) (turn : t.turn = t'.turn) :
      SameNext L ⟨w, .drive h ran k :: rest⟩ ⟨w', .drive h ran k' :: rest'⟩
  /-- A drive is over that has run the same number of tasks. -/
  | driven {w w' : World P} {k k' : Nat → Script P Unit} {rest rest' : List (Activity P)}
      (h : Horizon) (ran : Nat) (nothing : w.queue.next? h = none)
      (nothing' : w'.queue.next? h = none) :
      SameNext L ⟨w, .drive h ran k :: rest⟩ ⟨w', .drive h ran k' :: rest'⟩

/-- No difference between two machines can be observed: the clock, the number of tasks that wait,
and what can be read of promises are the same, except for stacks; the same has been reported and
noted; and the same happens next. -/
structure Agrees (L : Likeness P) (m m' : Machine P) : Prop where
  clock_eq : m.world.clock = m'.world.clock
  pending_eq : m.world.pending = m'.world.pending
  size_eq : m.world.promises.size = m'.world.promises.size
  state_eq : ∀ p, (m.world.view p).state = (m'.world.view p).state
  result?_eq : ∀ p, (m.world.view p).result? = (m'.world.view p).result?
  trace? : ∀ p, Option.Rel (Trace.Alike L.segment) (m.world.view p).trace? (m'.world.view p).trace?
  links : ∀ p t t', (m.world.view p).trace? = some t → (m'.world.view p).trace? = some t' →
    t.depth = t'.depth ∧ t.links.map Link.error = t'.links.map Link.error
  journal : List.Forall₂ (Entry.Alike L) m.world.common m'.world.common
  next : m.SameNext L m'

/-- A trace can be read of a promise, or is on its way to observers. -/
def Shows (m : Machine P) (t : Trace P.Error) : Prop :=
  (∃ p, (m.world.view p).trace? = some t) ∨ ∃ p rs, m.Delivers p (.failed t) rs

variable {L : Likeness P} {m m' : Machine P}

lemma Truthful.exists_trace? (hm : m.Truthful) {t : Trace P.Error} (h : m.Shows t) :
    ∃ p, (m.world.view p).trace? = some t := by
  rcases h with h | ⟨p, rs, h⟩
  · exact h
  · exact ⟨p, View.outcome?_eq_failed_iff.mp (hm p _ rs h).1⟩

end Machine

namespace Program

/-- **No difference between two runs can be observed** at any moment, and one lasts as long as the
other. -/
structure Indistinguishable (L : Likeness P) (off on : Program P) : Prop where
  lasts : ∀ n, (off.moment n).isSome = (on.moment n).isSome
  agrees : ∀ n m m', off.moment n = some m → on.moment n = some m' → m.Agrees L m'

/-- A promise is made at this moment, and then it has this stack. -/
def Makes (prog : Program P) (n : Nat) (w : World P) (segment? : Option Segment) : Prop :=
  (∃ k rest, prog.moment n = some ⟨w, .script (.op .create k) :: rest⟩) ∧
    ∃ w', w.perform .create = .answer ⟨w.promises.size⟩ w' ∧
      (w'.view ⟨w.promises.size⟩).segment? = segment?

/-- **Every promise has a segment**, and so has every link of a trace.  A promise that is made
gets the frames that the walk of its stack meets, no more than are wanted; if there are none its
segment stands for that. -/
structure Traced (prog : Program P) : Prop where
  makes : ∀ n w segment?, prog.Makes n w segment? →
    let frames := Collector.gather w.internal w.settings.maxFrames (w.walks w.captures)
    frames.length ≤ w.settings.maxFrames.value ∧ ∃ id, segment? = some ⟨id, frames⟩ ∧
      (frames = [] → segment? = some (.unavailable id))
  segment : ∀ n m p, prog.moment n = some m → p.index < m.world.promises.size →
    ∃ s, (m.world.view p).segment? = some s
  trace : ∀ n m t, prog.moment n = some m → m.Shows t → t.segments.length = t.depth

/-- **Only given segments are there**: a promise that is made has none.  If no link of a trace has a
given segment, the report of the trace is the text of its error. -/
structure Untraced (given : Segment → Prop) (prog : Program P) : Prop where
  makes : ∀ n w segment?, prog.Makes n w segment? → segment? = none
  segment : ∀ n m p s, prog.moment n = some m → (m.world.view p).segment? = some s → given s
  trace : ∀ n m t, prog.moment n = some m → m.Shows t →
    ∀ l ∈ t.links, ∀ s, l.segment? = some s → given s
  render : ∀ n m t, prog.moment n = some m → m.Shows t →
    (∀ l ∈ t.links, ∀ s, l.segment? = some s → ¬ given s) →
    ∀ text : P.Error → String, t.render text = text t.error

end Program

/-! ## Machines that are alike agree -/

section

variable {L : Likeness P} {w w' : World P} {rest rest' : List (Activity P)}

namespace Machine

lemma sameNext_operate {ρ : Type} {o o' : Op P ρ} {k k' : ρ → Script P Unit}
    (resembles : o.Resembles L o') (h : (w.perform o).Alike L (o.Answers L) (w'.perform o')) :
    SameNext L ⟨w, .script (.op o k) :: rest⟩ ⟨w', .script (.op o' k') :: rest'⟩ := by
  generalize hx : w.perform o = x at h
  generalize hx' : w'.perform o' = x' at h
  cases h with
  | answer hr => exact .operate resembles hx hx' hr
  | overflow => exact .overflow resembles hx hx'

/-- The same is carried out by scripts that are alike. -/
lemma sameNext_script (captured : ∀ s, L.segment none (some s)) (hw : w.Alike L w')
    {s s' : Script P Unit} (hs : s.Alike L Eq s') :
    SameNext L ⟨w, .script s :: rest⟩ ⟨w', .script s' :: rest'⟩ := by
  cases hs with
  | pure => exact .finish
  | @op _ _ _ o o' _ _ alike _ =>
    -- an operation that hands nothing over
    have hresembles : o.Resembles L o' := by
      cases o with
      | observe | schedule | openRetry => exact alike.elim
      | _ => exact alike
    exact sameNext_operate hresembles (hw.perform captured alike)
  | @observe _ _ p ob ob' k k' awaits callbacks hk =>
    exact sameNext_operate ⟨ob', rfl, awaits, callbacks⟩
      (.answer rfl (hw.observe p ⟨awaits, callbacks⟩))
  | @schedule _ _ delay body body' k k' task hk =>
    exact sameNext_operate ⟨body', rfl, task⟩ (hw.schedule delay task)
  | @openRetry _ _ result interval thunk thunk' onError onError' k k' thunks callbacks hk =>
    exact sameNext_operate ⟨thunk', onError', rfl, thunks, callbacks⟩
      (hw.openRetry result interval thunks callbacks)
  | drive d hk => exact .drive d (congrArg (d.horizon? ·) hw.clock_eq)
  | attempt r loops hk => exact .attempt r

/-- Two drives start the same task, or none. -/
lemma sameNext_drive (hw : w.Alike L w') (h : Horizon) (ran : Nat) (k k' : Nat → Script P Unit) :
    SameNext L ⟨w, .drive h ran k :: rest⟩ ⟨w', .drive h ran k' :: rest'⟩ := by
  have hwaiting := hw.queue.waiting
  generalize hts : w.queue.waiting = ts at hwaiting
  generalize hts' : w'.queue.waiting = ts' at hwaiting
  cases hwaiting with
  | nil =>
    refine .driven h ran ?_ ?_
    · rw [Queue.next?, hts]
    · rw [Queue.next?, hts']
  | @cons t t' ts ts' ht _ =>
    by_cases hadmits : h.admits t.due = true
    · have hadmits' : h.admits t'.due = true := ht.due_eq ▸ hadmits
      have hnext : w.queue.next? h = some (t, { w.queue with waiting := ts }) :=
        Queue.next?_eq_some_iff.mpr ⟨hts, hadmits, rfl⟩
      have hnext' : w'.queue.next? h = some (t', { w'.queue with waiting := ts' }) :=
        Queue.next?_eq_some_iff.mpr ⟨hts', hadmits', rfl⟩
      exact .start h ran hnext hnext' ht.due_eq ht.turn_eq
    · have hadmits' : ¬ h.admits t'.due = true := ht.due_eq ▸ hadmits
      refine .driven h ran ?_ ?_
      · rw [Queue.next?, hts]
        exact if_neg hadmits
      · rw [Queue.next?, hts']
        exact if_neg hadmits'

/-- **The same happens next in machines that are alike.** -/
theorem Alike.sameNext {m m' : Machine P} (captured : ∀ s, L.segment none (some s))
    (hm : m.Alike L m') : m.SameNext L m' := by
  obtain ⟨w, stack⟩ := m
  obtain ⟨w', stack'⟩ := m'
  obtain ⟨hw, hstack⟩ := hm
  dsimp only at hw hstack
  cases hstack with
  | nil => exact .halted w w'
  | cons hx hrest =>
    cases hx with
    | script hs => exact sameNext_script captured hw hs
    | drive h ran hk => exact sameNext_drive hw h ran _ _
    | delivery p ho hrs =>
      cases hrs with
      | nil => exact .delivered p
      | cons hr hrs => exact .tell p ho hr.number_eq (hr.observer.awaits _ _ ho)

lemma Alike.agrees {m m' : Machine P} (captured : ∀ s, L.segment none (some s))
    (hm : m.Alike L m') : m.Agrees L m' where
  clock_eq := hm.world.clock_eq
  pending_eq := hm.world.pending_eq
  size_eq := hm.world.promises.size_eq
  state_eq p := (hm.world.view p).state_eq
  result?_eq p := (hm.world.view p).result?_eq
  trace? p := (hm.world.view p).trace?
  links p t t' ht ht' := by
    have htrace := (hm.world.view p).trace?
    rw [ht, ht'] at htrace
    cases htrace with
    | some halike => exact ⟨halike.depth_eq, Link.map_error_eq halike.links⟩
  journal := hm.world.journal
  next := hm.sameNext captured

end Machine

end

/-! ## Promises that are made -/

lemma Promise.segment?_view (a : Promise P) : a.view.segment? = a.segment? := by
  rw [view]
  split <;> rfl

namespace World

variable {w w' : World P} {segment? : Option Segment}

lemma segment?_of_create (h : w.perform .create = .answer ⟨w.promises.size⟩ w') :
    (w'.view ⟨w.promises.size⟩).segment? = w.capture.1 := by
  have hw' : (w.capture.2.addPromise w.capture.1).2 = w' := by
    injection h
  obtain ⟨promises, -, -⟩ := capture_still w
  subst hw'
  simp [view, addPromise, promises, Promise.view]

lemma capture_fst_of_plain (h : w.settings.captureTraces = false) : w.capture.1 = none := by
  simp [capture, h]

lemma capture_fst_of_tracing (h : w.settings.captureTraces = true) :
    w.capture.1 = some ⟨.afterCaptures w.captures,
      Collector.gather w.internal w.settings.maxFrames (w.walks w.captures)⟩ := by
  unfold capture
  rw [if_pos h]
  dsimp only
  split
  · rename_i hempty
    rw [List.isEmpty_iff.mp hempty]
    rfl
  · rfl

end World

/-! ## Both runs -/

namespace Program

variable {L : Likeness P} {given : Segment → Prop} {off on : Program P} {n : Nat}

lemma Alike.exists_off (h : off.Alike L on) {m' : Machine P} (hm' : on.moment n = some m') :
    ∃ m, off.moment n = some m ∧ m.Alike L m' := by
  have hrel := moments_alike h n
  rw [hm'] at hrel
  generalize off.moment n = x at hrel
  cases hrel with
  | some hm => exact ⟨_, rfl, hm⟩

lemma Alike.exists_on (h : off.Alike L on) {m : Machine P} (hm : off.moment n = some m) :
    ∃ m', on.moment n = some m' ∧ m.Alike L m' := by
  have hrel := moments_alike h n
  rw [hm] at hrel
  generalize on.moment n = x at hrel
  cases hrel with
  | some hm => exact ⟨_, rfl, hm⟩

lemma Alike.indistinguishable (h : off.Alike L on) : off.Indistinguishable L on where
  lasts n := by
    have hrel := moments_alike h n
    generalize off.moment n = x at hrel
    generalize on.moment n = x' at hrel
    cases hrel <;> rfl
  agrees n m m' hm hm' := by
    obtain ⟨m₁, hm₁, halike⟩ := h.exists_on hm
    cases hm'.symm.trans hm₁
    exact halike.agrees h.captured

/-- A trace that is shown by one of two machines can be read in both. -/
lemma exists_trace_alike {v v' : View P.Value P.Error}
    (h : v.Alike L.segment v') :
    (∀ t, v.trace? = some t → ∃ t', v'.trace? = some t' ∧ t.Alike L.segment t') ∧
      ∀ t', v'.trace? = some t' → ∃ t, v.trace? = some t ∧ t.Alike L.segment t' := by
  have htrace := h.trace?
  generalize v.trace? = x at htrace
  generalize v'.trace? = x' at htrace
  cases htrace with
  | none => exact ⟨fun _ h => (nomatch h), fun _ h => nomatch h⟩
  | some ht =>
    refine ⟨fun t h => ?_, fun t h => ?_⟩ <;> cases h
    · exact ⟨_, rfl, ht⟩
    · exact ⟨_, rfl, ht⟩

/-- With captured stacks, there is a segment everywhere. -/
lemma Alike.traced (kept : L.segment = Segment.kept given) (h : off.Alike L on) : on.Traced where
  makes := by
    rintro n w segment? ⟨⟨k, rest, hn⟩, w', hw', hsegment⟩
    -- the settings are those of the start, as a comparison with the other run shows
    obtain ⟨m, -, hm⟩ := h.exists_off hn
    have hcapture := World.capture_fst_of_tracing hm.world.tracing
    rw [World.segment?_of_create hw', hcapture] at hsegment
    intro frames
    refine ⟨Collector.length_gather_le _ _ _, _, hsegment.symm, fun hempty => ?_⟩
    rw [← hsegment]
    exact congrArg (fun lines => some (Segment.mk _ lines)) hempty
  segment n m' p hm' hp := by
    obtain ⟨m, -, hm⟩ := h.exists_off hm'
    have hpromise := hm.world.promises p.index
    rw [Array.getElem?_eq_getElem hp] at hpromise
    generalize m.world.promises[p.index]? = x at hpromise
    cases hpromise with
    | some ha =>
      have hkept : Segment.kept given _ _ := kept ▸ ha.segment
      obtain ⟨s, hs⟩ := Option.isSome_iff_exists.mp hkept.1
      refine ⟨s, ?_⟩
      rw [World.view, Array.getElem?_eq_getElem hp]
      dsimp only
      rw [Promise.segment?_view, hs]
  trace n m' t' hm' hshows := by
    obtain ⟨m, -, hm⟩ := h.exists_off hm'
    obtain ⟨p, hp⟩ := (truthful hm').exists_trace? hshows
    obtain ⟨t, -, ht⟩ := (exists_trace_alike (hm.world.view p)).2 t' hp
    exact Trace.length_segments_of_forall (Trace.Alike.kept (kept ▸ ht)).2

lemma Alike.given_of_link (kept : L.segment = Segment.kept given) (h : off.Alike L on)
    {m : Machine P} {t : Trace P.Error} (hm : off.moment n = some m) (hshows : m.Shows t) :
    ∀ l ∈ t.links, ∀ s, l.segment? = some s → given s := by
  obtain ⟨m', -, halike⟩ := h.exists_on hm
  obtain ⟨p, hp⟩ := (truthful hm).exists_trace? hshows
  obtain ⟨t', -, ht⟩ := (exists_trace_alike (halike.world.view p)).1 t hp
  exact (Trace.Alike.kept (kept ▸ ht)).1

/-- Without captured stacks, only given segments are there. -/
lemma Alike.untraced (kept : L.segment = Segment.kept given) (h : off.Alike L on) :
    off.Untraced given where
  makes := by
    rintro n w segment? ⟨⟨k, rest, hn⟩, w', hw', hsegment⟩
    obtain ⟨m', -, hm⟩ := h.exists_on hn
    rw [← hsegment, World.segment?_of_create hw', World.capture_fst_of_plain hm.world.plain]
  segment n m p s hm hs := by
    obtain ⟨m', -, halike⟩ := h.exists_on hm
    have hpromise := halike.world.promises p.index
    rw [World.view] at hs
    generalize m.world.promises[p.index]? = x at hpromise hs
    generalize m'.world.promises[p.index]? = x' at hpromise
    cases hpromise with
    | none => cases hs
    | some ha =>
      have hkept : Segment.kept given _ _ := kept ▸ ha.segment
      rw [Promise.segment?_view] at hs
      exact hkept.2 s hs
  trace n m t hm hshows := h.given_of_link kept hm hshows
  render n m t hm hshows hnone text := by
    refine Trace.render_of_forall_none (fun l hl => ?_) text
    rcases hs : l.segment? with _ | s
    · rfl
    · exact absurd (h.given_of_link kept hm hshows l hl s hs) (hnone l hl s hs)

/-- **Capturing stacks has no influence.**  If two programs of which only the second one captures
stacks run scripts that are alike, no difference between the runs can be observed; in the second
one every promise has a segment, and in the first one there are only given segments.  The steps of
a session are such scripts, whatever stacks are walked; and whatever lines there is room for, some
walk of a stack gathers them. -/
theorem capture_is_invisible :
    (∀ {P : Payload} {L : Likeness P} {given : Segment → Prop} {off on : Program P},
      L.segment = Segment.kept given → off.Alike L on →
        off.Indistinguishable L on ∧ on.Traced ∧ off.Untraced given) ∧
    (∀ (limit : FrameLimit) (walks walks' : Nat → List Frame) (internal internal' : List String)
      (steps : List Session.Step),
      let off := Session.program ⟨false, limit⟩ walks internal steps
      let on := Session.program ⟨true, limit⟩ walks' internal' steps
      let given : Segment → Prop := fun s =>
        ∃ kind, Session.stepsHave steps (.promise kind (some s))
      off.Indistinguishable (Session.likeness (Segment.kept given) True) on ∧ on.Traced ∧
        off.Untraced given) ∧
    ∀ (internal : List String) (limit : FrameLimit) (lines : List String),
      lines.length ≤ limit.value → ∃ fs, Collector.gather internal limit fs = lines := by
  refine ⟨fun kept h => ⟨h.indistinguishable, h.traced kept, h.untraced kept⟩, ?_,
    Collector.exists_gather_eq⟩
  intro limit walks walks' internal internal' steps off on given
  -- whatever segment a step gives is among the given ones
  have hpermitted : ∀ r, Session.stepsHave steps r →
      r.Permitted (Session.likeness (Segment.kept given) True) := by
    intro r hr
    cases r with
    | keepTrying => exact trivial
    | promise kind segment? =>
      cases segment? with
      | none => exact trivial
      | some s =>
        refine ⟨rfl, fun x hx => ?_⟩
        cases hx
        exact ⟨kind, hr⟩
    | _ => exact trivial
  have halike : off.Alike (Session.likeness (Segment.kept given) True) on :=
    { plain := rfl
      tracing := rfl
      maxFrames_eq := rfl
      captured := Segment.kept_none_some
      store := rfl
      main := Session.alike_course steps hpermitted }
  exact ⟨halike.indistinguishable, halike.traced rfl, halike.untraced rfl⟩

/-- A failure that passes from one promise to another. -/
def passedOn (captureTraces : Bool) : Program Session.Play where
  settings := ⟨captureTraces, .standard⟩
  walks _ := [⟨none, "    at main"⟩]
  internal := []
  store := {}
  main := do
    let p ← Script.create
    let q ← Script.create
    Script.forward p q
    discard (Script.fail p (.failed "lost"))
    discard Script.runAll

/-- Nothing in `passedOn` depends on stacks. -/
lemma passedOn_alike : (passedOn false).Alike
    (Session.likeness (Segment.kept fun _ => False) False) (passedOn true) where
  plain := rfl
  tracing := rfl
  maxFrames_eq := rfl
  captured := Segment.kept_none_some
  store := rfl
  main := by
    refine Script.alike_create.then fun p => Script.alike_create.then fun q => ?_
    refine (Script.alike_forward p q).then fun _ => ?_
    refine (Script.alike_fail (P := Session.Play) p (.failed "lost")).discard.then fun _ => ?_
    exact Script.Alike.discard (Q := Eq) (.drive .all fun _ => .pure rfl)

/-- The two runs of `passedOn` cannot be told apart, and both pass on a failure with two links; only
one of them has stacks to show. -/
theorem capture_is_invisible_passedOn :
    (passedOn false).Alike (Session.likeness (Segment.kept fun _ => False) False) (passedOn true) ∧
    ((passedOn false).Indistinguishable (Session.likeness (Segment.kept fun _ => False) False)
        (passedOn true) ∧ (passedOn true).Traced ∧ (passedOn false).Untraced fun _ => False) ∧
    (passedOn false).At 11 (fun m => (m.world.view ⟨1⟩).trace?.map
      (fun t => (t.links.map Link.error, t.segments.map Segment.frames)) =
        some ([.failed "lost", .failed "lost"], [])) ∧
    (passedOn true).At 11 (fun m => (m.world.view ⟨1⟩).trace?.map
      (fun t => (t.links.map Link.error, t.segments.map Segment.frames)) =
        some ([.failed "lost", .failed "lost"], [["    at main"], ["    at main"]])) :=
  ⟨passedOn_alike, capture_is_invisible.1 rfl passedOn_alike, ⟨_, rfl, rfl⟩, ⟨_, rfl, rfl⟩⟩

end Program

end Eventual
