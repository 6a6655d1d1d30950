import Eventual.Proofs.Likeness
import Eventual.Proofs.Run

/-!
# Two runs in lockstep

One run captures no stacks and the other one does.  Their worlds are alike if they agree in
everything except for the stacks, and in everything they keep that came from scripts scripts are
alike (`World.Alike`).  Worlds that are alike stay so under operations that are alike
(`World.Alike.perform`), hence machines that are alike do the same next (`Machine.Alike.step`),
and two runs from the same script go on side by side (`Program.moments_alike`).  The run that
captures stacks reports the captures that found nothing; these lines of the journal are left out
of the comparison.
-/

namespace Eventual

variable {P : Payload}

/-! ## Arrays -/

section

variable {α : Type*} {R : α → α → Prop}

/-- Two arrays have the same places, with related elements. -/
def Array.Related (R : α → α → Prop) (a a' : Array α) : Prop :=
  ∀ i : Nat, Option.Rel R a[i]? a'[i]?

namespace Array.Related

variable {a a' : Array α}

lemma size_eq (h : Array.Related R a a') : a.size = a'.size := by
  -- where the one ends, the other one has ended
  have hle : ∀ {a a' : Array α}, (∀ i : Nat, a[i]? = none → a'[i]? = none) →
      a'.size ≤ a.size := by
    intro a a' h
    exact Array.getElem?_eq_none_iff.mp (h a.size (Array.getElem?_eq_none_iff.mpr (Nat.le_refl _)))
  refine Nat.le_antisymm (hle fun i hi => ?_) (hle fun i hi => ?_)
  · have hrel := h i
    rw [hi] at hrel
    generalize a[i]? = x at hrel
    cases hrel
    rfl
  · have hrel := h i
    rw [hi] at hrel
    generalize a'[i]? = x at hrel
    cases hrel
    rfl

lemma push (h : Array.Related R a a') {x x' : α} (hx : R x x') :
    Array.Related R (a.push x) (a'.push x') := by
  intro i
  rw [Array.getElem?_push, Array.getElem?_push, ← h.size_eq]
  split
  · exact .some hx
  · exact h i

lemma setIfInBounds (h : Array.Related R a a') {x x' : α} (hx : R x x') (j : Nat) :
    Array.Related R (a.setIfInBounds j x) (a'.setIfInBounds j x') := by
  intro i
  rw [Array.getElem?_setIfInBounds, Array.getElem?_setIfInBounds, ← h.size_eq]
  split
  · split
    · exact .some hx
    · exact .none
  · exact h i

lemma modify (h : Array.Related R a a') {f : α → α} (hf : ∀ x x', R x x' → R (f x) (f x'))
    (j : Nat) : Array.Related R (a.modify j f) (a'.modify j f) := by
  intro i
  rw [Array.getElem?_modify, Array.getElem?_modify]
  split
  · have hrel := h i
    generalize a[i]? = x at hrel
    generalize a'[i]? = x' at hrel
    cases hrel with
    | none => exact .none
    | some hx => exact .some (hf _ _ hx)
  · exact h i

end Array.Related

end

/-! ## Worlds that are alike -/

/-- The same place in the order of registration, and observers that are alike. -/
structure Registration.Alike (L : Likeness P) (r r' : Registration P) : Prop where
  number_eq : r.number = r'.number
  observer : r.observer.Alike L r'.observer

/-- Observers that are alike wait, or settlements are alike. -/
inductive Slot.Alike (L : Likeness P) : Slot P → Slot P → Prop
  | unresolved {rs rs' : List (Registration P)}
      (waiting : List.Forall₂ (Registration.Alike L) rs rs') :
      Alike L (.unresolved rs) (.unresolved rs')
  | settled {s s' : Settlement P.Value P.Error} (settlement : s.Alike L.segment s') :
      Alike L (.settled s) (.settled s')

/-- Two promises made under stacks that are alike. -/
structure Promise.Alike (L : Likeness P) (a a' : Promise P) : Prop where
  segment : L.segment a.segment? a'.segment?
  observed_eq : a.observed = a'.observed
  slot : a.slot.Alike L a'.slot

/-- Scripts that are alike are run, or observers that are alike are told outcomes that are alike. -/
inductive Work.Alike (L : Likeness P) : Work P → Work P → Prop
  | script {s s' : Script P Unit} (script : s.Alike L Eq s') : Alike L (.script s) (.script s')
  | delivery (p : PromiseId) {o o' : Outcome P.Value P.Error} {rs rs' : List (Registration P)}
      (outcome : o.Alike L.segment o') (observers : List.Forall₂ (Registration.Alike L) rs rs') :
      Alike L (.delivery p o rs) (.delivery p o' rs')

/-- Tasks for the same instant with the same turn. -/
structure Task.Alike (L : Likeness P) (t t' : Task (Work P)) : Prop where
  due_eq : t.due = t'.due
  turn_eq : t.turn = t'.turn
  body : t.body.Alike L t'.body

/-- Queues of tasks that are alike. -/
structure Queue.Alike (L : Likeness P) (q q' : Queue (Work P)) : Prop where
  waiting : List.Forall₂ (Task.Alike L) q.waiting q'.waiting
  scheduled_eq : q.scheduled = q'.scheduled

/-- The same event, or notes that are alike; that a runtime is ready is reported with its
settings. -/
inductive Entry.Alike (L : Likeness P) : Entry P.Note → Entry P.Note → Prop
  | event (e : Event) : Alike L (.event e) (.event e)
  | ready (captureTraces captureTraces' : Bool) :
      Alike L (.event (.ready captureTraces)) (.event (.ready captureTraces'))
  | note {n n' : P.Note} (note : L.note n n') : Alike L (.note n) (.note n')

/-- Whether a line of the journal is no report of a capture that found nothing. -/
def Entry.isCommon {N : Type} : Entry N → Bool
  | .event (.captureEmpty _) => false
  | _ => true

/-- The lines that both runs have. -/
def World.common (w : World P) : List (Entry P.Note) := w.journal.toList.filter Entry.isCommon

/-- A world without captured stacks and one with them that agree otherwise. -/
structure World.Alike (L : Likeness P) (w w' : World P) : Prop where
  plain : w.settings.captureTraces = false
  tracing : w'.settings.captureTraces = true
  maxFrames_eq : w.settings.maxFrames = w'.settings.maxFrames
  clock_eq : w.clock = w'.clock
  queue : w.queue.Alike L w'.queue
  promises : Array.Related (Promise.Alike L) w.promises w'.promises
  gatherings_eq : w.gatherings = w'.gatherings
  pairings_eq : w.pairings = w'.pairings
  retries : Array.Related (Retry.Alike L) w.retries w'.retries
  journal : List.Forall₂ (Entry.Alike L) w.common w'.common
  store : L.store w.store w'.store

/-- Two results of operations are alike: answers that are related, or that there is none. -/
inductive Performed.Alike {ρ : Type} (L : Likeness P) (A : ρ → ρ → Prop) :
    Performed P ρ → Performed P ρ → Prop
  | answer {r r' : ρ} {w w' : World P} (answers : A r r') (world : w.Alike L w') :
      Alike L A (.answer r w) (.answer r' w')
  | overflow {w w' : World P} (world : w.Alike L w') : Alike L A (.overflow w) (.overflow w')

namespace Promise

variable {L : Likeness P} {a a' : Promise P}

lemma Alike.view (h : a.Alike L a') : a.view.Alike L.segment a'.view := by
  obtain ⟨segment?, observed, slot⟩ := a
  obtain ⟨segment?', observed', slot'⟩ := a'
  obtain ⟨hsegment, -, hslot⟩ := h
  cases hslot with
  | unresolved => exact .unsettled _ _
  | settled settlement => exact .settled hsegment settlement

end Promise

namespace Queue

variable {L : Likeness P}

lemma forall₂_insertTask {t t' : Task (Work P)} (ht : t.Alike L t') {ts ts' : List (Task (Work P))}
    (h : List.Forall₂ (Task.Alike L) ts ts') :
    List.Forall₂ (Task.Alike L) (insertTask t ts) (insertTask t' ts') := by
  induction h with
  | nil => exact .cons ht .nil
  | cons hu hrest ih =>
    rw [insertTask, insertTask, ← ht.due_eq, ← hu.due_eq]
    split
    · exact .cons ht (.cons hu hrest)
    · exact .cons hu ih

lemma Alike.add {q q' : Queue (Work P)} (hq : q.Alike L q') {due due' : Duration}
    (hdue : due = due') {body body' : Work P} (h : body.Alike L body') :
    (q.add due body).Alike L (q'.add due' body') :=
  ⟨forall₂_insertTask ⟨hdue, hq.scheduled_eq, h⟩ hq.waiting, congrArg (· + 1) hq.scheduled_eq⟩

end Queue

namespace World

variable {L : Likeness P} {w w' : World P}

lemma Alike.view (hw : w.Alike L w') (p : PromiseId) :
    (w.view p).Alike L.segment (w'.view p) := by
  have hp := hw.promises p.index
  unfold World.view
  generalize w.promises[p.index]? = x at hp
  generalize w'.promises[p.index]? = x' at hp
  cases hp with
  | none => exact .unsettled _ _
  | some ha => exact ha.view

lemma Alike.pending_eq (hw : w.Alike L w') : w.pending = w'.pending :=
  hw.queue.waiting.length_eq

/-! ### The journal -/

lemma common_push (w : World P) (e : Entry P.Note) :
    World.common { w with journal := w.journal.push e } =
      if e.isCommon then w.common ++ [e] else w.common := by
  rw [common, common, Array.toList_push, List.filter_append]
  by_cases h : e.isCommon = true
  · simp [h]
  · simp [h]

lemma common_emit (w : World P) (e : Event) : (w.emit e).common =
    if (Entry.event e : Entry P.Note).isCommon then w.common ++ [.event e] else w.common :=
  common_push w (.event e)

lemma Alike.write (hw : w.Alike L w') {e e' : Entry P.Note} (he : e.Alike L e') :
    World.Alike L { w with journal := w.journal.push e }
      { w' with journal := w'.journal.push e' } := by
  refine { hw with journal := ?_ }
  rw [common_push, common_push]
  have hcommon : e.isCommon = e'.isCommon := by cases he <;> rfl
  rw [← hcommon]
  split
  · exact List.rel_append hw.journal (.cons he .nil)
  · exact hw.journal

lemma Alike.emit (hw : w.Alike L w') (e : Event) : (w.emit e).Alike L (w'.emit e) :=
  hw.write (.event e)

/-! ### Promises -/

/-- Outcomes that are alike go out to observers that are alike. -/
lemma Alike.deliver (hw : w.Alike L w') (p : PromiseId) {o o' : Outcome P.Value P.Error}
    (ho : o.Alike L.segment o') {rs rs' : List (Registration P)}
    (hrs : List.Forall₂ (Registration.Alike L) rs rs') :
    (w.deliver p o rs).Alike L (w'.deliver p o' rs') := by
  have hawaiting : List.Forall₂ (Registration.Alike L) (rs.filter (·.observer.awaits o))
      (rs'.filter (·.observer.awaits o')) :=
    List.rel_filter (fun r r' hr => by simp [hr.observer.awaits o o' ho]) hrs
  unfold World.deliver
  generalize rs.filter (·.observer.awaits o) = awaiting at hawaiting ⊢
  generalize rs'.filter (·.observer.awaits o') = awaiting' at hawaiting ⊢
  have hlength := hawaiting.length_eq
  cases hawaiting with
  | nil => exact hw
  | @cons r r' rs rs' hr hrest =>
    have hemit := (hw.emit (.delivering (r :: rs).length)).emit (.scheduling .zero)
    dsimp only [List.isEmpty_cons]
    rw [← hlength]
    exact { hemit with queue := hemit.queue.add hw.clock_eq (.delivery p ho (.cons hr hrest)) }

lemma Alike.putPromise (hw : w.Alike L w') (p : PromiseId) {a a' : Promise P} (ha : a.Alike L a') :
    (w.putPromise p a).Alike L (w'.putPromise p a') :=
  { hw with promises := hw.promises.setIfInBounds ha p.index }

lemma Alike.settle (hw : w.Alike L w') (p : PromiseId) {s s' : Settlement P.Value P.Error}
    (hs : s.Alike L.segment s') : (w.settle p s).1 = (w'.settle p s').1 ∧
      (w.settle p s).2.Alike L (w'.settle p s').2 := by
  have hp := hw.promises p.index
  generalize hx : w.promises[p.index]? = x at hp
  generalize hx' : w'.promises[p.index]? = x' at hp
  cases hp with
  | none =>
    rw [settle_missing hx, settle_missing hx']
    exact ⟨rfl, hw⟩
  | @some a a' ha =>
    obtain ⟨segment?, observed, slot⟩ := a
    obtain ⟨segment?', observed', slot'⟩ := a'
    obtain ⟨hsegment, hobserved, hslot⟩ := ha
    cases hslot with
    | unresolved hwaiting =>
      rw [settle_unresolved hx, settle_unresolved hx']
      have ha' :
          Promise.Alike L ⟨segment?, observed, .settled s⟩ ⟨segment?', observed', .settled s'⟩ :=
        ⟨hsegment, hobserved, .settled hs⟩
      exact ⟨rfl, (hw.putPromise p ha').deliver p (hs.outcome hsegment) hwaiting⟩
    | settled hsettled =>
      rw [settle_settled hx, settle_settled hx']
      refine ⟨rfl, ?_⟩
      have hignored : ignored s = ignored s' := by cases hs <;> rfl
      rw [hignored]
      exact hw.emit _

lemma Alike.observe (hw : w.Alike L w') (p : PromiseId) {ob ob' : Observer P}
    (hob : ob.Alike L ob') : (w.observe p ob).Alike L (w'.observe p ob') := by
  have hp := hw.promises p.index
  generalize hx : w.promises[p.index]? = x at hp
  generalize hx' : w'.promises[p.index]? = x' at hp
  cases hp with
  | none =>
    rw [observe_missing hx, observe_missing hx']
    exact hw
  | @some a a' ha =>
    obtain ⟨segment?, observed, slot⟩ := a
    obtain ⟨segment?', observed', slot'⟩ := a'
    obtain ⟨hsegment, hobserved, hslot⟩ := ha
    have hobserved' : observed + 1 = observed' + 1 := congrArg (· + 1) hobserved
    have hr : Registration.Alike L ⟨observed, ob⟩ ⟨observed', ob'⟩ := ⟨hobserved, hob⟩
    cases hslot with
    | unresolved hwaiting =>
      rw [observe_unresolved hx, observe_unresolved hx']
      exact hw.putPromise p ⟨hsegment, hobserved',
        .unresolved (List.rel_append hwaiting (.cons hr .nil))⟩
    | @settled s s' hsettled =>
      rw [observe_settled hx, observe_settled hx']
      have ha' : Promise.Alike L ⟨segment?, observed + 1, .settled s⟩
          ⟨segment?', observed' + 1, .settled s'⟩ := ⟨hsegment, hobserved', .settled hsettled⟩
      exact (hw.putPromise p ha').deliver p (hsettled.outcome hsegment) (.cons hr .nil)

/-- A promise is made in both, with a stack in the second one. -/
lemma Alike.capture (captured : ∀ s, L.segment none (some s)) (hw : w.Alike L w') :
    L.segment w.capture.1 w'.capture.1 ∧ w.capture.2.Alike L w'.capture.2 := by
  have hoff : w.capture = (none, w) := by simp [World.capture, hw.plain]
  rw [hoff]
  unfold World.capture
  rw [if_pos hw.tracing]
  dsimp only
  split
  · -- the report of a capture that found nothing is no common line
    refine ⟨captured _, { hw with journal := ?_ }⟩
    rw [common_emit, if_neg (by simp [Entry.isCommon])]
    exact hw.journal
  · exact ⟨captured _, { hw with }⟩

lemma Alike.addPromise (hw : w.Alike L w') {segment? segment?' : Option Segment}
    (h : L.segment segment? segment?') : (w.addPromise segment?).1 = (w'.addPromise segment?').1 ∧
      (w.addPromise segment?).2.Alike L (w'.addPromise segment?').2 :=
  ⟨congrArg PromiseId.mk hw.promises.size_eq,
    { hw with promises := hw.promises.push ⟨h, rfl, .unresolved .nil⟩ }⟩

/-- **Worlds stay alike under operations that are alike**, and so are the answers. -/
theorem Alike.perform (captured : ∀ s, L.segment none (some s)) (hw : w.Alike L w') {ρ : Type}
    {o o' : Op P ρ} (ho : o.Alike L o') :
    (w.perform o).Alike L (o.Answers L) (w'.perform o') := by
  cases o with
  -- these hand something over and have their own lemmas
  | observe | schedule | openRetry => exact ho.elim
  | create =>
    obtain rfl := ho
    obtain ⟨hsegment, hcapture⟩ := hw.capture captured
    obtain ⟨hp, hw'⟩ := hcapture.addPromise hsegment
    exact .answer hp hw'
  | createUnder s =>
    obtain ⟨rfl, hs⟩ := ho
    obtain ⟨hp, hw'⟩ := hw.addPromise hs
    exact .answer hp hw'
  | settle p s =>
    obtain ⟨s', rfl, hs⟩ := ho
    obtain ⟨htook, hw'⟩ := hw.settle p hs
    exact .answer htook hw'
  | view p =>
    obtain rfl := ho
    exact .answer (hw.view p) hw
  | now =>
    obtain rfl := ho
    exact .answer hw.clock_eq hw
  | pending =>
    obtain rfl := ho
    exact .answer hw.pending_eq hw
  | settings =>
    obtain rfl := ho
    exact .answer hw.maxFrames_eq hw
  | openGathering n =>
    obtain rfl := ho
    exact .answer (congrArg (fun a : Array _ => GatheringId.mk a.size) hw.gatherings_eq)
      { hw with gatherings_eq := congrArg (·.push (.empty n)) hw.gatherings_eq }
  | gather g i v =>
    obtain rfl := ho
    simp only [World.perform, World.gather, ← hw.gatherings_eq]
    split
    · exact .answer rfl hw
    · exact .answer rfl { hw with gatherings_eq := rfl }
  | openPairing =>
    obtain rfl := ho
    exact .answer (congrArg (fun a : Array _ => PairingId.mk a.size) hw.pairings_eq)
      { hw with pairings_eq := congrArg (·.push {}) hw.pairings_eq }
  | couple g side v =>
    obtain rfl := ho
    simp only [World.perform, World.couple, ← hw.pairings_eq]
    split
    · exact .answer rfl hw
    · exact .answer rfl { hw with pairings_eq := rfl }
  | countAttempt r =>
    obtain rfl := ho
    refine .answer rfl { hw with retries := hw.retries.modify (fun t t' ht => ?_) r.index }
    exact { ht with attempts_eq := congrArg (· + 1) ht.attempts_eq }
  | emit e =>
    obtain rfl := ho
    exact .answer rfl (hw.emit e)
  | note n =>
    obtain ⟨n', rfl, hn⟩ := ho
    exact .answer rfl (hw.write (.note hn))
  | load =>
    obtain rfl := ho
    exact .answer hw.store hw
  | save x =>
    obtain ⟨x', rfl, hx⟩ := ho
    exact .answer rfl { hw with store := hx }

lemma Alike.schedule (hw : w.Alike L w') (delay : Duration) {body body' : Script P Unit}
    (h : body.Alike L Eq body') :
    (w.perform (.schedule delay body)).Alike L Eq (w'.perform (.schedule delay body')) := by
  rcases hdue : w.clock.add? delay with _ | due
  · have hdue' : w'.clock.add? delay = none := hw.clock_eq ▸ hdue
    simp only [World.perform, World.schedule, hdue, hdue']
    exact .overflow { hw with queue :=
      ⟨hw.queue.waiting, congrArg (· + 1) hw.queue.scheduled_eq⟩ }
  · have hdue' : w'.clock.add? delay = some due := hw.clock_eq ▸ hdue
    simp only [World.perform, World.schedule, hdue, hdue']
    exact .answer rfl { hw with queue := hw.queue.add rfl (.script h) }

lemma Alike.openRetry (hw : w.Alike L w') (result : PromiseId) (interval : Duration)
    {thunk thunk' : Nat → Script P PromiseId} {onError onError' : Trace P.Error → Script P Unit}
    (hthunk : ∀ n, (thunk n).Alike L Eq (thunk' n))
    (honError : ∀ t t', t.Alike L.segment t' → (onError t).Alike L Eq (onError' t')) :
    (w.perform (.openRetry result interval thunk onError)).Alike L Eq
      (w'.perform (.openRetry result interval thunk' onError')) :=
  .answer (congrArg RetryId.mk hw.retries.size_eq)
    { hw with retries := hw.retries.push ⟨rfl, rfl, rfl, hthunk, honError⟩ }

lemma Alike.nextAttempt (hw : w.Alike L w') (loops : L.loops) (r : RetryId) :
    (w.nextAttempt r).Alike L Eq (w'.nextAttempt r) := by
  have hr := hw.retries r.index
  unfold World.nextAttempt
  generalize w.retries[r.index]? = x at hr
  generalize w'.retries[r.index]? = x' at hr
  cases hr with
  | none => exact .pure rfl
  | some ht => exact ht.nextAttempt loops r

lemma Alike.finishDrive (hw : w.Alike L w') (h : Horizon) :
    (w.finishDrive h).Alike L (w'.finishDrive h) :=
  { hw with clock_eq := congrArg h.reached hw.clock_eq }

/-- Two drives take tasks that are alike, or none. -/
lemma Alike.startTask? (hw : w.Alike L w') (h : Horizon) :
    Option.Rel (fun x x' => x.1.Alike L x'.1 ∧ x.2.Alike L x'.2) (w.startTask? h)
      (w'.startTask? h) := by
  have hwaiting := hw.queue.waiting
  unfold World.startTask? Queue.next?
  generalize w.queue.waiting = ts at hwaiting
  generalize w'.queue.waiting = ts' at hwaiting
  cases hwaiting with
  | nil => exact .none
  | @cons t t' ts ts' ht hrest =>
    dsimp only
    by_cases hadmits : h.admits t.due = true
    · rw [if_pos hadmits, if_pos (ht.due_eq ▸ hadmits)]
      have hclock : w.clock.later t.due = w'.clock.later t'.due := by
        rw [hw.clock_eq, ht.due_eq]
      exact .some ⟨ht.body,
        { hw with clock_eq := hclock, queue := ⟨hrest, hw.queue.scheduled_eq⟩ }⟩
    · rw [if_neg hadmits, if_neg (ht.due_eq ▸ hadmits)]
      exact .none

end World

/-! ## Machines that are alike -/

/-- The same is under way, with scripts and observers that are alike. -/
inductive Activity.Alike (L : Likeness P) : Activity P → Activity P → Prop
  | script {s s' : Script P Unit} (script : s.Alike L Eq s') : Alike L (.script s) (.script s')
  | delivery (p : PromiseId) {o o' : Outcome P.Value P.Error} {rs rs' : List (Registration P)}
      (outcome : o.Alike L.segment o') (observers : List.Forall₂ (Registration.Alike L) rs rs') :
      Alike L (.delivery p o rs) (.delivery p o' rs')
  | drive (h : Horizon) (ran : Nat) {k k' : Nat → Script P Unit}
      (rest : ∀ n, (k n).Alike L Eq (k' n)) : Alike L (.drive h ran k) (.drive h ran k')

lemma Work.Alike.ofWork {L : Likeness P} {work work' : Work P} (h : work.Alike L work') :
    (Activity.ofWork work).Alike L (.ofWork work') := by
  cases h with
  | script h => exact .script h
  | delivery p ho hrs => exact .delivery p ho hrs

/-- Two machines with worlds that are alike and the same under way. -/
structure Machine.Alike (L : Likeness P) (m m' : Machine P) : Prop where
  world : m.world.Alike L m'.world
  stack : List.Forall₂ (Activity.Alike L) m.stack m'.stack

/-- The same happens next. -/
inductive Transition.Alike (L : Likeness P) : Transition P → Transition P → Prop
  | next {m m' : Machine P} (machine : m.Alike L m') : Alike L (.next m) (.next m')
  | halted {w w' : World P} (world : w.Alike L w') : Alike L (.halted w) (.halted w')
  | overflow {w w' : World P} (world : w.Alike L w') : Alike L (.overflow w) (.overflow w')

namespace Machine

variable {L : Likeness P} {w w' : World P} {rest rest' : List (Activity P)}

/-- An operation is carried out in both machines. -/
lemma alike_operate {ρ : Type} {o o' : Op P ρ} {k k' : ρ → Script P Unit} {A : ρ → ρ → Prop}
    (h : (w.perform o).Alike L A (w'.perform o'))
    (hk : ∀ r r', A r r' → (k r).Alike L Eq (k' r'))
    (hrest : List.Forall₂ (Activity.Alike L) rest rest') :
    Transition.Alike L (step ⟨w, .script (.op o k) :: rest⟩)
      (step ⟨w', .script (.op o' k') :: rest'⟩) := by
  rw [step, step]
  generalize w.perform o = x at h
  generalize w'.perform o' = x' at h
  cases h with
  | answer hr hw => exact .next ⟨hw, .cons (.script (hk _ _ hr)) hrest⟩
  | overflow hw => exact .overflow hw

lemma alike_script (captured : ∀ s, L.segment none (some s)) (hw : w.Alike L w')
    {s s' : Script P Unit} (hs : s.Alike L Eq s')
    (hrest : List.Forall₂ (Activity.Alike L) rest rest') :
    Transition.Alike L (step ⟨w, .script s :: rest⟩) (step ⟨w', .script s' :: rest'⟩) := by
  cases hs with
  | pure => exact .next ⟨hw, hrest⟩
  | op alike hk => exact alike_operate (hw.perform captured alike) hk hrest
  | @observe _ _ p ob ob' k k' awaits callbacks hk =>
    have hperform : (w.perform (.observe p ob)).Alike L Eq (w'.perform (.observe p ob')) :=
      .answer rfl (hw.observe p ⟨awaits, callbacks⟩)
    exact alike_operate hperform (fun _ _ _ => hk) hrest
  | schedule delay task hk =>
    exact alike_operate (hw.schedule delay task) (fun _ _ _ => hk) hrest
  | openRetry result interval thunks callbacks hk =>
    exact alike_operate (hw.openRetry result interval thunks callbacks)
      (fun r r' h => h ▸ hk r) hrest
  | drive d hk =>
    rw [step, step, ← hw.clock_eq]
    split
    · exact .next ⟨hw, .cons (.drive _ 0 hk) hrest⟩
    · exact .overflow hw
  | attempt r loops hk =>
    exact .next ⟨hw, .cons (.script (hw.nextAttempt loops r)) (.cons (.script hk) hrest)⟩

lemma alike_delivery (hw : w.Alike L w') (p : PromiseId) {o o' : Outcome P.Value P.Error}
    (ho : o.Alike L.segment o') {rs rs' : List (Registration P)}
    (hrs : List.Forall₂ (Registration.Alike L) rs rs')
    (hrest : List.Forall₂ (Activity.Alike L) rest rest') :
    Transition.Alike L (step ⟨w, .delivery p o rs :: rest⟩)
      (step ⟨w', .delivery p o' rs' :: rest'⟩) := by
  cases hrs with
  | nil => exact .next ⟨hw, hrest⟩
  | @cons r r' rs rs' hr hrs =>
    have hawaits := hr.observer.awaits o o' ho
    have hcallbacks := hr.observer.callbacks o o'
    rw [step, step]
    unfold Observer.awaits at hawaits
    generalize r.observer.handler? o = x at hawaits hcallbacks
    generalize r'.observer.handler? o' = x' at hawaits hcallbacks
    -- both observers wait for the outcome, or none of them
    rcases x with _ | body <;> rcases x' with _ | body'
    · exact .next ⟨hw, .cons (.delivery p ho hrs) hrest⟩
    · cases hawaits
    · cases hawaits
    · exact .next ⟨hw, .cons (.script (hcallbacks body body' ho rfl rfl))
        (.cons (.delivery p ho hrs) hrest)⟩

/-- **Machines that are alike do the same next.** -/
theorem Alike.step {m m' : Machine P} (captured : ∀ s, L.segment none (some s))
    (hm : m.Alike L m') : Transition.Alike L m.step m'.step := by
  obtain ⟨w, stack⟩ := m
  obtain ⟨w', stack'⟩ := m'
  obtain ⟨hw, hstack⟩ := hm
  dsimp only at hw hstack
  cases hstack with
  | nil => exact .halted hw
  | cons hx hrest =>
    cases hx with
    | script hs => exact alike_script captured hw hs hrest
    | delivery p ho hrs => exact alike_delivery hw p ho hrs hrest
    | drive h ran hk =>
      have htask := hw.startTask? h
      rw [Machine.step, Machine.step]
      generalize w.startTask? h = x at htask
      generalize w'.startTask? h = x' at htask
      cases htask with
      | none => exact .next ⟨hw.finishDrive h, .cons (.script (hk ran)) hrest⟩
      | some ht => exact .next ⟨ht.2, .cons ht.1.ofWork (.cons (.drive h (ran + 1) hk) hrest)⟩

end Machine

/-! ## Runs side by side -/

namespace Program

variable {L : Likeness P} {off on : Program P}

/-- A program without captured stacks, and one with them that runs a script that is alike. -/
structure Alike (L : Likeness P) (off on : Program P) : Prop where
  plain : off.settings.captureTraces = false
  tracing : on.settings.captureTraces = true
  maxFrames_eq : off.settings.maxFrames = on.settings.maxFrames
  captured : ∀ s, L.segment none (some s)
  store : L.store off.store on.store
  main : off.main.Alike L Eq on.main

lemma Alike.start (h : off.Alike L on) : off.start.Alike L on.start where
  world :=
    { plain := h.plain
      tracing := h.tracing
      maxFrames_eq := h.maxFrames_eq
      clock_eq := rfl
      queue := ⟨.nil, rfl⟩
      promises := fun _ => .none
      gatherings_eq := rfl
      pairings_eq := rfl
      retries := fun _ => .none
      journal := .cons (.ready _ _) .nil
      store := h.store }
  stack := .cons (.script h.main) .nil

/-- **Two runs from scripts that are alike go on side by side.** -/
theorem moments_alike (h : off.Alike L on) (n : Nat) :
    Option.Rel (Machine.Alike L) (off.moment n) (on.moment n) := by
  -- `Machine.Alike` is kept by every step, and both runs are over at once
  induction n with
  | zero => exact .some h.start
  | succ n ih =>
    simp only [moment, Machine.after] at ih ⊢
    generalize off.start.after n = x at ih
    generalize on.start.after n = x' at ih
    cases ih with
    | none => exact .none
    | some hm =>
      have hstep := hm.step h.captured
      rw [Option.bind_some, Option.bind_some, Machine.next?, Machine.next?]
      generalize Machine.step _ = t at hstep
      generalize Machine.step _ = t' at hstep
      cases hstep with
      | next hm' => exact .some hm'
      | halted | overflow => exact .none

end Program

end Eventual
