import Eventual.World.Perform
import Mathlib.Tactic.Common

/-!
# What operations do

Most operations leave the promises and the tasks alone.  The others do one of five things: a promise
is made, a script is scheduled, a promise is settled, an observer is put on the list of a promise,
or it is sent the outcome of a settled one.  `World.Effect` lists them, and every operation that
gives an answer has one of these effects (`effect_of_perform`).  None of them moves the clock.
-/

namespace Eventual

variable {P : Payload}

/-- The queue after the outcome of a promise went out to those of `rs` that wait for it. -/
def Queue.deliver (q : Queue (Work P)) (clock : Duration) (p : PromiseId)
    (o : Outcome P.Value P.Error) (rs : List (Registration P)) : Queue (Work P) :=
  let awaiting := rs.filter (·.observer.awaits o)
  if awaiting.isEmpty then q else q.add clock (.delivery p o awaiting)

lemma Queue.deliver_of_forall_not {q : Queue (Work P)} {clock : Duration} {p : PromiseId}
    {o : Outcome P.Value P.Error} {rs : List (Registration P)}
    (h : ∀ r ∈ rs, ¬ r.observer.awaits o = true) : q.deliver clock p o rs = q := by
  have hnil : rs.filter (·.observer.awaits o) = [] := List.filter_eq_nil_iff.mpr h
  simp [Queue.deliver, hnil]

lemma Queue.deliver_of_exists {q : Queue (Work P)} {clock : Duration} {p : PromiseId}
    {o : Outcome P.Value P.Error} {rs : List (Registration P)}
    (h : ∃ r ∈ rs, r.observer.awaits o = true) :
    q.deliver clock p o rs =
      q.add clock (.delivery p o (rs.filter (·.observer.awaits o))) := by
  have hne : (rs.filter (·.observer.awaits o)).isEmpty = false := by
    obtain ⟨r, hr, ho⟩ := h
    rw [List.isEmpty_eq_false_iff_exists_mem]
    exact ⟨r, List.mem_filter.mpr ⟨hr, ho⟩⟩
  simp [Queue.deliver, hne]

namespace World

variable {w w' : World P}

@[simp] lemma promises_deliver (w : World P) (p : PromiseId) (o : Outcome P.Value P.Error)
    (rs : List (Registration P)) : (w.deliver p o rs).promises = w.promises := by
  unfold deliver
  dsimp only
  split <;> rfl

@[simp] lemma clock_deliver (w : World P) (p : PromiseId) (o : Outcome P.Value P.Error)
    (rs : List (Registration P)) : (w.deliver p o rs).clock = w.clock := by
  unfold deliver
  dsimp only
  split <;> rfl

@[simp] lemma queue_deliver (w : World P) (p : PromiseId) (o : Outcome P.Value P.Error)
    (rs : List (Registration P)) :
    (w.deliver p o rs).queue = w.queue.deliver w.clock p o rs := by
  unfold deliver Queue.deliver
  dsimp only
  split <;> rfl

/-- What an operation does to the promises and to the queue. -/
inductive Effect (w w' : World P) : {ρ : Type} → Op P ρ → Prop
  /-- Nothing. -/
  | still {ρ : Type} {o : Op P ρ} (promises : w'.promises = w.promises)
      (queue : w'.queue = w.queue) : Effect w w' o
  /-- A promise is made. -/
  | make {ρ : Type} {o : Op P ρ} (segment? : Option Segment)
      (promises : w'.promises = w.promises.push ⟨segment?, 0, .unresolved []⟩)
      (queue : w'.queue = w.queue) : Effect w w' o
  /-- A script is handed to the scheduler. -/
  | schedule {delay due : Duration} {body : Script P Unit}
      (instant : w.clock.add? delay = some due) (promises : w'.promises = w.promises)
      (queue : w'.queue = w.queue.add due (.script body)) : Effect w w' (.schedule delay body)
  /-- A promise is settled, and those who waited for this outcome are sent it. -/
  | settle {p : PromiseId} {segment? : Option Segment} {observed : Nat}
      {waiting : List (Registration P)} {s : Settlement P.Value P.Error}
      (before : w.promises[p.index]? = some ⟨segment?, observed, .unresolved waiting⟩)
      (promises : w'.promises = w.promises.setIfInBounds p.index ⟨segment?, observed, .settled s⟩)
      (queue : w'.queue = w.queue.deliver w.clock p (s.outcome segment?) waiting) :
      Effect w w' (.settle p s)
  /-- An observer is put on the list of a promise. -/
  | enlist {p : PromiseId} {segment? : Option Segment} {observed : Nat}
      {waiting : List (Registration P)} {ob : Observer P}
      (before : w.promises[p.index]? = some ⟨segment?, observed, .unresolved waiting⟩)
      (promises : w'.promises = w.promises.setIfInBounds p.index
        ⟨segment?, observed + 1, .unresolved (waiting ++ [⟨observed, ob⟩])⟩)
      (queue : w'.queue = w.queue) : Effect w w' (.observe p ob)
  /-- An observer of a settled promise is sent the outcome. -/
  | inform {p : PromiseId} {segment? : Option Segment} {observed : Nat}
      {s : Settlement P.Value P.Error} {ob : Observer P}
      (before : w.promises[p.index]? = some ⟨segment?, observed, .settled s⟩)
      (promises : w'.promises =
        w.promises.setIfInBounds p.index ⟨segment?, observed + 1, .settled s⟩)
      (queue : w'.queue = w.queue.deliver w.clock p (s.outcome segment?) [⟨observed, ob⟩]) :
      Effect w w' (.observe p ob)

/-! ## Scheduling -/

/-- A task is scheduled exactly if its instant exists, and then it is added to those that wait. -/
lemma schedule_eq_answer_iff {delay : Duration} {work : Work P} {r : Unit} :
    w.schedule delay work = .answer r w' ↔
      ∃ due, w.clock.add? delay = some due ∧ w' = { w with queue := w.queue.add due work } := by
  unfold schedule
  rcases w.clock.add? delay with _ | due
  · simp
  · simp [eq_comm]

lemma perform_schedule {delay due : Duration} (hdue : w.clock.add? delay = some due)
    (body : Script P Unit) : w.perform (.schedule delay body) =
      .answer () { w with queue := w.queue.add due (.script body) } :=
  schedule_eq_answer_iff.mpr ⟨due, hdue, rfl⟩

/-! ## Settling and observing, by what the promise holds -/

@[simp] lemma size_promises_settle (w : World P) (p : PromiseId)
    (s : Settlement P.Value P.Error) : (w.settle p s).2.promises.size = w.promises.size := by
  unfold settle
  split <;> simp [putPromise, emit]

lemma settle_missing {p : PromiseId} {s : Settlement P.Value P.Error}
    (h : w.promises[p.index]? = none) : w.settle p s = (false, w) := by
  rw [settle, h]

lemma settle_settled {p : PromiseId} {segment? : Option Segment} {observed : Nat}
    {s s₀ : Settlement P.Value P.Error}
    (h : w.promises[p.index]? = some ⟨segment?, observed, .settled s₀⟩) :
    w.settle p s = (false, w.emit (ignored s)) := by
  rw [settle, h]

lemma settle_unresolved {p : PromiseId} {segment? : Option Segment} {observed : Nat}
    {waiting : List (Registration P)} {s : Settlement P.Value P.Error}
    (h : w.promises[p.index]? = some ⟨segment?, observed, .unresolved waiting⟩) :
    w.settle p s = (true, (w.putPromise p ⟨segment?, observed, .settled s⟩).deliver p
      (s.outcome segment?) waiting) := by
  rw [settle, h]

lemma observe_missing {p : PromiseId} {ob : Observer P} (h : w.promises[p.index]? = none) :
    w.observe p ob = w := by
  rw [observe, h]

lemma observe_unresolved {p : PromiseId} {segment? : Option Segment} {observed : Nat}
    {waiting : List (Registration P)} {ob : Observer P}
    (h : w.promises[p.index]? = some ⟨segment?, observed, .unresolved waiting⟩) :
    w.observe p ob =
      w.putPromise p ⟨segment?, observed + 1, .unresolved (waiting ++ [⟨observed, ob⟩])⟩ := by
  rw [observe, h]

lemma observe_settled {p : PromiseId} {segment? : Option Segment} {observed : Nat}
    {s : Settlement P.Value P.Error} {ob : Observer P}
    (h : w.promises[p.index]? = some ⟨segment?, observed, .settled s⟩) :
    w.observe p ob = (w.putPromise p ⟨segment?, observed + 1, .settled s⟩).deliver p
      (s.outcome segment?) [⟨observed, ob⟩] := by
  rw [observe, h]

lemma effect_settle (w : World P) (p : PromiseId) (s : Settlement P.Value P.Error) :
    (w.settle p s).2.clock = w.clock ∧ Effect w (w.settle p s).2 (.settle p s) := by
  rcases h : w.promises[p.index]? with _ | ⟨segment?, observed, waiting | s₀⟩
  · rw [settle_missing h]
    exact ⟨rfl, .still rfl rfl⟩
  · rw [settle_unresolved h]
    exact ⟨clock_deliver .., .settle h (promises_deliver ..) (queue_deliver ..)⟩
  · rw [settle_settled h]
    exact ⟨rfl, .still rfl rfl⟩

lemma effect_observe (w : World P) (p : PromiseId) (ob : Observer P) :
    (w.observe p ob).clock = w.clock ∧ Effect w (w.observe p ob) (.observe p ob) := by
  rcases h : w.promises[p.index]? with _ | ⟨segment?, observed, waiting | s⟩
  · rw [observe_missing h]
    exact ⟨rfl, .still rfl rfl⟩
  · rw [observe_unresolved h]
    exact ⟨rfl, .enlist h rfl rfl⟩
  · rw [observe_settled h]
    exact ⟨clock_deliver .., .inform h (promises_deliver ..) (queue_deliver ..)⟩

/-! ## The other operations -/

lemma capture_still (w : World P) :
    w.capture.2.promises = w.promises ∧ w.capture.2.queue = w.queue ∧
      w.capture.2.clock = w.clock := by
  unfold capture
  dsimp only
  split
  · split <;> exact ⟨rfl, rfl, rfl⟩
  · exact ⟨rfl, rfl, rfl⟩

lemma gather_still (w : World P) (g : GatheringId) (i : Nat) (v : P.Value) :
    (w.gather g i v).2.promises = w.promises ∧ (w.gather g i v).2.queue = w.queue ∧
      (w.gather g i v).2.clock = w.clock := by
  unfold gather
  split <;> exact ⟨rfl, rfl, rfl⟩

lemma couple_still (w : World P) (g : PairingId) (side : Side) (v : P.Value) :
    (w.couple g side v).2.promises = w.promises ∧ (w.couple g side v).2.queue = w.queue ∧
      (w.couple g side v).2.clock = w.clock := by
  unfold couple
  split
  · exact ⟨rfl, rfl, rfl⟩
  · cases side <;> exact ⟨rfl, rfl, rfl⟩

/-- **An operation that answers leaves the clock alone and has one of the six effects.** -/
theorem effect_of_perform {ρ : Type} {o : Op P ρ} {r : ρ} (h : w.perform o = .answer r w') :
    w'.clock = w.clock ∧ Effect w w' o := by
  cases o with
  | create =>
    have hw : w' = (w.capture.2.addPromise w.capture.1).2 := by
      cases h
      rfl
    subst hw
    obtain ⟨hp, hq, hc⟩ := capture_still w
    refine ⟨hc, .make w.capture.1 ?_ hq⟩
    rw [addPromise, hp]
  | createUnder segment =>
    cases h
    exact ⟨rfl, .make (some segment) rfl rfl⟩
  | settle p s =>
    cases h
    exact effect_settle w p s
  | observe p ob =>
    cases h
    exact effect_observe w p ob
  | schedule delay body =>
    obtain ⟨due, hdue, rfl⟩ := schedule_eq_answer_iff.mp h
    exact ⟨rfl, .schedule hdue rfl rfl⟩
  | gather g i v =>
    cases h
    obtain ⟨hp, hq, hc⟩ := gather_still w g i v
    exact ⟨hc, .still hp hq⟩
  | couple g side v =>
    cases h
    obtain ⟨hp, hq, hc⟩ := couple_still w g side v
    exact ⟨hc, .still hp hq⟩
  -- the other operations read, or change what is neither a promise nor a task
  | view | now | pending | settings | openGathering | openPairing | openRetry | countAttempt | emit
  | note | load | save =>
    cases h
    exact ⟨rfl, .still rfl rfl⟩

end World

end Eventual
