import Eventual.World.Basic

/-!
# Carrying out operations

Every operation has an answer and changes the world, with one exception: a task can be scheduled so
late that its instant lies beyond the longest span.  Then there is no answer, and whatever was
running stops.
-/

namespace Eventual

/-- The result of an operation. -/
inductive Performed (P : Payload) (ρ : Type) : Type 1
  /-- The answer, and the world afterwards. -/
  | answer (r : ρ) (w : World P)
  /-- The instant of a task does not exist. -/
  | overflow (w : World P)

namespace World

variable {P : Payload}

/-- Schedules a task, if its instant exists.  Its turn is taken in either case. -/
def schedule (w : World P) (delay : Duration) (work : Work P) : Performed P Unit :=
  match w.clock.add? delay with
  | some due => .answer () { w with queue := w.queue.add due work }
  | none => .overflow { w with queue := w.queue.skip }

/-- A delivery is a task like any other, scheduled without delay.  The present instant always
exists, so to settle or to observe a promise cannot overflow. -/
theorem schedule_delivery {w : World P} {o : Outcome P.Value P.Error}
    {observers awaiting : List (Registration P)}
    (hawaiting : observers.filter (·.observer.awaits o) = awaiting) (hne : awaiting ≠ [])
    (p : PromiseId) :
    ((w.emit (.delivering awaiting.length)).emit (.scheduling .zero)).schedule .zero
      (.delivery p o awaiting) = .answer () (w.deliver p o observers) := by
  have hsome : awaiting.isEmpty = false := List.isEmpty_eq_false_iff.mpr hne
  simp [schedule, deliver, emit, hawaiting, hsome]

/-- Puts a value into a place of a gathering. -/
def gather (w : World P) (g : GatheringId) (i : Nat) (v : P.Value) :
    Option (List P.Value) × World P :=
  match w.gatherings[g.index]? with
  | none => (none, w)
  | some gathering =>
    let (gathering, complete) := gathering.insert i v
    (complete, { w with gatherings := w.gatherings.setIfInBounds g.index gathering })

/-- Puts a value on one side of a pairing. -/
def couple (w : World P) (g : PairingId) (side : Side) (v : P.Value) :
    Option (P.Value × P.Value) × World P :=
  match w.pairings[g.index]? with
  | none => (none, w)
  | some pairing =>
    let (pairing, complete) := match side with
      | .first => pairing.insertFirst v
      | .second => pairing.insertSecond v
    (complete, { w with pairings := w.pairings.setIfInBounds g.index pairing })

/-- Counts an attempt of a retry loop. -/
def countAttempt (w : World P) (r : RetryId) : World P :=
  { w with retries := w.retries.modify r.index fun t => { t with attempts := t.attempts + 1 } }

/-- Carries out an operation. -/
def perform (w : World P) {ρ : Type} : Op P ρ → Performed P ρ
  | .create =>
    let (segment?, w) := w.capture
    let (p, w) := w.addPromise segment?
    .answer p w
  | .createUnder segment =>
    let (p, w) := w.addPromise (some segment)
    .answer p w
  | .settle p s =>
    let (took, w) := w.settle p s
    .answer took w
  | .observe p o => .answer () (w.observe p o)
  | .view p => .answer (w.view p) w
  | .schedule delay body => w.schedule delay (.script body)
  | .now => .answer w.clock w
  | .pending => .answer w.pending w
  | .settings => .answer w.settings w
  | .openGathering n =>
    .answer ⟨w.gatherings.size⟩ { w with gatherings := w.gatherings.push (.empty n) }
  | .gather g i v =>
    let (complete, w) := w.gather g i v
    .answer complete w
  | .openPairing => .answer ⟨w.pairings.size⟩ { w with pairings := w.pairings.push {} }
  | .couple g side v =>
    let (complete, w) := w.couple g side v
    .answer complete w
  | .openRetry result interval thunk onError =>
    .answer ⟨w.retries.size⟩
      { w with retries := w.retries.push ⟨result, interval, thunk, onError, 0⟩ }
  | .countAttempt r => .answer () (w.countAttempt r)
  | .emit e => .answer () (w.emit e)
  | .note n => .answer () { w with journal := w.journal.push (.note n) }
  | .load => .answer w.store w
  | .save s => .answer () { w with store := s }

end World

end Eventual
