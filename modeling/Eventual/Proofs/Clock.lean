import Eventual.Proofs.Queue
import Eventual.Proofs.Run

/-!
# The clock and the tasks that wait for it

Whatever runs, a step does one of four things to the queue and the clock: nothing, or a task is
handed over that is due now or later, or the next task is taken and the clock goes to its instant,
or a drive ends and the clock goes to where it was driven to (`World.Ticks`).  The invariant behind
everything is that no task waits for an instant that has passed (`World.Timely`); it survives the
nesting of drives, because the end of a drive is never beyond a task that it has left waiting.
-/

namespace Eventual

variable {P : Payload}

namespace Duration

variable {a b c : Duration}

lemma later_eq_right (h : a ≤ b) : a.later b = b := if_pos h

lemma later_eq_left (h : b ≤ a) : a.later b = a := by
  rw [Duration.ext_iff, nanos_later]
  exact Nat.max_eq_left h

lemma le_later_left (a b : Duration) : a ≤ a.later b := by
  rw [le_iff, nanos_later]
  exact Nat.le_max_left _ _

lemma le_later_right (a b : Duration) : b ≤ a.later b := by
  rw [le_iff, nanos_later]
  exact Nat.le_max_right _ _

lemma later_le (ha : a ≤ c) (hb : b ≤ c) : a.later b ≤ c := by
  rw [le_iff, nanos_later]
  exact Nat.max_le.mpr ⟨ha, hb⟩

@[simp] lemma later_self (a : Duration) : a.later a = a := later_eq_right (Nat.le_refl _)

@[simp] lemma later_later (a b : Duration) : a.later (a.later b) = a.later b :=
  later_eq_right (le_later_left a b)

lemma le_of_add?_eq_some (h : a.add? b = some c) : a ≤ c := by
  rw [le_iff, add?_eq_some_iff.mp h]
  exact Nat.le_add_right _ _

/-- A sum is reached by way of a part of what is added. -/
lemma add?_eq_some_iff_of_add? {span d : Duration} (hspan : a.add? b = some span) :
    c.add? span = some d ↔ ∃ i, c.add? a = some i ∧ i.add? b = some d := by
  simp only [add?_eq_some_iff] at hspan ⊢
  constructor
  · intro hd
    have hbound := d.bounded
    exact ⟨⟨c.nanos + a.nanos, by omega⟩, rfl, by dsimp only; omega⟩
  · rintro ⟨i, hi, hd⟩
    omega

end Duration

/-! ## What a step does to the queue and the clock -/

namespace World

variable {w w' : World P}

/-- The world when the next task has been taken. -/
def taken (w : World P) (t : Task (Work P)) (q : Queue (Work P)) : World P :=
  { w with queue := q, clock := w.clock.later t.due }

/-- What a step does to the queue and the clock. -/
inductive Ticks (w w' : World P) : Prop
  /-- Nothing. -/
  | still (queue : w'.queue = w.queue) (clock : w'.clock = w.clock)
  /-- A task is handed over. -/
  | add (delay due : Duration) (body : Work P) (instant : w.clock.add? delay = some due)
      (queue : w'.queue = w.queue.add due body) (clock : w'.clock = w.clock)
  /-- The next task is taken. -/
  | take (h : Horizon) (t : Task (Work P)) (taken : w.queue.next? h = some (t, w'.queue))
      (clock : w'.clock = w.clock.later t.due)
  /-- A drive ends. -/
  | close (h : Horizon) (nothing : w.queue.next? h = none) (queue : w'.queue = w.queue)
      (clock : w'.clock = h.reached w.clock)

/-- No task waits for an instant that has passed. -/
structure Timely (w : World P) : Prop where
  ordered : w.queue.Ordered
  clock_le : ∀ t ∈ w.queue.waiting, w.clock ≤ t.due

lemma Ticks.clock_le (h : Ticks w w') : w.clock ≤ w'.clock := by
  cases h with
  | still _ clock | add _ _ _ _ _ clock =>
    rw [clock]
    exact Nat.le_refl _
  | take h t _ clock =>
    rw [clock]
    exact Duration.le_later_left _ _
  | close h _ _ clock =>
    rw [clock]
    cases h with
    | upTo instant => exact Duration.le_later_left _ _
    | unbounded => exact Nat.le_refl _

lemma Ticks.timely (h : Ticks w w') (hw : w.Timely) : w'.Timely := by
  cases h with
  | still queue clock =>
    constructor
    · rw [queue]
      exact hw.ordered
    · rw [queue, clock]
      exact hw.clock_le
  | add delay due body instant queue clock =>
    constructor
    · rw [queue]
      exact hw.ordered.add due body
    · rw [queue, clock]
      intro t ht
      rcases Queue.mem_insertTask.mp ht with rfl | ht
      · exact Duration.le_of_add?_eq_some instant
      · exact hw.clock_le t ht
  | take h t taken clock =>
    refine ⟨hw.ordered.next? taken, fun u hu => ?_⟩
    have hwaiting := (Queue.next?_eq_some_iff.mp taken).1
    rw [clock]
    exact Duration.later_le (hw.clock_le u (hwaiting ▸ .tail t hu))
      (hw.ordered.precedes_of_next? taken hu).1.due_le
  | close h nothing queue clock =>
    constructor
    · rw [queue]
      exact hw.ordered
    · rw [queue, clock]
      intro t ht
      cases h with
      | upTo instant =>
        -- what a drive leaves waiting is beyond its horizon
        have hlt := hw.ordered.lt_due_of_next?_eq_none nothing ht
        exact Duration.later_le (hw.clock_le t ht) (Nat.le_of_lt hlt)
      | unbounded => exact hw.clock_le t ht

lemma timely_fresh (settings : Settings) (walks : Nat → List Frame) (internal : List String)
    (store : P.Store) : (fresh settings walks internal store : World P).Timely :=
  ⟨Queue.ordered_empty, by simp [fresh]⟩

/-- The outcome of a promise goes out as a task without delay, or not at all. -/
lemma ticks_of_deliver {p : PromiseId} {o : Outcome P.Value P.Error} {rs : List (Registration P)}
    (queue : w'.queue = w.queue.deliver w.clock p o rs) (clock : w'.clock = w.clock) :
    Ticks w w' := by
  by_cases h : ∃ r ∈ rs, r.observer.awaits o = true
  · rw [Queue.deliver_of_exists h] at queue
    exact .add .zero _ _ (Duration.add?_zero _) queue clock
  · rw [Queue.deliver_of_forall_not fun r hr ho => h ⟨r, hr, ho⟩] at queue
    exact .still queue clock

lemma Effect.ticks {ρ : Type} {o : Op P ρ} (h : Effect w w' o) (clock : w'.clock = w.clock) :
    Ticks w w' := by
  cases h with
  | still _ queue | make _ _ queue | enlist _ _ queue => exact .still queue clock
  | schedule instant _ queue => exact .add _ _ _ instant queue clock
  | settle _ _ queue | inform _ _ queue => exact ticks_of_deliver queue clock

end World

namespace Machine

variable {m m' : Machine P}

lemma Step.ticks (h : m.Step m') : World.Ticks m.world m'.world := by
  cases h with
  | operate performed =>
    obtain ⟨clock, effect⟩ := World.effect_of_perform performed
    exact effect.ticks clock
  | start taken => exact .take _ _ taken rfl
  | driven nothing => exact .close _ nothing rfl rfl
  | finish | drive | attempt | delivered | call | leaveOut => exact .still rfl rfl

end Machine

end Eventual
