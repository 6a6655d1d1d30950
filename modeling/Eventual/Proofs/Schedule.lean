import Eventual.Proofs.Clock
import Eventual.Session.Ledger
import Mathlib.Data.Nat.Init
import Mathlib.Tactic.IntervalCases

/-!
# The order in which tasks start

Over a whole run, nested drives included, the tasks start in the order of their instants and turns,
each at its instant and only once, and none is lost: those handed over are those that drive calls
have counted and those that wait.  A drive call whose tasks drive nothing themselves leaves nothing
that is due.  All of it rests on `World.Timely`; the main statement is `tasks_start_in_order`.
-/

namespace Eventual

variable {P : Payload}

/-! ## What happens to tasks -/

/-- Whether an activity is a drive. -/
def Activity.isDrive : Activity P → Bool
  | drive _ _ _ => true
  | _ => false

/-- The number of tasks that an activity has run as a drive. -/
def Activity.ran : Activity P → Nat
  | drive _ ran _ => ran
  | _ => 0

namespace Activity

@[simp] lemma ran_drive (h : Horizon) (ran : Nat) (k : Nat → Script P Unit) :
    (drive h ran k).ran = ran :=
  rfl

@[simp] lemma ran_script (s : Script P Unit) : (script s).ran = 0 := rfl

@[simp] lemma ran_delivery (p : PromiseId) (o : Outcome P.Value P.Error)
    (rs : List (Registration P)) : (delivery p o rs).ran = 0 :=
  rfl

@[simp] lemma ran_ofWork (work : Work P) : (ofWork work).ran = 0 := by
  cases work <;> rfl

end Activity

namespace Machine

/-- A drive is about to start a task. -/
def Starts (m : Machine P) (t : Task (Work P)) : Prop :=
  ∃ h ran k rest q, m.stack = .drive h ran k :: rest ∧ m.world.queue.next? h = some (t, q)

/-- A task is about to be handed to the scheduler, to run after a delay. -/
def HandsOver (m : Machine P) (delay : Duration) (t : Task (Work P)) : Prop :=
  m.world.clock.add? delay = some t.due ∧ t.turn = m.world.queue.scheduled ∧
    ∃ m', m.Step m' ∧ m'.world.queue = m.world.queue.add t.due t.body

/-- A drive call is about to be made. -/
def Drives (m : Machine P) : Prop := ∃ d k rest, m.stack = .script (.drive d k) :: rest

/-- A drive call is in progress. -/
def Driving (m : Machine P) : Prop := ∃ a ∈ m.stack, a.isDrive = true

/-- The number that a drive call is about to return; zero if none is. -/
def returning (m : Machine P) : Nat :=
  match m.stack with
  | .drive h ran _ :: _ => if (m.world.queue.next? h).isNone then ran else 0
  | _ => 0

/-- The number of tasks run by the drive calls in progress. -/
def underWay (m : Machine P) : Nat := m.stack.foldr (fun a n => a.ran + n) 0

end Machine

namespace Program

/-- The sum of the numbers that the drive calls have returned before a moment. -/
def returned (prog : Program P) : Nat → Nat
  | 0 => 0
  | n + 1 => prog.returned n + (prog.moment n).elim 0 Machine.returning

open Classical in
/-- The number of tasks handed to the scheduler before a moment. -/
noncomputable def handedOver (prog : Program P) : Nat → Nat
  | 0 => 0
  | n + 1 => prog.handedOver n + if prog.At n fun m => ∃ delay t, m.HandsOver delay t then 1 else 0

/-- A drive call made at moment `a` has returned at moment `b`, and left the world `w`: in between
it was in progress. -/
def Drove (prog : Program P) (a b : Nat) (d : Drive) (w : World P) : Prop :=
  ∃ k n rest, prog.At a (fun m => m.stack = .script (.drive d k) :: rest) ∧
    prog.moment b = some ⟨w, .script (k n) :: rest⟩ ∧ a < b ∧
    ∀ i, a < i → i < b →
      prog.At i fun m => ∃ l h ran, m.stack = l ++ .drive h ran k :: rest

end Program

/-! ## Counting -/

namespace World

variable {w w' : World P}

lemma scheduled_add_deliver (q : Queue (Work P)) (clock : Duration) (p : PromiseId)
    (o : Outcome P.Value P.Error) (rs : List (Registration P)) :
    (q.deliver clock p o rs).scheduled + q.waiting.length =
      q.scheduled + (q.deliver clock p o rs).waiting.length := by
  unfold Queue.deliver
  dsimp only
  split
  · rfl
  · rw [Queue.length_add, Queue.scheduled_add]
    omega

/-- An operation hands over as many tasks as it adds to those that wait. -/
lemma Effect.scheduled_add {ρ : Type} {o : Op P ρ} (h : Effect w w' o) :
    w'.queue.scheduled + w.queue.waiting.length =
      w.queue.scheduled + w'.queue.waiting.length := by
  cases h with
  | still _ queue | make _ _ queue | enlist _ _ queue => rw [queue]
  | schedule _ _ queue =>
    rw [queue, Queue.length_add, Queue.scheduled_add]
    omega
  | settle _ _ queue | inform _ _ queue =>
    rw [queue]
    exact scheduled_add_deliver ..

end World

namespace Machine

variable {m m' : Machine P}

/-- No task gets lost in a step. -/
lemma Step.balance (h : m.Step m') :
    m'.world.queue.scheduled + m.underWay + m.world.queue.waiting.length =
      m.world.queue.scheduled + m.returning + m'.underWay + m'.world.queue.waiting.length := by
  cases h with
  | operate performed =>
    have hcount := (World.effect_of_perform performed).2.scheduled_add
    simp only [underWay, returning, List.foldr_cons, Activity.ran_script]
    omega
  | start taken =>
    obtain ⟨hwaiting, -, hscheduled⟩ := Queue.next?_eq_some_iff.mp taken
    simp only [underWay, returning, List.foldr_cons, Activity.ran_ofWork, Activity.ran_drive, taken,
      hwaiting, hscheduled, List.length_cons, Option.isNone_some, Bool.false_eq_true, if_false]
    omega
  | driven nothing =>
    simp only [underWay, returning, List.foldr_cons, Activity.ran_drive, Activity.ran_script,
      nothing, World.finishDrive, Option.isNone_none, if_true]
    omega
  | drive =>
    simp only [underWay, returning, List.foldr_cons, Activity.ran_drive, Activity.ran_script]
    omega
  | finish | attempt =>
    simp only [underWay, returning, List.foldr_cons, Activity.ran_script]
    omega
  | call =>
    simp only [underWay, returning, List.foldr_cons, Activity.ran_script, Activity.ran_delivery]
    omega
  | delivered | leaveOut =>
    simp only [underWay, returning, List.foldr_cons, Activity.ran_delivery]
    omega

lemma underWay_eq_zero (h : ¬ m.Driving) : m.underWay = 0 := by
  obtain ⟨w, stack⟩ := m
  have hran : ∀ a ∈ stack, a.ran = 0 := by
    intro a ha
    cases a with
    | drive hor ran k => exact absurd ⟨_, ha, rfl⟩ h
    | script | delivery => rfl
  change stack.foldr (fun a n => a.ran + n) 0 = 0
  clear h
  induction stack with
  | nil => rfl
  | cons a rest ih =>
    rw [List.foldr_cons, hran a (.head rest), ih fun b hb => hran b (.tail a hb)]

/-- A step gives out one turn if it hands over a task, and none otherwise. -/
lemma Step.scheduled_eq (h : m.Step m') :
    (∃ delay t, m.HandsOver delay t) ∧ m'.world.queue.scheduled = m.world.queue.scheduled + 1 ∨
      (¬ ∃ delay t, m.HandsOver delay t) ∧
        m'.world.queue.scheduled = m.world.queue.scheduled := by
  have hnot : m'.world.queue.scheduled = m.world.queue.scheduled →
      ¬ ∃ delay t, m.HandsOver delay t := by
    rintro hsame ⟨delay, t, -, -, m'', hstep, hqueue⟩
    rw [← hstep.unique h, hqueue, Queue.scheduled_add] at hsame
    omega
  cases h.ticks with
  | add delay due body instant queue =>
    refine Or.inl ⟨⟨delay, ⟨due, _, body⟩, instant, rfl, m', h, queue⟩, ?_⟩
    rw [queue, Queue.scheduled_add]
  | still queue =>
    have hsame := congrArg Queue.scheduled queue
    exact Or.inr ⟨hnot hsame, hsame⟩
  | take _ _ taken =>
    have hsame := (Queue.next?_eq_some_iff.mp taken).2.2
    exact Or.inr ⟨hnot hsame, hsame⟩
  | close _ _ queue =>
    have hsame := congrArg Queue.scheduled queue
    exact Or.inr ⟨hnot hsame, hsame⟩

end Machine

namespace Program

variable {prog : Program P} {n : Nat} {m : Machine P}

lemma timely (h : prog.moment n = some m) : m.world.Timely :=
  invariant (I := fun m => m.world.Timely) (World.timely_fresh ..)
    (fun _ _ hm hstep => hstep.ticks.timely hm) h

lemma handedOver_eq (h : prog.moment n = some m) :
    prog.handedOver n = m.world.queue.scheduled := by
  induction n generalizing m with
  | zero =>
    cases h
    rfl
  | succ n ih =>
    obtain ⟨m₁, h₁, hstep⟩ := moment_succ_eq_some_iff.mp h
    have hat : prog.At n (fun m => ∃ delay t, m.HandsOver delay t) ↔
        ∃ delay t, m₁.HandsOver delay t :=
      ⟨fun ⟨m₂, h₂, hm₂⟩ => Option.some.inj (h₂.symm.trans h₁) ▸ hm₂, fun hm₁ => ⟨m₁, h₁, hm₁⟩⟩
    rw [handedOver, ih h₁]
    rcases hstep.scheduled_eq with ⟨hands, hscheduled⟩ | ⟨hands, hscheduled⟩
    · rw [if_pos (hat.mpr hands), hscheduled]
    · rw [if_neg (hat.not.mpr hands), hscheduled, Nat.add_zero]

lemma handedOver_eq_returned (h : prog.moment n = some m) :
    prog.handedOver n = prog.returned n + m.underWay + m.world.pending := by
  rw [handedOver_eq h]
  induction n generalizing m with
  | zero =>
    cases h
    rfl
  | succ n ih =>
    obtain ⟨m₁, h₁, hstep⟩ := moment_succ_eq_some_iff.mp h
    have hbefore := ih h₁
    have hbalance := hstep.balance
    rw [returned, h₁, Option.elim_some]
    simp only [World.pending] at hbefore ⊢
    omega

end Program

/-! ## What has started -/

namespace World

variable {w w' : World P} {t : Task (Work P)}

/-- A task lies in the past of a world: its turn is behind it, and whatever waits comes later. -/
structure Passed (t : Task (Work P)) (w : World P) : Prop where
  due_le : t.due ≤ w.clock
  turn_lt : t.turn < w.queue.scheduled
  precedes : ∀ u ∈ w.queue.waiting, t.Precedes u ∧ t.turn ≠ u.turn

/-- What has passed stays passed: a task that is handed over is due no earlier than now. -/
lemma Ticks.passed (h : Ticks w w') (ht : Passed t w) : Passed t w' := by
  have hclock := Nat.le_trans ht.due_le h.clock_le
  cases h with
  | still queue | close _ _ queue =>
    refine ⟨hclock, ?_, ?_⟩ <;> rw [queue]
    · exact ht.turn_lt
    · exact ht.precedes
  | add delay due body instant queue =>
    refine ⟨hclock, ?_, ?_⟩ <;> rw [queue]
    · exact Nat.lt_succ_of_lt ht.turn_lt
    · intro u hu
      rcases Queue.mem_insertTask.mp hu with rfl | hu
      · have hdue : t.due.nanos ≤ due.nanos :=
          Nat.le_trans ht.due_le (Duration.le_of_add?_eq_some instant)
        have hturn := ht.turn_lt
        exact ⟨Task.precedes_iff.mpr (by dsimp only; omega), Nat.ne_of_lt hturn⟩
      · exact ht.precedes u hu
  | take h u taken =>
    obtain ⟨hwaiting, -, hscheduled⟩ := Queue.next?_eq_some_iff.mp taken
    exact ⟨hclock, hscheduled ▸ ht.turn_lt, fun v hv => ht.precedes v (hwaiting ▸ .tail u hv)⟩

lemma Effect.mem_waiting {ρ : Type} {o : Op P ρ} (h : Effect w w' o)
    (ht : t ∈ w.queue.waiting) : t ∈ w'.queue.waiting := by
  cases h with
  | still _ queue | make _ _ queue | enlist _ _ queue => exact queue ▸ ht
  | schedule _ _ queue => exact queue ▸ Queue.mem_insertTask.mpr (Or.inr ht)
  | settle _ _ queue | inform _ _ queue =>
    rw [queue, Queue.deliver]
    split
    · exact ht
    · exact Queue.mem_insertTask.mpr (Or.inr ht)

end World

namespace Machine

variable {m m' : Machine P} {t u : Task (Work P)}

lemma Starts.mem_waiting (h : m.Starts t) : t ∈ m.world.queue.waiting := by
  obtain ⟨hor, ran, k, rest, q, -, hn⟩ := h
  rw [(Queue.next?_eq_some_iff.mp hn).1]
  exact .head _

lemma Starts.le_waiting (h : m.Starts t) (hm : m.world.Timely) (hu : u ∈ m.world.queue.waiting) :
    u = t ∨ t.Precedes u := by
  obtain ⟨hor, ran, k, rest, q, -, hn⟩ := h
  obtain ⟨⟨ht, hgreatest⟩, -⟩ := (hm.ordered.next?_iff_greatest hor).mp ⟨q, hn⟩
  exact hm.ordered.eq_or_precedes ht hu (Task.isLE_urgency_iff.mp (hgreatest u hu))

lemma Starts.clock_eq (h : m.Starts t) (hm : m.world.Timely) (hstep : m.Step m') :
    m'.world.clock = t.due := by
  have hle := hm.clock_le t h.mem_waiting
  obtain ⟨w, stack⟩ := m
  obtain ⟨hor, ran, k, rest, q, rfl, hn⟩ := h
  cases hstep.unique (.start hn)
  exact Duration.later_eq_right hle

lemma Starts.passed (h : m.Starts t) (hm : m.world.Timely) (hstep : m.Step m') :
    World.Passed t m'.world := by
  have hclock := h.clock_eq hm hstep
  obtain ⟨w, stack⟩ := m
  obtain ⟨hor, ran, k, rest, q, rfl, hn⟩ := h
  cases hstep.unique (.start hn)
  obtain ⟨hwaiting, -, hscheduled⟩ := Queue.next?_eq_some_iff.mp hn
  refine ⟨Nat.le_of_eq (congrArg Duration.nanos hclock.symm), ?_, ?_⟩
  · change t.turn < q.scheduled
    rw [hscheduled]
    exact hm.ordered.turn_lt t (hwaiting ▸ .head _)
  · exact fun u hu => hm.ordered.precedes_of_next? hn hu

/-- A task that waits goes on waiting or starts. -/
lemma Step.waiting_or_starts (h : m.Step m') (ht : t ∈ m.world.queue.waiting) :
    t ∈ m'.world.queue.waiting ∨ m.Starts t := by
  cases h with
  | operate performed =>
    exact Or.inl ((World.effect_of_perform performed).2.mem_waiting ht)
  | start taken =>
    rw [(Queue.next?_eq_some_iff.mp taken).1] at ht
    rcases List.mem_cons.mp ht with rfl | ht
    · exact Or.inr ⟨_, _, _, _, _, rfl, taken⟩
    · exact Or.inl ht
  | finish | drive | attempt | delivered | call | leaveOut | driven => exact Or.inl ht

end Machine

namespace Program

variable {prog : Program P} {i j n : Nat} {m m' : Machine P} {t u : Task (Work P)}

/-- Once a task has started, it has passed. -/
lemma passed_of_starts (hij : i < j) (hi : prog.moment i = some m) (ht : m.Starts t)
    (hj : prog.moment j = some m') : World.Passed t m'.world := by
  obtain ⟨m₁, h₁⟩ := exists_moment_of_le (Nat.succ_le_of_lt hij) hj
  refine carry (I := fun m => World.Passed t m.world) ?_ (Nat.succ_le_of_lt hij) h₁ ?_ hj
  · exact fun _ _ hm hstep => hstep.ticks.passed hm
  · exact ht.passed (timely hi) (step_of_moment hi h₁)

/-- A task that was waiting still waits or has started in the meantime. -/
lemma waiting_or_started (hij : i ≤ j) (hi : prog.moment i = some m)
    (ht : t ∈ m.world.queue.waiting) (hj : prog.moment j = some m') :
    t ∈ m'.world.queue.waiting ∨ ∃ n < j, prog.At n fun m => m.Starts t := by
  induction j, hij using Nat.le_induction generalizing m' with
  | base =>
    cases hi.symm.trans hj
    exact Or.inl ht
  | succ j hij ih =>
    obtain ⟨m₁, h₁, hstep⟩ := moment_succ_eq_some_iff.mp hj
    rcases ih h₁ with hwaits | ⟨n, hn, hstarts⟩
    · rcases hstep.waiting_or_starts hwaits with hwaits | hstarts
      · exact Or.inl hwaits
      · exact Or.inr ⟨j, Nat.lt_succ_self j, m₁, h₁, hstarts⟩
    · exact Or.inr ⟨n, Nat.lt_succ_of_lt hn, hstarts⟩

lemma scheduled_le (hij : i ≤ j) (hi : prog.moment i = some m) (hj : prog.moment j = some m') :
    m.world.queue.scheduled ≤ m'.world.queue.scheduled := by
  refine carry (I := fun m₁ => m.world.queue.scheduled ≤ m₁.world.queue.scheduled) ?_ hij hi
    (Nat.le_refl _) hj
  intro m₁ m₂ h₁ hstep
  rcases hstep.scheduled_eq with ⟨-, heq⟩ | ⟨-, heq⟩ <;> omega

lemma clock_le (hij : i ≤ j) (hi : prog.moment i = some m) (hj : prog.moment j = some m') :
    m.world.clock ≤ m'.world.clock :=
  carry (I := fun m₁ => m.world.clock ≤ m₁.world.clock)
    (fun _ _ h₁ hstep => Nat.le_trans h₁ hstep.ticks.clock_le) hij hi (Nat.le_refl _) hj

/-- Of two tasks with the same delay, the one that was handed over first starts first. -/
lemma starts_of_handsOver {a b : Nat} {delay : Duration} (hab : a < b)
    (ha : prog.At a fun m => m.HandsOver delay t) (hb : prog.At b fun m => m.HandsOver delay u)
    (hj : prog.moment j = some m) (hu : m.Starts u) : ∃ i < j, prog.At i fun m => m.Starts t := by
  obtain ⟨ma, hma, hta, hturna, m₁, hstep, hqueue⟩ := ha
  obtain ⟨mb, hmb, htb, hturnb, -⟩ := hb
  have h₁ : prog.moment (a + 1) = some m₁ := moment_succ_eq_some_iff.mpr ⟨ma, hma, hstep⟩
  have hclock : ma.world.clock.nanos ≤ mb.world.clock.nanos := clock_le (Nat.le_of_lt hab) hma hmb
  have hturn := scheduled_le hab h₁ hmb
  rw [hqueue, Queue.scheduled_add] at hturn
  have hulast := (timely hj).ordered.turn_lt u hu.mem_waiting
  have hbj : b < j := by
    by_contra hle
    have := scheduled_le (Nat.not_lt.mp hle) hj hmb
    omega
  have hwaits : t ∈ m₁.world.queue.waiting := by
    rw [hqueue]
    obtain ⟨due, turn, body⟩ := t
    cases hturna
    exact Queue.mem_insertTask.mpr (Or.inl rfl)
  rcases waiting_or_started (by omega) h₁ hwaits hj with hwaits | hstarted
  · -- both wait when `u` starts, but `t` is due no later and has the earlier turn
    exfalso
    rw [Duration.add?_eq_some_iff] at hta htb
    rcases hu.le_waiting (timely hj) hwaits with rfl | hut
    · omega
    · rw [Task.precedes_iff] at hut
      omega
  · exact hstarted

end Program

/-! ## What a drive call leaves -/

@[simp] lemma Activity.isDrive_ofWork (work : Work P) : (Activity.ofWork work).isDrive = false := by
  cases work <;> rfl

/-- A drive below other activities is not where a script is. -/
lemma Activity.append_drive_ne_script (l : List (Activity P)) {h : Horizon} {ran : Nat}
    {k : Nat → Script P Unit} {s : Script P Unit} {rest : List (Activity P)} :
    l ++ .drive h ran k :: rest ≠ .script s :: rest := by
  intro heq
  cases l with
  | nil => cases heq
  | cons x l =>
    have hlen := congrArg List.length heq
    simp only [List.length_append, List.length_cons, List.cons_append] at hlen
    omega

namespace Machine

/-- A step changes the innermost activity only.  Unless that is a drive, or becomes one by a drive
call, the clock stands still and no drive is added. -/
lemma Step.frame {w : World P} {x : Activity P} {s : List (Activity P)} {m' : Machine P}
    (h : Step ⟨w, x :: s⟩ m') :
    ∃ new, m'.stack = new ++ s ∧
      (x.isDrive = false → ¬ Drives ⟨w, x :: s⟩ →
        m'.world.clock = w.clock ∧ ∀ a ∈ new, a.isDrive = false) := by
  cases h with
  | finish | delivered => exact ⟨[], rfl, fun _ _ => ⟨rfl, by simp⟩⟩
  | @operate _ w' _ _ k r _ performed =>
    exact ⟨[.script (k r)], rfl,
      fun _ _ => ⟨(World.effect_of_perform performed).1, by simp [Activity.isDrive]⟩⟩
  | @drive _ d hor k =>
    exact ⟨[.drive hor 0 k], rfl, fun _ hno => absurd ⟨d, k, s, rfl⟩ hno⟩
  | @attempt _ r k =>
    exact ⟨[.script (w.nextAttempt r), .script k], rfl,
      fun _ _ => ⟨rfl, by simp [Activity.isDrive]⟩⟩
  | @call _ p o _ rs body =>
    exact ⟨[.script body, .delivery p o rs], rfl, fun _ _ => ⟨rfl, by simp [Activity.isDrive]⟩⟩
  | @leaveOut _ p o _ rs =>
    exact ⟨[.delivery p o rs], rfl, fun _ _ => ⟨rfl, by simp [Activity.isDrive]⟩⟩
  | @start _ hor ran k t =>
    exact ⟨[.ofWork t.body, .drive hor (ran + 1) k], rfl, fun hx _ => nomatch hx⟩
  | @driven _ hor ran k => exact ⟨[.script (k ran)], rfl, fun hx _ => nomatch hx⟩

/-- A drive goes only as far as its horizon. -/
lemma Step.of_drive {w : World P} {h : Horizon} {ran : Nat} {k : Nat → Script P Unit}
    {s : List (Activity P)} {m' : Machine P} (hstep : Step ⟨w, .drive h ran k :: s⟩ m') :
    (∃ work, m'.stack = .ofWork work :: .drive h (ran + 1) k :: s ∧
      ∀ instant, h = .upTo instant → w.clock ≤ instant → m'.world.clock ≤ instant) ∨
    (w.queue.next? h = none ∧ m' = ⟨w.finishDrive h, .script (k ran) :: s⟩) := by
  cases hstep with
  | start taken =>
    refine Or.inl ⟨_, rfl, ?_⟩
    rintro instant rfl hle
    exact Duration.later_le hle (of_decide_eq_true (Queue.next?_eq_some_iff.mp taken).2.1)
  | driven nothing => exact Or.inr ⟨nothing, rfl⟩

end Machine

lemma Drive.le_of_horizon? {d : Drive} {clock instant : Duration}
    (h : d.horizon? clock = some (.upTo instant)) : clock ≤ instant := by
  cases d with
  | idle =>
    cases h
    exact Nat.le_refl _
  | advance span =>
    obtain ⟨c, hc, heq⟩ := Option.map_eq_some_iff.mp h
    cases heq
    exact Duration.le_of_add?_eq_some hc
  | all => cases h

namespace Program

variable {prog : Program P}

/-- While a drive call is in progress its drive stays on the stack.  As long as nothing driven has
driven the clock itself, only scripts and deliveries are above it and the clock is within its
horizon. -/
lemma drive_in_progress {a b : Nat} {w : World P} {d : Drive} {k : Nat → Script P Unit}
    {rest : List (Activity P)} {h : Horizon}
    (ha : prog.moment a = some ⟨w, .script (.drive d k) :: rest⟩) (hh : d.horizon? w.clock = some h)
    (during : ∀ i, a < i → i < b →
      prog.At i fun m => ∃ l h ran, m.stack = l ++ .drive h ran k :: rest)
    {i : Nat} (hai : a < i) (hib : i < b) :
    prog.At i fun m => ∃ l ran, m.stack = l ++ .drive h ran k :: rest ∧
      ((∀ j, a < j → j < b → ¬ prog.At j fun m => m.Drives) →
        (∀ x ∈ l, x.isDrive = false) ∧
          ∀ instant, h = .upTo instant → m.world.clock ≤ instant) := by
  induction i, hai using Nat.le_induction with
  | base =>
    have hnext : prog.moment (a + 1) = some ⟨w, .drive h 0 k :: rest⟩ :=
      moment_succ_eq_some_iff.mpr ⟨_, ha, .drive hh⟩
    refine ⟨_, hnext, [], 0, rfl, fun _ => ⟨by simp, ?_⟩⟩
    rintro instant rfl
    exact Drive.le_of_horizon? hh
  | succ i hai ih =>
    obtain ⟨⟨w₁, stack⟩, h₁, l, ran, hstack, hplain⟩ := ih (Nat.lt_of_succ_lt hib)
    obtain ⟨m', h', l', h₂, ran', hstack'⟩ := during (i + 1) (Nat.lt_succ_of_lt hai) hib
    have hstep := step_of_moment h₁ h'
    refine ⟨m', h', ?_⟩
    cases hstack
    cases l with
    | nil =>
      rcases hstep.of_drive with ⟨work, hwork, hclock⟩ | ⟨-, rfl⟩
      · refine ⟨[.ofWork work], ran + 1, hwork, fun hno => ⟨by simp, fun instant hinst => ?_⟩⟩
        exact hclock instant hinst ((hplain hno).2 instant hinst)
      · -- the drive would be over, but it is still in progress at the next moment
        exact absurd hstack'.symm (Activity.append_drive_ne_script l')
    | cons x l =>
      obtain ⟨new, hnew, hframe⟩ := hstep.frame
      refine ⟨new ++ l, ran, by rw [hnew, List.append_assoc]; rfl, fun hno => ?_⟩
      obtain ⟨hl, hclock⟩ := hplain hno
      obtain ⟨hsame, hplain'⟩ := hframe (hl x (.head l)) fun hdrives =>
        hno i hai (Nat.lt_of_succ_lt hib) ⟨_, h₁, hdrives⟩
      refine ⟨fun y hy => ?_, fun instant hinst => hsame ▸ hclock instant hinst⟩
      rcases List.mem_append.mp hy with hy | hy
      · exact hplain' y hy
      · exact hl y (.tail x hy)

/-- A drive call returns when nothing within its horizon waits, and leaves the clock there. -/
lemma ends_of_drove {a b : Nat} {d : Drive} {w' : World P} (hdrove : prog.Drove a b d w') :
    ∃ (clock : Duration) (h : Horizon) (w₁ : World P), d.horizon? clock = some h ∧
      w₁.queue.next? h = none ∧ w₁.Timely ∧ w' = w₁.finishDrive h ∧
      ((∀ j, a < j → j < b → ¬ prog.At j fun m => m.Drives) →
        ∀ instant, h = .upTo instant → w₁.clock ≤ instant) := by
  obtain ⟨k, n, rest, ⟨⟨w, stack⟩, ha, hstack⟩, hb, hab, during⟩ := hdrove
  cases hstack
  obtain ⟨i, rfl⟩ : ∃ i, b = i + 1 := ⟨b - 1, by omega⟩
  obtain ⟨m₁, h₁, hstep⟩ := moment_succ_eq_some_iff.mp hb
  obtain ⟨h, hh⟩ : ∃ h, d.horizon? w.clock = some h := by
    obtain ⟨m₂, h₂⟩ := exists_moment_of_le hab hb
    cases step_of_moment ha h₂ with
    | drive hh => exact ⟨_, hh⟩
  have hai : a < i := by
    rcases Nat.lt_succ_iff_lt_or_eq.mp hab with hai | rfl
    · exact hai
    · cases ha.symm.trans h₁
      cases hstep.unique (.drive hh)
  obtain ⟨⟨w₁, stack⟩, h₁', l, ran, hstack, hplain⟩ :=
    drive_in_progress ha hh during hai (Nat.lt_succ_self i)
  cases h₁.symm.trans h₁'
  cases hstack
  cases l with
  | nil =>
    rcases hstep.of_drive with ⟨work, hwork, -⟩ | ⟨hnothing, hend⟩
    · exact absurd hwork.symm (Activity.append_drive_ne_script [.ofWork work])
    · have hw' : w' = w₁.finishDrive h := congrArg Machine.world hend
      exact ⟨w.clock, h, w₁, hh, hnothing, timely h₁, hw', fun hno => (hplain hno).2⟩
  | cons x l =>
    -- something is above the drive, so it cannot return in this step
    obtain ⟨new, hnew, -⟩ := hstep.frame
    have happend : new ++ l ++ .drive h ran k :: rest = .script (k n) :: rest := by
      rw [List.append_assoc]
      exact hnew.symm
    exact absurd happend (Activity.append_drive_ne_script (new ++ l))

/-- **Tasks start in order, at their instants, once, and none is lost.**  In every run, however
drives nest:

* nothing waits for an instant that has passed, and the clock never goes back;
* a task that starts precedes all others that wait, and all that start later, so of two tasks with
  the same delay the one handed over first starts first;
* when a task starts, the clock is set to exactly its instant;
* no turn is started twice, and while no drive call is in progress the tasks handed over so far are
  those that the drive calls have counted and those that wait;
* a drive call to an instant whose tasks made no drive call themselves leaves nothing that is due,
  and a drive call without end leaves nothing at all. -/
theorem tasks_start_in_order (prog : Program P) :
    (∀ i m, prog.moment i = some m → ∀ t ∈ m.world.queue.waiting, m.world.clock ≤ t.due) ∧
    (∀ i j m m', i ≤ j → prog.moment i = some m → prog.moment j = some m' →
      m.world.clock ≤ m'.world.clock) ∧
    (∀ i m t, prog.moment i = some m → m.Starts t →
      t ∈ m.world.queue.waiting ∧ ∀ u ∈ m.world.queue.waiting, u = t ∨ t.Precedes u) ∧
    (∀ i j t u, i < j → prog.At i (fun m => m.Starts t) → prog.At j (fun m => m.Starts u) →
      t.Precedes u) ∧
    (∀ a b j delay t u, a < b → prog.At a (fun m => m.HandsOver delay t) →
      prog.At b (fun m => m.HandsOver delay u) → prog.At j (fun m => m.Starts u) →
      ∃ i < j, prog.At i fun m => m.Starts t) ∧
    (∀ i m t, prog.At i (fun m => m.Starts t) → prog.moment (i + 1) = some m →
      m.world.clock = t.due) ∧
    (∀ i j t u, prog.At i (fun m => m.Starts t) → prog.At j (fun m => m.Starts u) →
      t.turn = u.turn → i = j) ∧
    (∀ n m, prog.moment n = some m → ¬ m.Driving →
      prog.handedOver n = prog.returned n + m.world.pending) ∧
    (∀ a b d w, prog.Drove a b d w → d ≠ .all →
      (∀ j, a < j → j < b → ¬ prog.At j fun m => m.Drives) →
      ∀ t ∈ w.queue.waiting, w.clock < t.due) ∧
    ∀ a b w, prog.Drove a b .all w → w.queue.waiting = [] := by
  have hpassed : ∀ i j t u, i < j → prog.At i (fun m => m.Starts t) →
      prog.At j (fun m => m.Starts u) → t.Precedes u ∧ t.turn ≠ u.turn := by
    rintro i j t u hij ⟨m, hi, ht⟩ ⟨m', hj, hu⟩
    exact (passed_of_starts hij hi ht hj).precedes u hu.mem_waiting
  refine ⟨fun i m hi => (timely hi).clock_le, fun i j m m' => clock_le,
    fun i m t hi ht => ⟨ht.mem_waiting, fun u => ht.le_waiting (timely hi)⟩,
    fun i j t u hij ht hu => (hpassed i j t u hij ht hu).1, ?_, ?_, ?_, ?_, ?_, ?_⟩
  · rintro a b j delay t u hab ha hb ⟨m, hj, hu⟩
    exact starts_of_handsOver hab ha hb hj hu
  · rintro i m' t ⟨m, hi, ht⟩ hnext
    exact ht.clock_eq (timely hi) (step_of_moment hi hnext)
  · intro i j t u ht hu hturn
    rcases Nat.lt_trichotomy i j with hij | rfl | hji
    · exact absurd hturn (hpassed i j t u hij ht hu).2
    · rfl
    · exact absurd hturn.symm (hpassed j i u t hji hu ht).2
  · intro n m hn hidle
    rw [handedOver_eq_returned hn, Machine.underWay_eq_zero hidle, Nat.add_zero]
  · intro a b d w hdrove hd hno t ht
    obtain ⟨clock, h, w₁, hh, hnothing, htimely, rfl, hclock⟩ := ends_of_drove hdrove
    cases h with
    | upTo instant =>
      have hreached : w₁.clock.later instant = instant :=
        Duration.later_eq_right (hclock hno instant rfl)
      change w₁.clock.later instant < t.due
      rw [hreached]
      exact htimely.ordered.lt_due_of_next?_eq_none hnothing ht
    | unbounded =>
      cases d with
      | idle => cases hh
      | advance span =>
        obtain ⟨_, _, heq⟩ := Option.map_eq_some_iff.mp hh
        cases heq
      | all => exact absurd rfl hd
  · intro a b w hdrove
    obtain ⟨clock, h, w₁, hh, hnothing, -, rfl, -⟩ := ends_of_drove hdrove
    cases hh
    exact Queue.waiting_eq_nil_of_next?_unbounded hnothing

/-- A program of three tasks: the first one hands over the third and drives the clock itself. -/
def nestedDrives : Program Session.Play where
  settings := .withoutTraces
  walks _ := []
  internal := []
  store := {}
  main := do
    Script.schedule (.millis 1) (do
      Script.schedule .zero (pure ())
      discard Script.runAll)
    Script.schedule (.millis 2) (pure ())
    discard Script.runAll

/-- In `nestedDrives` the third task starts before the second, and the drive call in the first task
leaves nothing; at the end all three are counted. -/
theorem tasks_start_in_order_nestedDrives :
    ∃ t u w m, nestedDrives.At 6 (fun m => m.Starts t) ∧ nestedDrives.At 8 (fun m => m.Starts u) ∧
      t.turn = 2 ∧ u.turn = 1 ∧ t.Precedes u ∧
      nestedDrives.Drove 5 11 .all w ∧ w.queue.waiting = [] ∧
      nestedDrives.moment 14 = some m ∧ ¬ m.Driving ∧
      nestedDrives.handedOver 14 = nestedDrives.returned 14 + m.world.pending := by
  obtain ⟨-, -, -, hprecedes, -, -, -, hcount, -, hall⟩ := tasks_start_in_order nestedDrives
  have ht : nestedDrives.At 6 fun m => m.Starts _ := ⟨_, rfl, _, _, _, _, _, rfl, rfl⟩
  have hu : nestedDrives.At 8 fun m => m.Starts _ := ⟨_, rfl, _, _, _, _, _, rfl, rfl⟩
  obtain ⟨w, hdrove⟩ : ∃ w, nestedDrives.Drove 5 11 .all w := by
    refine ⟨_, _, 2, _, ⟨_, rfl, rfl⟩, rfl, by decide, fun i hi hj => ?_⟩
    interval_cases i
    · exact ⟨_, rfl, [], _, _, rfl⟩
    · exact ⟨_, rfl, [_], _, _, rfl⟩
    · exact ⟨_, rfl, [], _, _, rfl⟩
    · exact ⟨_, rfl, [_], _, _, rfl⟩
    · exact ⟨_, rfl, [], _, _, rfl⟩
  obtain ⟨m, hm, hidle⟩ : ∃ m, nestedDrives.moment 14 = some m ∧ ¬ m.Driving := by
    refine ⟨_, rfl, ?_⟩
    rintro ⟨a, ha, -⟩
    cases ha
  exact ⟨_, _, w, m, ht, hu, rfl, rfl, hprecedes 6 8 _ _ (by decide) ht hu, hdrove,
    hall 5 11 w hdrove, hm, hidle, hcount 14 m hm hidle⟩

end Program

end Eventual
