import Eventual.Proofs.Chores
import Eventual.Proofs.Pieces
import Eventual.Proofs.SessionLikeness

/-!
# Without retry loops every run ends

A script is loopless if no attempt of a retry loop ever comes of it.  A machine all of whose chores
are loopless does one chore after the other, and never without end (`Machine.Loopless.stops`).  So a
drive call until no task waits returns in every state that a loopless program reaches, unless an
instant is needed that does not exist, and then nothing waits (`World.RunsDry`).  There is a number
of steps after which the run of such a program is not given up (`Program.Drains.run_ends`).  Steps
of sessions are loopless if they do not use retry loops, since they are then alike to themselves in
a likeness that has none.
-/

namespace Eventual

variable {P : Payload}

/-! ## No attempts -/

namespace Chore

/-- The chore is to make an attempt of a retry loop. -/
def IsAttempt : Chore P → Prop
  | script (.attempt _ _) => True
  | _ => False

/-- Neither is the chore an attempt of a retry loop, nor does one come of it at last. -/
def Loopless (x : Chore P) : Prop := ∀ y, Relation.ReflTransGen ComesOf y x → ¬ y.IsAttempt

lemma Loopless.of_comesOf {x y : Chore P} (hx : x.Loopless) (h : ComesOf y x) : y.Loopless :=
  fun z hz => hx z (hz.tail h)

lemma loopless_of_forall {x : Chore P} (hx : ¬ x.IsAttempt)
    (h : ∀ y, ComesOf y x → y.Loopless) : x.Loopless := by
  intro z hz
  rcases hz.cases_tail with rfl | ⟨y, hzy, hyx⟩
  · exact hx
  · exact h y hyx z hzy

lemma loopless_round : (round : Chore P).Loopless := by
  refine loopless_of_forall id fun y hy => ?_
  cases hy

lemma loopless_delivery : (delivery : Chore P).Loopless := by
  refine loopless_of_forall id fun y h => ?_
  cases h
  exact loopless_round

lemma loopless_pure {α : Type} (a : α) : (script (.pure a) : Chore P).Loopless := by
  refine loopless_of_forall id fun y hy => ?_
  cases hy

lemma loopless_drive {α : Type} {k : Nat → Script P α} (h : ∀ n, (script (k n)).Loopless) :
    (drive k).Loopless := by
  refine loopless_of_forall id fun y hy => ?_
  cases hy with
  | driven _ n => exact h n

lemma loopless_task {body : Script P Unit} (h : (script body).Loopless) : (task body).Loopless := by
  refine loopless_of_forall id fun y hy => ?_
  cases hy
  exact h

lemma loopless_telling {ob : Observer P}
    (h : ∀ o body, ob.handler? o = some body → (script body).Loopless) : (telling ob).Loopless := by
  refine loopless_of_forall id fun y hy => ?_
  cases hy with
  | called handler => exact h _ _ handler

/-- Of an operation come what follows it, what it hands over, and a delivery. -/
lemma loopless_op {ρ α : Type} {o : Op P ρ} {k : ρ → Script P α}
    (hk : ∀ r, (script (k r)).Loopless) (ho : ∀ x, o.Entrusts x → x.Loopless) :
    (script (.op o k)).Loopless := by
  refine loopless_of_forall id fun y hy => ?_
  cases hy with
  | rest _ _ r => exact hk r
  | entrusted entrusts => exact ho y entrusts
  | sent => exact loopless_delivery

end Chore

/-! ## Likenesses without retry loops -/

/-- **Scripts that are alike without retry loops are loopless.** -/
theorem Script.Alike.loopless {L : Likeness P} (hno : ¬ L.loops) (hS : ∀ s, L.segment s s)
    (hstore : ∀ x, L.store x x) {α : Type} {R : α → α → Prop} {s s' : Script P α}
    (h : s.Alike L R s') : (Chore.script s).Loopless := by
  induction h with
  | pure => exact Chore.loopless_pure _
  | @op _ _ _ o o' k k' alike _ ih =>
    -- the same answer may be given twice, since stacks and stores are alike to themselves
    have hanswers : ∀ r, o.Answers L r r := by
      intro r
      cases o with
      | view => exact .refl hS r
      | load => exact hstore r
      | _ => rfl
    refine Chore.loopless_op (fun r => ih r r (hanswers r)) fun x hx => ?_
    cases o with
    | observe | schedule => exact alike.elim
    | _ => exact hx.elim
  | @observe _ _ p ob ob' k k' awaits _ _ ihcallbacks ih =>
    refine Chore.loopless_op (fun _ => ih) fun x hx => ?_
    obtain rfl : x = .telling ob := hx
    refine Chore.loopless_telling fun o body handler => ?_
    -- the other observer waits for the same, so its callback can be compared with this one
    have hawaits : ob'.awaits o = true := by
      rw [← awaits o o (.refl hS o), Observer.awaits, handler]
      rfl
    obtain ⟨body', handler'⟩ := Option.isSome_iff_exists.mp hawaits
    exact ihcallbacks o o body body' (.refl hS o) handler handler'
  | @schedule _ _ delay body body' k k' _ _ ihtask ih =>
    refine Chore.loopless_op (fun _ => ih) fun x hx => ?_
    obtain rfl : x = .task body := hx
    exact Chore.loopless_task ihtask
  | openRetry result interval _ _ _ _ _ ih => exact Chore.loopless_op ih fun _ hx => hx.elim
  | drive d _ ih =>
    refine Chore.loopless_of_forall id fun y hy => ?_
    cases hy
    exact Chore.loopless_drive ih
  | attempt r loops => exact absurd loops hno

/-! ## Machines without attempts -/

namespace Machine

variable {m m' : Machine P}

/-- No attempt of a retry loop is ever made. -/
def Loopless (m : Machine P) : Prop := ∀ x ∈ m.chores, x.Loopless

/-- The run of a machine comes to another one, and until then a property holds. -/
def Until (Q : Machine P → Prop) (m m' : Machine P) : Prop :=
  ∃ n, m.after n = some m' ∧ ∀ i < n, ∃ m₁, m.after i = some m₁ ∧ Q m₁

/-- The run stops here for want of an instant. -/
def Overflows (m : Machine P) : Prop := ∃ w, m.step = .overflow w

lemma Until.refl (Q : Machine P → Prop) (m : Machine P) : Until Q m m :=
  ⟨0, rfl, fun _ hi => absurd hi (Nat.not_lt_zero _)⟩

lemma Until.head {Q : Machine P → Prop} {m₁ : Machine P} (hm : Q m) (hstep : m.Step m₁)
    (h : Until Q m₁ m') : Until Q m m' := by
  have hafter : ∀ i, m.after (i + 1) = m₁.after i := by
    intro i
    have hone : m.after 1 = some m₁ := after_succ_eq_some_iff.mpr ⟨m, rfl, hstep⟩
    rw [Nat.add_comm, after_add, hone, Option.bind_some]
  obtain ⟨n, hn, hbefore⟩ := h
  refine ⟨n + 1, (hafter n).trans hn, fun i hi => ?_⟩
  cases i with
  | zero => exact ⟨m, rfl, hm⟩
  | succ i =>
    obtain ⟨m₂, hm₂, hQ⟩ := hbefore i (by omega)
    exact ⟨m₂, (hafter i).trans hm₂, hQ⟩

lemma Loopless.not_attempt (hm : m.Loopless) :
    ∀ r k rest, m.stack ≠ .script (.attempt r k) :: rest := by
  intro r k rest hstack
  have hmem : .script (.attempt r k) ∈ m.chores := by
    simp [chores, hstack, Activity.chores]
  exact hm _ hmem _ .refl trivial

lemma Loopless.step (hm : m.Loopless) (h : m.Step m') : m'.Loopless :=
  (h.progress hm.not_attempt).forall (fun hy hx => hx.of_comesOf hy) hm

/-- A machine that does not go on is done, or lacks an instant. -/
lemma stack_eq_nil_or_overflows (h : ∀ m', ¬ m.Step m') : m.stack = [] ∨ m.Overflows := by
  rcases hstep : m.step with m' | w | w
  · exact absurd (next?_eq_some_iff.mp (next?_eq_some_iff_step.mpr hstep)) (h m')
  · exact .inl (congrArg Machine.stack (step_eq_halted_iff.mp hstep))
  · exact .inr ⟨w, hstep⟩

/-- **A machine without attempts stops.** -/
theorem Loopless.stops (hm : m.Loopless) :
    ∃ m', m.Reaches m' ∧ (m'.stack = [] ∨ m'.Overflows) := by
  -- by induction on the chores
  generalize hs : m.chores = s
  induction s using Chore.wellFounded_progress.induction generalizing m with
  | _ s ih =>
    subst hs
    by_cases hgoes : ∃ m₁, m.Step m₁
    · obtain ⟨m₁, hstep⟩ := hgoes
      obtain ⟨m', hreaches, hend⟩ := ih _ (hstep.progress hm.not_attempt) (hm.step hstep) rfl
      exact ⟨m', hstep.reaches.trans hreaches, hend⟩
    · exact ⟨m, .refl m, stack_eq_nil_or_overflows fun m₁ hstep => hgoes ⟨m₁, hstep⟩⟩

end Machine

/-! ## Drives without end -/

namespace Machine

/-- Something is under way above a drive without end, or it is the next to go on. -/
def DrivingAll (k : Nat → Script P Unit) (rest : List (Activity P)) (m : Machine P) : Prop :=
  ∃ l ran, m.stack = l ++ .drive .unbounded ran k :: rest

/-- A drive without end comes to its end, and then no task waits; or an instant is needed that does
not exist. -/
def RunsDry (k : Nat → Script P Unit) (rest : List (Activity P)) (m : Machine P) : Prop :=
  (∃ ran w', Until (DrivingAll k rest) m ⟨w', .script (k ran) :: rest⟩ ∧ w'.pending = 0) ∨
    ∃ m', Until (DrivingAll k rest) m m' ∧ m'.DrivingAll k rest ∧ m'.Overflows

variable {k : Nat → Script P Unit} {rest : List (Activity P)} {m m' : Machine P}

lemma RunsDry.head (h : m'.RunsDry k rest) (hm : m.DrivingAll k rest) (hstep : m.Step m') :
    m.RunsDry k rest := by
  rcases h with ⟨ran, w', huntil, hpending⟩ | ⟨m₁, huntil, hdriving, hoverflows⟩
  · exact .inl ⟨ran, w', huntil.head hm hstep, hpending⟩
  · exact .inr ⟨m₁, huntil.head hm hstep, hdriving, hoverflows⟩

/-- Whether an instant is lacking does not depend on what lies below. -/
lemma Overflows.above {w : World P} {x : Activity P} {s : List (Activity P)}
    (h : Overflows ⟨w, x :: s⟩) (s' : List (Activity P)) : Overflows ⟨w, x :: s'⟩ := by
  by_contra hno
  obtain ⟨m', hstep⟩ : ∃ m', Step ⟨w, x :: s'⟩ m' := by
    by_contra hnone
    rcases stack_eq_nil_or_overflows fun m' hstep => hnone ⟨m', hstep⟩ with hnil | hoverflows
    · cases hnil
    · exact hno hoverflows
  obtain ⟨new, -, habove⟩ := hstep.above
  obtain ⟨w₁, hw₁⟩ := h
  cases hw₁.symm.trans (next?_eq_some_iff_step.mp (next?_eq_some_iff.mpr (habove s)))

/-- **A drive without end comes to its end**, whoever made the call, unless an instant is
lacking. -/
theorem runsDry_of_loopless {w : World P} {l : List (Activity P)} {ran : Nat}
    (h : Loopless ⟨w, l ++ [.drive .unbounded ran fun _ => .pure ()]⟩)
    (k : Nat → Script P Unit) (rest : List (Activity P)) :
    RunsDry k rest ⟨w, l ++ .drive .unbounded ran k :: rest⟩ := by
  -- by induction on the chores of the machine in which nothing follows the drive; what follows it
  -- in truth need not be loopless
  generalize hs : chores ⟨w, l ++ [.drive .unbounded ran fun _ => .pure ()]⟩ = s
  induction s using Chore.wellFounded_progress.induction generalizing w l ran with
  | _ s ih =>
    subst hs
    have hdriving : DrivingAll k rest ⟨w, l ++ .drive .unbounded ran k :: rest⟩ := ⟨l, ran, rfl⟩
    cases l with
    | nil =>
      rcases hnext : w.queue.next? .unbounded with _ | ⟨t, q⟩
      · have hpending : (w.finishDrive .unbounded).pending = 0 := by
          rw [World.pending, World.finishDrive, Queue.waiting_eq_nil_of_next?_unbounded hnext,
            List.length_nil]
        exact .head (.inl ⟨ran, _, .refl _ _, hpending⟩) hdriving (.driven hnext)
      · have hstep : Step ⟨w, [.drive .unbounded ran fun _ => .pure ()]⟩ _ := .start hnext
        have hrest := ih (l := [.ofWork t.body]) _ (hstep.progress h.not_attempt) (h.step hstep) rfl
        exact hrest.head hdriving (.start hnext)
    | cons x l =>
      by_cases hgoes : ∃ m₁, Step ⟨w, x :: l ++ [.drive .unbounded ran fun _ => .pure ()]⟩ m₁
      · -- what is above the drive makes the same step, whatever lies below
        obtain ⟨m₁, hstep⟩ := hgoes
        obtain ⟨new, -, habove⟩ := hstep.above
        have hstep' := habove (l ++ [.drive .unbounded ran fun _ => .pure ()])
        rw [← List.append_assoc] at hstep'
        have hrest := ih _ (hstep'.progress h.not_attempt) (h.step hstep') rfl
        rw [List.append_assoc] at hrest
        exact hrest.head hdriving (habove _)
      · have hoverflows : Overflows ⟨w, x :: (l ++ [.drive .unbounded ran fun _ => .pure ()])⟩ :=
          (stack_eq_nil_or_overflows fun m₁ hstep => hgoes ⟨m₁, hstep⟩).resolve_left
            (List.cons_ne_nil _ _)
        exact .inr ⟨_, .refl _ _, hdriving, hoverflows.above _⟩

end Machine

/-- **Whoever drives the clock until no task waits gets an answer**, the number of the tasks that
ran, and then nothing waits; or an instant is needed that does not exist, and everything stops. -/
def World.RunsDry (w : World P) : Prop :=
  ∀ (k : Nat → Script P Unit) (rest : List (Activity P)),
    Machine.Step ⟨w, .script (.drive .all k) :: rest⟩ ⟨w, .drive .unbounded 0 k :: rest⟩ ∧
      Machine.RunsDry k rest ⟨w, .drive .unbounded 0 k :: rest⟩

namespace Program

/-- **A program drains**: its run stops, and in every state that it reaches the clock can be driven
until no task waits. -/
structure Drains (prog : Program P) : Prop where
  stops : ∃ n, prog.At n fun m => m.stack = [] ∨ m.Overflows
  runsDry : ∀ n, ∀ m, prog.moment n = some m → m.world.RunsDry

lemma chores_start (prog : Program P) : prog.start.chores = {.script prog.main} := by
  simp [start, Machine.load, Machine.chores, Activity.chores, World.chores, World.fresh, listed,
    Queue.chores]

lemma drains_of_loopless {prog : Program P} (h : (Chore.script prog.main).Loopless) :
    prog.Drains := by
  have hstart : prog.start.Loopless := by
    intro x hx
    rw [chores_start, Multiset.mem_singleton] at hx
    exact hx ▸ h
  constructor
  · obtain ⟨m, ⟨n, hn⟩, hend⟩ := hstart.stops
    exact ⟨n, m, hn, hend⟩
  · intro n m hm k rest
    have hloopless : m.Loopless := invariant hstart (fun _ _ hm hstep => hm.step hstep) hm
    -- the chores of the world are among those of the machine
    refine ⟨.drive rfl, Machine.runsDry_of_loopless (l := []) (fun x hx => ?_) k rest⟩
    rcases Multiset.mem_add.mp hx with hx | hx
    · exact hloopless x (Multiset.mem_add.mpr (.inl hx))
    · obtain rfl : x = .drive fun _ => .pure () := by simpa [Activity.chores] using hx
      exact Chore.loopless_drive fun _ => Chore.loopless_pure ()

end Program

/-- A program that drains is run to its end, unless the run is given up too early. -/
theorem Program.Drains.run_ends {prog : Program P} (h : prog.Drains) :
    ∃ n, ∀ fuel, n < fuel →
      (∃ w, prog.start.run fuel = .halted w) ∨ ∃ w, prog.start.run fuel = .overflow w := by
  obtain ⟨n, m, hm, hend⟩ := h.stops
  refine ⟨n, fun fuel hfuel => ?_⟩
  rcases hend with hnil | ⟨w, hw⟩
  · obtain ⟨w, stack⟩ := m
    cases hnil
    exact .inl ⟨w, Machine.run_eq_iff.mpr ⟨n, hfuel, hm⟩⟩
  · exact .inr ⟨w, Machine.run_eq_iff.mpr ⟨n, hfuel, m, hm, hw⟩⟩

/-! ## Sessions -/

namespace Session

/-- The recipe makes use of a retry loop. -/
def Recipe.Loops : Recipe → Prop
  | keepTrying _ _ _ _ => True
  | _ => False

/-- Steps without retry loops are loopless scripts. -/
lemma loopless_course (steps : List Step) (h : ∀ r, stepsHave steps r → ¬ r.Loops) :
    (Chore.script (course steps)).Loopless := by
  have halike : (course steps).Alike (likeness (fun _ _ => True) False) Eq (course steps) := by
    refine alike_course steps fun r hr => ?_
    cases r with
    | keepTrying => exact h _ hr trivial
    | promise _ segment? => cases segment? <;> exact trivial
    | _ => exact trivial
  exact halike.loopless id (fun _ => trivial) fun _ => rfl

end Session

/-- **Without retry loops every program drains.**  If no attempt of a retry loop comes of a program,
its run stops; and in every state that the program reaches, in the middle of callbacks too, a drive
call until no task waits returns after finitely many steps and leaves nothing that waits, unless an
instant is needed that does not exist.  The steps of a session are such a program if none of them,
nor of their callbacks, makes use of a retry loop. -/
theorem programs_drain :
    (∀ {P : Payload} (prog : Program P), (Chore.script prog.main).Loopless → prog.Drains) ∧
    ∀ (settings : Settings) (walks : Nat → List Frame) (internal : List String)
      (steps : List Session.Step), (∀ r, Session.stepsHave steps r → ¬ r.Loops) →
        (Session.program settings walks internal steps).Drains :=
  ⟨fun _ h => Program.drains_of_loopless h,
    fun _ _ _ steps h => Program.drains_of_loopless (Session.loopless_course steps h)⟩

/-- Two promises that forward to one another, and a callback that schedules a task. -/
def circle : List Session.Step :=
  [.make (.mk (some "a") (.promise .value none)), .make (.mk (some "b") (.promise .value none)),
    .forward .either (.named "a") (.named "b"), .forward .either (.named "b") (.named "a"),
    .observe (.named "a") (some (.mk none [.schedule (.millis 1) (.mk none [.now])])) none,
    .fulfill (.named "a") (.given .null), .drive .all]

lemma not_loops_circle : ∀ r, Session.stepsHave circle r → ¬ r.Loops := by
  intro r hr
  simp only [circle, Session.stepsHave, Session.Step.Has, Session.Making.Has, Session.Recipe.Has,
    Session.Source.Has, Session.Callback.Has, Session.callbackHas, or_false] at hr
  rcases hr with rfl | rfl <;> exact id

/-- The promises of `circle` forward to one another, and still its run stops, with nothing left, and
is not given up if enough steps are allowed. -/
theorem programs_drain_circle :
    (∀ r, Session.stepsHave circle r → ¬ r.Loops) ∧
      (Session.program .withoutTraces (fun _ => []) [] circle).Drains ∧
      ((Session.program .withoutTraces (fun _ => []) [] circle).At 46 fun m =>
        m.stack = [] ∧ m.world.pending = 0 ∧ m.world.clock = .millis 1) ∧
      ∃ n, ∀ fuel, n < fuel →
        (∃ w, (Session.program .withoutTraces (fun _ => []) [] circle).start.run fuel =
          .halted w) ∨
        ∃ w, (Session.program .withoutTraces (fun _ => []) [] circle).start.run fuel =
          .overflow w := by
  have hdrains := programs_drain.2 .withoutTraces (fun _ => []) [] circle not_loops_circle
  exact ⟨not_loops_circle, hdrains, ⟨_, rfl, rfl, rfl, rfl⟩, hdrains.run_ends⟩

end Eventual
