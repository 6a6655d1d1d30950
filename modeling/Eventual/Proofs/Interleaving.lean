import Eventual.Proofs.Schedule
import Eventual.Proofs.Sharing

/-!
# Interleaved runs

Two programs run in turns between common drive calls, and each of them alone with the same drive
calls (`Script.Woven`).  The shared run is a simulation of both runs: whatever it does next, one of
the two parties does the same when it is alone and the other one waits, or a drive call begins or
ends, and then both go on (`Machine.Stage.follow`).  Hence the tasks that start and the callbacks
that are called in the shared run are those of the two parties, each in its order.
-/

namespace Eventual

variable {P : Payload} {D : Sharing P} {ρ ρ' ρ₁ ρ₂ : Renaming} {c : Company P} {α : Type}
  {R : Renaming → α → α → Prop}

/-! ## What happens in a run -/

/-- Something that happens in a run. -/
inductive Happening (P : Payload) : Type 1
  /-- A task starts; then the clock shows this instant. -/
  | starts (at_ : Duration) (work : Work P)
  /-- The observer of this number is told how a promise ended. -/
  | calls (at_ : Duration) (p : PromiseId) (number : Nat) (o : Outcome P.Value P.Error)
  /-- A drive call is over, and the clock shows this instant. -/
  | rests (at_ : Duration)

/-- The same happens at the same instant, alone and in the shared run. -/
inductive Happening.Twin (D : Sharing P) (ρ : Renaming) : Happening P → Happening P → Prop
  | starts (at_ : Duration) {work work' : Work P} (task : work.Twin D ρ work') :
      Twin D ρ (.starts at_ work) (.starts at_ work')
  | calls (at_ : Duration) (number : Nat) {p p' : PromiseId} {o o' : Outcome P.Value P.Error}
      (promise : ρ.promise p p') (outcome : o.Alike (D.ours.segment ρ) o') :
      Twin D ρ (.calls at_ p number o) (.calls at_ p' number o')

/-- A drive call of both parties is over. -/
def Happening.Common (x₁ x₂ x : Happening P) : Prop :=
  ∃ at_, x₁ = .rests at_ ∧ x₂ = .rests at_ ∧ x = .rests at_

lemma Happening.Twin.mono {x x' : Happening P} (h : x.Twin D ρ x') (hle : ρ ≤ ρ') :
    x.Twin D ρ' x' := by
  cases h with
  | starts at_ task => exact .starts at_ (task.mono hle)
  | calls at_ number promise outcome =>
    exact .calls at_ number (promise.mono hle)
      (outcome.imp fun _ _ hs => D.ours.segment_mono hs hle)

/-- What happens to the parties is woven into what happens in the shared run. -/
abbrev Happening.Woven (D : Sharing P) (ρ₁ ρ₂ : Renaming) :
    List (Happening P) → List (Happening P) → List (Happening P) → Prop :=
  Weave (Twin D ρ₁) (Twin D.swap ρ₂) Common

/-- The instant at which a drive call is over. -/
def Happening.rest? : Happening P → Option Duration
  | rests at_ => some at_
  | _ => none

/-- The same drive calls are over, alone and in the shared run. -/
lemma Happening.Woven.rests_eq {l₁ l₂ l : List (Happening P)} (h : Woven D ρ₁ ρ₂ l₁ l₂ l) :
    l₁.filterMap rest? = l.filterMap rest? ∧ l₂.filterMap rest? = l.filterMap rest? := by
  induction h with
  | nil => exact ⟨rfl, rfl⟩
  | left related _ ih | right related _ ih => cases related <;> exact ih
  | both common _ ih =>
    obtain ⟨at_, rfl, rfl, rfl⟩ := common
    exact ⟨congrArg (at_ :: ·) ih.1, congrArg (at_ :: ·) ih.2⟩

/-- What is about to happen. -/
def Machine.happens : Machine P → List (Happening P)
  | ⟨w, .drive h _ _ :: _⟩ =>
    match w.queue.next? h with
    | some (t, _) => [.starts (w.clock.later t.due) t.body]
    | none => [.rests (h.reached w.clock)]
  | ⟨w, .delivery p o (r :: _) :: _⟩ =>
    if r.observer.awaits o then [.calls w.clock p r.number o] else []
  | _ => []

/-- What has happened before a moment. -/
def Program.log (prog : Program P) : Nat → List (Happening P)
  | 0 => []
  | n + 1 => prog.log n ++ ((prog.moment n).elim [] Machine.happens)

/-! ## Scripts in turns -/

/-- A script is made of the steps of two scripts, and each of them drives the clock when the other
one does.  What the steps make has other numbers than it has alone. -/
inductive Script.Woven (D : Sharing P) : Renaming → Renaming → Script P Unit → Script P Unit →
    Script P Unit → Prop
  | done {ρ₁ ρ₂ : Renaming} : Woven D ρ₁ ρ₂ (.pure ()) (.pure ()) (.pure ())
  /-- A step of ours. -/
  | ours {ρ₁ ρ₂ : Renaming} {α : Type} {R : Renaming → α → α → Prop} {s₁ s : Script P α}
      {p : α → Script P Unit} {q : Script P Unit} {j : α → Script P Unit}
      (stable : Renaming.Stable R) (step : ∀ c, s₁.Twins D R ρ₁ c s)
      (rest : ∀ ρ a₁ a, ρ₁ ≤ ρ → R ρ a₁ a → Woven D ρ ρ₂ (p a₁) q (j a)) :
      Woven D ρ₁ ρ₂ (s₁.bind p) q (s.bind j)
  /-- A step of theirs. -/
  | theirs {ρ₁ ρ₂ : Renaming} {α : Type} {R : Renaming → α → α → Prop} {s₂ s : Script P α}
      {p : Script P Unit} {q : α → Script P Unit} {j : α → Script P Unit}
      (stable : Renaming.Stable R) (step : ∀ c, s₂.Twins D.swap R ρ₂ c s)
      (rest : ∀ ρ a₂ a, ρ₂ ≤ ρ → R ρ a₂ a → Woven D ρ₁ ρ p (q a₂) (j a)) :
      Woven D ρ₁ ρ₂ p (s₂.bind q) (s.bind j)
  /-- Something is noted on behalf of both. -/
  | note {ρ₁ ρ₂ : Renaming} {n₁ n₂ n : P.Note} {p q j : Unit → Script P Unit}
      (common : D.common n₁ n₂ n) (rest : Woven D ρ₁ ρ₂ (p ()) (q ()) (j ())) :
      Woven D ρ₁ ρ₂ (.op (.note n₁) p) (.op (.note n₂) q) (.op (.note n) j)
  /-- The clock is driven, but not until no task waits. -/
  | drive {ρ₁ ρ₂ : Renaming} {d : Drive} {p q j : Nat → Script P Unit} (stops : d ≠ .all)
      (rest : ∀ ρ₁' ρ₂' n₁ n₂ n, ρ₁ ≤ ρ₁' → ρ₂ ≤ ρ₂' →
        Woven D ρ₁' ρ₂' (p n₁) (q n₂) (j n)) :
      Woven D ρ₁ ρ₂ (.drive d p) (.drive d q) (.drive d j)

lemma Script.Woven.swap {p q j : Script P Unit} (h : Woven D ρ₁ ρ₂ p q j) :
    Woven D.swap ρ₂ ρ₁ q p j := by
  induction h with
  | done => exact .done
  | ours stable step _ ih => exact .theirs stable step ih
  | theirs stable step _ ih => exact .ours stable step ih
  | note common _ ih => exact .note common ih
  | drive stops _ ih =>
    exact .drive stops fun ρ₁' ρ₂' n₁ n₂ n h₁ h₂ => ih ρ₂' ρ₁' n₂ n₁ n h₂ h₁

/-! ## One party goes on -/

/-- Something of a party is under way, alone and in the shared run. -/
inductive Activity.Twin (D : Sharing P) (ρ : Renaming) (c : Company P) :
    Activity P → Activity P → Prop
  | script {s s' : Script P Unit} (script : s.Twins D Renaming.same ρ c s') :
      Twin D ρ c (.script s) (.script s')
  | delivery {p p' : PromiseId} {o o' : Outcome P.Value P.Error} {rs rs' : List (Registration P)}
      (promise : ρ.promise p p') (outcome : o.Alike (D.ours.segment ρ) o')
      (observers : List.Forall₂ (Registration.Twin D ρ) rs rs') :
      Twin D ρ c (.delivery p o rs) (.delivery p' o' rs')

lemma Activity.Twin.mono {x x' : Activity P} (h : x.Twin D ρ c x') (hle : ρ ≤ ρ') :
    x.Twin D ρ' c x' := by
  cases h with
  | script script => exact .script (script.mono Renaming.stable_same hle)
  | delivery promise outcome observers =>
    exact .delivery (promise.mono hle) (outcome.imp fun _ _ hs => D.ours.segment_mono hs hle)
      (observers.imp fun _ _ hr => hr.mono hle)

lemma Work.Twin.ofWork {work work' : Work P} (h : work.Twin D ρ work') :
    (Activity.ofWork work).Twin D ρ c (.ofWork work') := by
  cases h with
  | script task => exact .script (task _ _ (Renaming.le_refl _))
  | delivery promise outcome observers => exact .delivery promise outcome observers

namespace World

variable {w₁ w₂ w w₁' w' : World P}

/-- We go on, in the shared world and alone, at the same instant. -/
structure GoesOn (D : Sharing P) (ρ₁ ρ₂ ρ : Renaming) (w₁ w₂ w w₁' w' : World P) : Prop where
  le : ρ₁ ≤ ρ
  shared : Shared D ρ ρ₂ w₁' w₂ w'
  clock_left : w₁'.clock = w₁.clock
  clock : w'.clock = w.clock

lemma GoesOn.refl (h : Shared D ρ₁ ρ₂ w₁ w₂ w) : GoesOn D ρ₁ ρ₂ ρ₁ w₁ w₂ w w₁ w :=
  ⟨Renaming.le_refl _, h, rfl, rfl⟩

end World

section

variable {w₁ w₂ w : World P}

/-- Our script makes one step in the shared world, whatever follows it.  Then it makes this step
alone, too; what is put on top of it is the same in both. -/
def Script.Advances (D : Sharing P) (ρ₁ ρ₂ : Renaming) (w₁ w₂ w : World P)
    (R : Renaming → α → α → Prop) (s₁ s : Script P α) : Prop :=
  ∀ (f₁ f : α → Script P Unit) (below₁ below : List (Activity P)) (m' : Machine P),
    Machine.Step ⟨w, .script (s.bind f) :: below⟩ m' →
    ∃ ρ w₁' w' top₁ top, ∃ t₁ t : Script P α, World.GoesOn D ρ₁ ρ₂ ρ w₁ w₂ w w₁' w' ∧
      Machine.Step ⟨w₁, .script (s₁.bind f₁) :: below₁⟩
        ⟨w₁', top₁ ++ .script (t₁.bind f₁) :: below₁⟩ ∧
      m' = ⟨w', top ++ .script (t.bind f) :: below⟩ ∧
      List.Forall₂ (Activity.Twin D ρ ⟨ρ₂, w₂.store⟩) top₁ top ∧
      t₁.Twins D R ρ ⟨ρ₂, w₂.store⟩ t

lemma Script.advances_op {κ : Type} {o₁ o : Op P κ} {A : Renaming → κ → κ → Prop}
    {k₁ k : κ → Script P α}
    (follows : ∀ r w', w.perform o = .answer r w' → World.Follows D ρ₁ ρ₂ w₁ w₂ o₁ A r w')
    (rest : ∀ ρ r₁ r, ρ₁ ≤ ρ → A ρ r₁ r → (k₁ r₁).Twins D R ρ ⟨ρ₂, w₂.store⟩ (k r)) :
    Script.Advances D ρ₁ ρ₂ w₁ w₂ w R (.op o₁ k₁) (.op o k) := by
  intro f₁ f below₁ below m' hstep
  change Machine.Step ⟨w, .script (.op o fun r => (k r).bind f) :: below⟩ m' at hstep
  cases hstep with
  | @operate _ w' _ _ _ r _ performed =>
    obtain ⟨ρ, r₁, w₁', hle, hr₁, hA, hw'⟩ := follows r w' performed
    exact ⟨ρ, w₁', w', [], [], k₁ r₁, k r,
      ⟨hle, hw', (World.effect_of_perform hr₁).1, (World.effect_of_perform performed).1⟩,
      .operate hr₁, rfl, .nil, rest ρ r₁ r hle hA⟩

/-- **A script that is not over goes on as its twin does.** -/
theorem Script.Twins.advances {s₁ s : Script P α} (hs : s₁.Twins D R ρ₁ ⟨ρ₂, w₂.store⟩ s)
    (h : World.Shared D ρ₁ ρ₂ w₁ w₂ w) (hw : w.queue.Ordered) (hclock : w₁.clock = w.clock) :
    (∃ a₁ a, s₁ = .pure a₁ ∧ s = .pure a ∧ R ρ₁ a₁ a) ∨
      Script.Advances D ρ₁ ρ₂ w₁ w₂ w R s₁ s := by
  cases hs with
  | pure answer => exact .inl ⟨_, _, rfl, rfl, answer⟩
  | op twin rest =>
    exact .inr (Script.advances_op (fun r w' hr => h.perform hw hclock twin hr) rest)
  | observe promise awaits callbacks rest =>
    refine .inr (Script.advances_op (A := fun _ _ _ => True) (fun r w' hr => ?_)
      fun ρ _ _ hle _ => rest ρ hle)
    cases hr
    exact .plain rfl trivial (h.observe hw hclock promise ⟨awaits, callbacks⟩)
  | schedule delay task rest =>
    exact .inr (Script.advances_op (fun r w' hr => h.schedule hw hclock task hr)
      fun ρ _ _ hle _ => rest ρ hle)
  | @openRetry _ _ _ _ result result' interval thunk thunk' onError onError' _ _ promise thunks
      callbacks rest =>
    refine .inr (Script.advances_op (A := fun ρ => ρ.retry) (fun r w' hr => ?_)
      fun ρ _ _ hle hr => rest ρ _ _ hle hr)
    have hretry : Retry.Twin D ρ₁ ⟨result, interval, thunk, onError, 0⟩
        ⟨result', interval, thunk', onError', 0⟩ :=
      ⟨promise, rfl, rfl, thunks, callbacks⟩
    cases hr
    obtain ⟨hle, hr, hw'⟩ := h.openRetry hretry
    exact ⟨_, _, _, hle, rfl, hr, hw'⟩
  | @attempt _ _ _ _ r r' k k' retry rest =>
    refine .inr fun f₁ f below₁ below m' hstep => ?_
    change Machine.Step ⟨w, .script (.attempt r' (k'.bind f)) :: below⟩ m' at hstep
    cases hstep with
    | attempt =>
      exact ⟨ρ₁, w₁, w, [.script (w₁.nextAttempt r)], [.script (w.nextAttempt r')], k, k', .refl h,
        .attempt, rfl, .cons (.script (h.nextAttempt retry _)) .nil,
        rest ρ₁ (Renaming.le_refl _)⟩

/-- **Whatever a party has under way goes on as its twin does**, and the same happens. -/
theorem Activity.Twin.advances {x₁ x : Activity P} (hx : x₁.Twin D ρ₁ ⟨ρ₂, w₂.store⟩ x)
    (h : World.Shared D ρ₁ ρ₂ w₁ w₂ w) (hw : w.queue.Ordered) (hclock : w₁.clock = w.clock)
    (below₁ : List (Activity P)) {below : List (Activity P)} {m' : Machine P}
    (hstep : Machine.Step ⟨w, x :: below⟩ m') :
    ∃ ρ w₁' w' top₁ top, World.GoesOn D ρ₁ ρ₂ ρ w₁ w₂ w w₁' w' ∧
      Machine.Step ⟨w₁, x₁ :: below₁⟩ ⟨w₁', top₁ ++ below₁⟩ ∧ m' = ⟨w', top ++ below⟩ ∧
      List.Forall₂ (Activity.Twin D ρ ⟨ρ₂, w₂.store⟩) top₁ top ∧
      Happening.Woven D ρ ρ₂ (Machine.happens ⟨w₁, x₁ :: below₁⟩) []
        (Machine.happens ⟨w, x :: below⟩) := by
  cases hx with
  | @script s₁ s hs =>
    rcases hs.advances h hw hclock with ⟨⟨⟩, ⟨⟩, rfl, rfl, -⟩ | hadvances
    · cases hstep
      exact ⟨ρ₁, w₁, w, [], [], .refl h, .finish, rfl, .nil, .nil⟩
    · -- nothing follows the script, as a part of the activity
      rw [← Script.bind_pure s] at hstep
      obtain ⟨ρ, w₁', w', top₁, top, t₁, t, hgoes, hstep₁, rfl, htop, ht⟩ :=
        hadvances .pure .pure below₁ below m' hstep
      rw [Script.bind_pure, Script.bind_pure] at hstep₁
      refine ⟨ρ, w₁', w', top₁ ++ [.script t₁], top ++ [.script t], hgoes, ?_, ?_,
        List.rel_append htop (.cons (.script ht) .nil), .nil⟩
      · rwa [List.append_assoc]
      · rw [Script.bind_pure, List.append_assoc]
        rfl
  | @delivery p p' o o' rs rs' promise outcome observers =>
    cases observers with
    | nil =>
      cases hstep
      exact ⟨ρ₁, w₁, w, [], [], .refl h, .delivered, rfl, .nil, .nil⟩
    | @cons r r' rs rs' hr hrs =>
      have hawaits := hr.observer.awaits ρ₁ o o' (Renaming.le_refl _) outcome
      have hrest : (Activity.delivery p o rs).Twin D ρ₁ ⟨ρ₂, w₂.store⟩ (.delivery p' o' rs') :=
        .delivery promise outcome hrs
      cases hstep with
      | @call _ _ _ _ _ body' _ handler' =>
        have hawaits' : r'.observer.awaits o' = true := by rw [Observer.awaits, handler']; rfl
        rw [hawaits'] at hawaits
        obtain ⟨body, handler⟩ := Option.isSome_iff_exists.mp hawaits
        have hbody := hr.observer.callbacks ρ₁ ⟨ρ₂, w₂.store⟩ o o' body body' (Renaming.le_refl _)
          outcome handler handler'
        refine ⟨ρ₁, w₁, w, [.script body, .delivery p o rs], [.script body', .delivery p' o' rs'],
          .refl h, .call handler, rfl, .cons (.script hbody) (.cons hrest .nil), ?_⟩
        rw [Machine.happens, Machine.happens, if_pos hawaits, if_pos hawaits', hclock, hr.number_eq]
        exact .left (.calls _ _ promise outcome) .nil
      | leaveOut handler' =>
        have hawaits' : r'.observer.awaits o' = false := by rw [Observer.awaits, handler']; rfl
        rw [hawaits'] at hawaits
        have handler : r.observer.handler? o = none :=
          Option.isNone_iff_eq_none.mp (by simpa [Observer.awaits] using hawaits)
        refine ⟨ρ₁, w₁, w, [.delivery p o rs], [.delivery p' o' rs'], .refl h, .leaveOut handler,
          rfl, .cons hrest .nil, ?_⟩
        rw [Machine.happens, Machine.happens, if_neg (Bool.eq_false_iff.mp hawaits),
          if_neg (Bool.eq_false_iff.mp hawaits')]
        exact .nil

end

lemma Drive.exists_of_horizon? {d : Drive} (stops : d ≠ .all) {clock : Duration} {h : Horizon}
    (horizon : d.horizon? clock = some h) : ∃ i, h = .upTo i := by
  cases d with
  | idle =>
    cases horizon
    exact ⟨_, rfl⟩
  | advance span =>
    obtain ⟨i, -, rfl⟩ := Option.map_eq_some_iff.mp horizon
    exact ⟨i, rfl⟩
  | all => exact absurd rfl stops

/-! ## The stages of a shared run -/

namespace Machine

/-- We are at work: during a step of ours, or while one of our tasks runs.  Then the clock shows the
same when we are alone; a drive call that is under way has seen the clock of the others at most as
late. -/
inductive Acting (D : Sharing P) (ρ₁ ρ₂ : Renaming) : Machine P → Machine P → Machine P → Prop
  | step {α : Type} {R : Renaming → α → α → Prop} {w₁ w₂ w : World P}
      {acts₁ acts : List (Activity P)} {s₁ s : Script P α} {p j : α → Script P Unit}
      {q : Script P Unit} (shared : World.Shared D ρ₁ ρ₂ w₁ w₂ w) (clock_left : w₁.clock = w.clock)
      (clock_right : w₂.clock = w.clock)
      (under : List.Forall₂ (Activity.Twin D ρ₁ ⟨ρ₂, w₂.store⟩) acts₁ acts)
      (stable : Renaming.Stable R) (script : s₁.Twins D R ρ₁ ⟨ρ₂, w₂.store⟩ s)
      (rest : ∀ ρ a₁ a, ρ₁ ≤ ρ → R ρ a₁ a → Script.Woven D ρ ρ₂ (p a₁) q (j a)) :
      Acting D ρ₁ ρ₂ ⟨w₁, acts₁ ++ [.script (s₁.bind p)]⟩ ⟨w₂, [.script q]⟩
        ⟨w, acts ++ [.script (s.bind j)]⟩
  | task {w₁ w₂ w : World P} {acts₁ acts : List (Activity P)} {i : Duration} {ran₁ ran₂ ran : Nat}
      {p q j : Nat → Script P Unit} (shared : World.Shared D ρ₁ ρ₂ w₁ w₂ w)
      (clock_left : w₁.clock = w.clock) (clock_right : w₂.clock ≤ w.clock) (within : w.clock ≤ i)
      (under : List.Forall₂ (Activity.Twin D ρ₁ ⟨ρ₂, w₂.store⟩) acts₁ acts)
      (rest : ∀ ρ₁' ρ₂' n₁ n₂ n, ρ₁ ≤ ρ₁' → ρ₂ ≤ ρ₂' →
        Script.Woven D ρ₁' ρ₂' (p n₁) (q n₂) (j n)) :
      Acting D ρ₁ ρ₂ ⟨w₁, acts₁ ++ [.drive (.upTo i) ran₁ p]⟩ ⟨w₂, [.drive (.upTo i) ran₂ q]⟩
        ⟨w, acts ++ [.drive (.upTo i) ran j]⟩

/-- Where the runs of two parties alone and the shared run are at the same time. -/
inductive Stage (D : Sharing P) (ρ₁ ρ₂ : Renaming) : Machine P → Machine P → Machine P → Prop
  | ours {m₁ m₂ m : Machine P} (acting : Acting D ρ₁ ρ₂ m₁ m₂ m) : Stage D ρ₁ ρ₂ m₁ m₂ m
  | theirs {m₁ m₂ m : Machine P} (acting : Acting D.swap ρ₂ ρ₁ m₂ m₁ m) : Stage D ρ₁ ρ₂ m₁ m₂ m
  /-- A step or a drive call comes next. -/
  | between {w₁ w₂ w : World P} {p q j : Script P Unit} (shared : World.Shared D ρ₁ ρ₂ w₁ w₂ w)
      (clock_left : w₁.clock = w.clock) (clock_right : w₂.clock = w.clock)
      (woven : Script.Woven D ρ₁ ρ₂ p q j) :
      Stage D ρ₁ ρ₂ ⟨w₁, [.script p]⟩ ⟨w₂, [.script q]⟩ ⟨w, [.script j]⟩
  /-- A drive call is under way, and no task is running. -/
  | driving {w₁ w₂ w : World P} {i : Duration} {ran₁ ran₂ ran : Nat} {p q j : Nat → Script P Unit}
      (shared : World.Shared D ρ₁ ρ₂ w₁ w₂ w) (clock_left : w₁.clock ≤ w.clock)
      (clock_right : w₂.clock ≤ w.clock) (within : w.clock ≤ i)
      (rest : ∀ ρ₁' ρ₂' n₁ n₂ n, ρ₁ ≤ ρ₁' → ρ₂ ≤ ρ₂' →
        Script.Woven D ρ₁' ρ₂' (p n₁) (q n₂) (j n)) :
      Stage D ρ₁ ρ₂ ⟨w₁, [.drive (.upTo i) ran₁ p]⟩ ⟨w₂, [.drive (.upTo i) ran₂ q]⟩
        ⟨w, [.drive (.upTo i) ran j]⟩
  /-- Everything is done. -/
  | finished {w₁ w₂ w : World P} (shared : World.Shared D ρ₁ ρ₂ w₁ w₂ w)
      (clock_left : w₁.clock = w.clock) (clock_right : w₂.clock = w.clock) :
      Stage D ρ₁ ρ₂ ⟨w₁, []⟩ ⟨w₂, []⟩ ⟨w, []⟩

/-- A machine makes a step, or waits. -/
inductive Goes : Machine P → List (Happening P) → Machine P → Prop
  | waits {m : Machine P} : Goes m [] m
  | steps {m m' : Machine P} (step : m.Step m') : Goes m m.happens m'

/-- The shared run makes a step, and the runs of the parties alone go with it. -/
def Follow (D : Sharing P) (ρ₁ ρ₂ : Renaming) (m₁ m₂ m m' : Machine P) : Prop :=
  ∃ ρ₁' ρ₂' m₁' m₂' l₁ l₂, ρ₁ ≤ ρ₁' ∧ ρ₂ ≤ ρ₂' ∧ m₁.Goes l₁ m₁' ∧ m₂.Goes l₂ m₂' ∧
    Happening.Woven D ρ₁' ρ₂' l₁ l₂ m.happens ∧ Stage D ρ₁' ρ₂' m₁' m₂' m'

variable {m₁ m₂ m m' m₁' : Machine P}

lemma Stage.swap (h : Stage D.swap ρ₂ ρ₁ m₂ m₁ m) : Stage D ρ₁ ρ₂ m₁ m₂ m := by
  cases h with
  | ours acting => exact .theirs acting
  | theirs acting => exact .ours acting
  | between shared clock_left clock_right woven =>
    exact .between shared.swap clock_right clock_left woven.swap
  | driving shared clock_left clock_right within rest =>
    exact .driving shared.swap clock_right clock_left within fun ρ₁' ρ₂' n₁ n₂ n h₁ h₂ =>
      (rest ρ₂' ρ₁' n₂ n₁ n h₂ h₁).swap
  | finished shared clock_left clock_right => exact .finished shared.swap clock_right clock_left

/-- What holds for us holds for them. -/
lemma Follow.swap (h : Follow D.swap ρ₂ ρ₁ m₂ m₁ m m') : Follow D ρ₁ ρ₂ m₁ m₂ m m' := by
  obtain ⟨ρ₂', ρ₁', m₂', m₁', l₂, l₁, hle₂, hle₁, hgoes₂, hgoes₁, hwoven, hstage⟩ := h
  refine ⟨ρ₁', ρ₂', m₁', m₂', l₁, l₂, hle₁, hle₂, hgoes₁, hgoes₂, ?_, hstage.swap⟩
  exact Weave.swap hwoven fun _ _ _ ⟨i, h₁, h₂, h⟩ => ⟨i, h₂, h₁, h⟩

/-- We make a step, and they wait. -/
lemma Follow.ours (hle : ρ₁ ≤ ρ) (hstep : m₁.Step m₁')
    (hwoven : Happening.Woven D ρ ρ₂ m₁.happens [] m.happens) (hstage : Stage D ρ ρ₂ m₁' m₂ m') :
    Follow D ρ₁ ρ₂ m₁ m₂ m m' :=
  ⟨ρ, ρ₂, m₁', m₂, _, [], hle, Renaming.le_refl _, .steps hstep, .waits, hwoven, hstage⟩

/-! ### Steps -/

variable {w₁ w₂ w : World P}

/-- A step of ours begins. -/
lemma follow_step {s₁ s : Script P α} {p j : α → Script P Unit} {q : Script P Unit}
    (hadvances : Script.Advances D ρ₁ ρ₂ w₁ w₂ w R s₁ s) (clock_left : w₁.clock = w.clock)
    (clock_right : w₂.clock = w.clock) (stable : Renaming.Stable R)
    (rest : ∀ ρ a₁ a, ρ₁ ≤ ρ → R ρ a₁ a → Script.Woven D ρ ρ₂ (p a₁) q (j a))
    (hstep : Step ⟨w, [.script (s.bind j)]⟩ m') :
    Follow D ρ₁ ρ₂ ⟨w₁, [.script (s₁.bind p)]⟩ ⟨w₂, [.script q]⟩ ⟨w, [.script (s.bind j)]⟩ m' := by
  obtain ⟨ρ, w₁', w', top₁, top, t₁, t, hgoes, hstep₁, rfl, htop, ht⟩ :=
    hadvances p j [] [] m' hstep
  refine .ours hgoes.le hstep₁ .nil (.ours (.step hgoes.shared ?_ ?_ htop stable ht ?_))
  · rw [hgoes.clock_left, hgoes.clock, clock_left]
  · rw [hgoes.clock, clock_right]
  · exact fun ρ' a₁ a hle => rest ρ' a₁ a (Renaming.le_trans hgoes.le hle)

/-- **What comes next in turns.** -/
theorem follow_woven {p q j : Script P Unit} (hwoven : Script.Woven D ρ₁ ρ₂ p q j)
    (shared : World.Shared D ρ₁ ρ₂ w₁ w₂ w) (clock_left : w₁.clock = w.clock)
    (clock_right : w₂.clock = w.clock) (hw : w.queue.Ordered)
    (hstep : Step ⟨w, [.script j]⟩ m') :
    Follow D ρ₁ ρ₂ ⟨w₁, [.script p]⟩ ⟨w₂, [.script q]⟩ ⟨w, [.script j]⟩ m' := by
  -- the induction leaves out the steps that do nothing
  induction hwoven with
  | done =>
    cases hstep
    exact ⟨_, _, _, _, _, _, Renaming.le_refl _, Renaming.le_refl _, .steps .finish,
      .steps .finish, .nil, .finished shared clock_left clock_right⟩
  | ours stable step rest ih =>
    rcases (step _).advances shared hw clock_left with ⟨a₁, a, rfl, rfl, ha⟩ | hadvances
    · exact ih _ a₁ a (Renaming.le_refl _) ha shared hstep
    · exact follow_step hadvances clock_left clock_right stable rest hstep
  | theirs stable step rest ih =>
    rcases (step _).advances shared.swap hw clock_right with ⟨a₂, a, rfl, rfl, ha⟩ | hadvances
    · exact ih _ a₂ a (Renaming.le_refl _) ha shared hstep
    · exact (follow_step hadvances clock_right clock_left stable
        (fun ρ a₂ a hle ha => (rest ρ a₂ a hle ha).swap) hstep).swap
  | note common rest =>
    cases hstep with
    | operate performed =>
      cases performed
      refine ⟨_, _, _, _, _, _, Renaming.le_refl _, Renaming.le_refl _, .steps (.operate rfl),
        .steps (.operate rfl), .nil, .between { shared with notes := ?_ } clock_left clock_right
          rest⟩
      rw [World.notes_write, World.notes_write, World.notes_write]
      exact shared.notes.append (.both common .nil)
  | @drive ρ₁ ρ₂ d p q j stops rest =>
    cases hstep with
    | drive horizon =>
      -- the three clocks show the same, so the drive calls have one horizon
      have horizon₁ : d.horizon? w₁.clock = some _ := clock_left ▸ horizon
      have horizon₂ : d.horizon? w₂.clock = some _ := clock_right ▸ horizon
      obtain ⟨i, rfl⟩ := Drive.exists_of_horizon? stops horizon
      refine ⟨_, _, _, _, _, _, Renaming.le_refl _, Renaming.le_refl _, .steps (.drive horizon₁),
        .steps (.drive horizon₂), .nil, .driving shared ?_ ?_ (Drive.le_of_horizon? horizon) rest⟩
      · rw [clock_left]
        exact Nat.le_refl _
      · rw [clock_right]
        exact Nat.le_refl _

/-! ### Drive calls -/

variable {i : Duration} {ran₁ ran₂ ran : Nat} {p q j : Nat → Script P Unit}

/-- A task of ours starts. -/
lemma follow_start {t₁ t : Task (Work P)} {l₁ : List (Task (Work P))}
    {queue : Queue (Work P)} (shared : World.Shared D ρ₁ ρ₂ w₁ w₂ w) (hw : w.Timely)
    (clock_left : w₁.clock ≤ w.clock) (clock_right : w₂.clock ≤ w.clock) (within : w.clock ≤ i)
    (rest : ∀ ρ₁' ρ₂' n₁ n₂ n, ρ₁ ≤ ρ₁' → ρ₂ ≤ ρ₂' →
      Script.Woven D ρ₁' ρ₂' (p n₁) (q n₂) (j n))
    (taken : w.queue.next? (.upTo i) = some (t, queue)) (waiting₁ : w₁.queue.waiting = t₁ :: l₁)
    (twin : t₁.Twin D ρ₁ t)
    (woven : Weave (Task.Twin D ρ₁) (Task.Twin D.swap ρ₂) (fun _ _ _ => False) l₁
      w₂.queue.waiting queue.waiting) :
    Follow D ρ₁ ρ₂ ⟨w₁, [.drive (.upTo i) ran₁ p]⟩ ⟨w₂, [.drive (.upTo i) ran₂ q]⟩
      ⟨w, [.drive (.upTo i) ran j]⟩
      ⟨w.taken t queue, .ofWork t.body :: [.drive (.upTo i) (ran + 1) j]⟩ := by
  obtain ⟨waiting, admits, -⟩ := Queue.next?_eq_some_iff.mp taken
  have hdue : w.clock ≤ t.due := hw.clock_le t (waiting ▸ .head _)
  have hi : t.due ≤ i := of_decide_eq_true admits
  have taken₁ : w₁.queue.next? (.upTo i) = some (t₁, { w₁.queue with waiting := l₁ }) :=
    Queue.next?_eq_some_iff.mpr ⟨waiting₁, by rwa [twin.due_eq], rfl⟩
  -- the clocks may differ before, since tasks of theirs have run, but not afterwards
  have hclock : w.clock.later t.due = t.due := Duration.later_eq_right hdue
  have hclock₁ : w₁.clock.later t₁.due = t.due := by
    rw [twin.due_eq]
    exact Duration.later_eq_right (Nat.le_trans clock_left hdue)
  have hbody : List.Forall₂ (Activity.Twin D ρ₁ ⟨ρ₂, w₂.store⟩) [.ofWork t₁.body]
      [.ofWork t.body] := .cons twin.body.ofWork .nil
  have hshared : World.Shared D ρ₁ ρ₂ (w₁.taken t₁ { w₁.queue with waiting := l₁ }) w₂
      (w.taken t queue) := { shared with queue := woven }
  have hat : World.clock (w₁.taken t₁ { w₁.queue with waiting := l₁ }) = (w.taken t queue).clock :=
    hclock₁.trans hclock.symm
  refine .ours (Renaming.le_refl _) (.start taken₁) ?_
    (.ours (.task hshared hat ?_ ?_ hbody rest))
  · rw [happens, happens, taken, taken₁]
    dsimp only
    rw [hclock, hclock₁]
    exact .left (.starts _ twin.body) .nil
  · exact Nat.le_trans clock_right (Duration.le_later_left _ _)
  · exact Duration.later_le within hi

lemma next?_eq_none_of_forall_lt {l : Queue (Work P)} (h : ∀ t ∈ l.waiting, i < t.due) :
    l.next? (.upTo i) = none := by
  rcases hnext : l.next? (.upTo i) with _ | ⟨t, l'⟩
  · rfl
  · obtain ⟨waiting, admits, -⟩ := Queue.next?_eq_some_iff.mp hnext
    have hle : t.due ≤ i := of_decide_eq_true admits
    have hlt := h t (waiting ▸ .head _)
    exact absurd hle (Nat.not_le_of_lt hlt)

/-- **What comes next in a drive call.** -/
theorem follow_drive (shared : World.Shared D ρ₁ ρ₂ w₁ w₂ w) (hw : w.Timely)
    (clock_left : w₁.clock ≤ w.clock) (clock_right : w₂.clock ≤ w.clock) (within : w.clock ≤ i)
    (rest : ∀ ρ₁' ρ₂' n₁ n₂ n, ρ₁ ≤ ρ₁' → ρ₂ ≤ ρ₂' →
      Script.Woven D ρ₁' ρ₂' (p n₁) (q n₂) (j n))
    (hstep : Step ⟨w, [.drive (.upTo i) ran j]⟩ m') :
    Follow D ρ₁ ρ₂ ⟨w₁, [.drive (.upTo i) ran₁ p]⟩ ⟨w₂, [.drive (.upTo i) ran₂ q]⟩
      ⟨w, [.drive (.upTo i) ran j]⟩ m' := by
  cases hstep with
  | @start _ _ _ _ t queue _ taken =>
    have waiting := (Queue.next?_eq_some_iff.mp taken).1
    have woven := shared.queue
    rw [waiting] at woven
    generalize hl₁ : w₁.queue.waiting = l₁ at woven
    generalize hl₂ : w₂.queue.waiting = l₂ at woven
    -- the task that starts is ours or theirs
    cases woven with
    | left twin woven =>
      exact follow_start shared hw clock_left clock_right within rest taken hl₁ twin (hl₂ ▸ woven)
    | right twin woven =>
      have woven' : Weave (Task.Twin D.swap ρ₂) (Task.Twin D ρ₁) (fun _ _ _ => False) _ _ _ :=
        woven.swap fun _ _ _ h => h
      exact (follow_start shared.swap hw clock_right clock_left within
        (fun ρ₂' ρ₁' n₂ n₁ n h₂ h₁ => (rest ρ₁' ρ₂' n₁ n₂ n h₁ h₂).swap) taken hl₂ twin
          (hl₁ ▸ woven')).swap
    | both common => exact common.elim
  | driven nothing =>
    have hlater : ∀ t ∈ w.queue.waiting, i < t.due := fun t ht =>
      hw.ordered.lt_due_of_next?_eq_none nothing ht
    have hlater₁ : ∀ t ∈ w₁.queue.waiting, i < t.due := fun t ht => by
      obtain ⟨u, hu, htu⟩ := shared.queue.exists_mem_of_mem_left (fun _ _ _ h => h) t ht
      rw [htu.due_eq]
      exact hlater u hu
    have hlater₂ : ∀ t ∈ w₂.queue.waiting, i < t.due := fun t ht => by
      obtain ⟨u, hu, htu⟩ := shared.swap.queue.exists_mem_of_mem_left (fun _ _ _ h => h) t ht
      rw [htu.due_eq]
      exact hlater u hu
    have nothing₁ := next?_eq_none_of_forall_lt hlater₁
    have nothing₂ := next?_eq_none_of_forall_lt hlater₂
    have hclock : w.clock.later i = i := Duration.later_eq_right within
    have hclock₁ : w₁.clock.later i = i := Duration.later_eq_right (Nat.le_trans clock_left within)
    have hclock₂ : w₂.clock.later i = i := Duration.later_eq_right (Nat.le_trans clock_right within)
    refine ⟨_, _, _, _, _, _, Renaming.le_refl _, Renaming.le_refl _, .steps (.driven nothing₁),
      .steps (.driven nothing₂), ?_, .between { shared with } (hclock₁.trans hclock.symm)
        (hclock₂.trans hclock.symm) (rest _ _ _ _ _ (Renaming.le_refl _) (Renaming.le_refl _))⟩
    rw [happens, happens, happens, nothing, nothing₁, nothing₂]
    dsimp only [Horizon.reached]
    rw [hclock, hclock₁, hclock₂]
    exact .both ⟨i, rfl, rfl, rfl⟩ .nil

/-! ### The simulation -/

/-- We are at work. -/
lemma Acting.follow (h : Acting D ρ₁ ρ₂ m₁ m₂ m) (hm : m.world.Timely) (hstep : m.Step m') :
    Follow D ρ₁ ρ₂ m₁ m₂ m m' := by
  cases h with
  | @step _ _ w₁ w₂ w _ _ s₁ s p j q shared clock_left clock_right under stable script rest =>
    cases under with
    | nil =>
      rcases script.advances shared hm.ordered clock_left with ⟨a₁, a, rfl, rfl, ha⟩ | hadvances
      · exact follow_woven (rest _ a₁ a (Renaming.le_refl _) ha) shared clock_left clock_right
          hm.ordered hstep
      · exact follow_step hadvances clock_left clock_right stable rest hstep
    | @cons x₁ x acts₁ acts hx hacts =>
      rw [List.cons_append] at hstep
      obtain ⟨ρ, w₁', w', top₁, top, hgoes, hstep₁, rfl, htop, hwoven⟩ :=
        hx.advances shared hm.ordered clock_left (acts₁ ++ [.script (s₁.bind p)]) hstep
      rw [← List.append_assoc] at hstep₁ ⊢
      refine .ours hgoes.le hstep₁ hwoven (.ours (.step hgoes.shared ?_ ?_ ?_ stable
        (script.mono stable hgoes.le) fun ρ' a₁ a hle =>
          rest ρ' a₁ a (Renaming.le_trans hgoes.le hle)))
      · rw [hgoes.clock_left, hgoes.clock, clock_left]
      · rw [hgoes.clock, clock_right]
      · exact List.rel_append htop (hacts.imp fun _ _ hy => hy.mono hgoes.le)
  | @task w₁ w₂ w _ _ i ran₁ ran₂ ran p q j shared clock_left clock_right within under rest =>
    cases under with
    | nil =>
      exact follow_drive shared hm (Nat.le_of_eq (congrArg Duration.nanos clock_left)) clock_right
        within rest hstep
    | @cons x₁ x acts₁ acts hx hacts =>
      rw [List.cons_append] at hstep
      obtain ⟨ρ, w₁', w', top₁, top, hgoes, hstep₁, rfl, htop, hwoven⟩ :=
        hx.advances shared hm.ordered clock_left (acts₁ ++ [.drive (.upTo i) ran₁ p]) hstep
      rw [← List.append_assoc] at hstep₁ ⊢
      refine .ours hgoes.le hstep₁ hwoven (.ours (.task hgoes.shared ?_ ?_ ?_ ?_
        fun ρ₁' ρ₂' n₁ n₂ n h₁ => rest ρ₁' ρ₂' n₁ n₂ n (Renaming.le_trans hgoes.le h₁)))
      · rw [hgoes.clock_left, hgoes.clock, clock_left]
      · rwa [hgoes.clock]
      · rwa [hgoes.clock]
      · exact List.rel_append htop (hacts.imp fun _ _ hy => hy.mono hgoes.le)

/-- **Whatever the shared run does next, the runs of the parties alone go with it.** -/
theorem Stage.follow (h : Stage D ρ₁ ρ₂ m₁ m₂ m) (hm : m.world.Timely) (hstep : m.Step m') :
    Follow D ρ₁ ρ₂ m₁ m₂ m m' := by
  cases h with
  | ours acting => exact acting.follow hm hstep
  | theirs acting => exact (acting.follow hm hstep).swap
  | between shared clock_left clock_right woven =>
    exact follow_woven woven shared clock_left clock_right hm.ordered hstep
  | driving shared clock_left clock_right within rest =>
    exact follow_drive shared hm clock_left clock_right within rest hstep
  | finished => cases hstep

end Machine

/-! ## Whole runs -/

/-- What the shared run has made of two parties, compared with what each of them has made alone. -/
structure Machine.Comprises (D : Sharing P) (ρ₁ ρ₂ : Renaming) (m₁ m₂ m : Machine P) : Prop where
  /-- Every promise of the parties is there, each under a number of its own. -/
  size_left : ρ₁.promises.length = m₁.world.promises.size
  size_right : ρ₂.promises.length = m₂.world.promises.size
  distinct : (ρ₁.promises ++ ρ₂.promises).Nodup
  /-- They are in the same states, with the same values, errors and traces. -/
  view_left : ∀ p p', ρ₁.promise p p' →
    (m₁.world.view p).Alike (D.ours.segment ρ₁) (m.world.view p')
  view_right : ∀ p p', ρ₂.promise p p' →
    (m₂.world.view p).Alike (D.theirs.segment ρ₂) (m.world.view p')
  /-- Every capture of a stack is one of the parties', each in its order. -/
  captured_left : ρ₁.captures.length = m₁.world.captures
  captured_right : ρ₂.captures.length = m₂.world.captures
  captures : Weave Eq Eq (fun _ _ _ => False) ρ₁.captures ρ₂.captures
    (List.range m.world.captures)
  /-- The parties have noted and remember the same. -/
  notes : Weave (D.ours.note ρ₁) (D.theirs.note ρ₂) D.common m₁.world.notes m₂.world.notes
    m.world.notes
  store : D.store ρ₁ ρ₂ m₁.world.store m₂.world.store m.world.store
  /-- Outside of drive calls the clocks show the same. -/
  clock : ¬ m.Driving → ¬ m₁.Driving ∧ ¬ m₂.Driving ∧ m₁.world.clock = m.world.clock ∧
    m₂.world.clock = m.world.clock
  /-- If everything is done, the parties have done everything. -/
  finished : m.stack = [] → m₁.stack = [] ∧ m₂.stack = []

namespace Machine

variable {m₁ m₂ m : Machine P}

lemma Acting.shared (h : Acting D ρ₁ ρ₂ m₁ m₂ m) :
    World.Shared D ρ₁ ρ₂ m₁.world m₂.world m.world := by
  cases h with
  | step shared | task shared => exact shared

lemma Stage.shared (h : Stage D ρ₁ ρ₂ m₁ m₂ m) :
    World.Shared D ρ₁ ρ₂ m₁.world m₂.world m.world := by
  cases h with
  | ours acting => exact acting.shared
  | theirs acting => exact acting.shared.swap
  | between shared | driving shared | finished shared => exact shared

lemma not_driving_script (w : World P) (s : Script P Unit) : ¬ Driving ⟨w, [.script s]⟩ := by
  rintro ⟨x, hx, hdrive⟩
  cases List.mem_singleton.mp hx
  cases hdrive

/-- Nothing that a party has under way during a step is a drive. -/
lemma not_driving_of_twin {acts₁ acts : List (Activity P)} {w : World P} {s : Script P Unit}
    (under : List.Forall₂ (Activity.Twin D ρ c) acts₁ acts) :
    ¬ Driving ⟨w, acts₁ ++ [.script s]⟩ := by
  rintro ⟨x, hx, hdrive⟩
  induction under with
  | nil => exact not_driving_script w s ⟨x, hx, hdrive⟩
  | cons hy _ ih =>
    rcases List.mem_cons.mp hx with rfl | hx
    · cases hy <;> cases hdrive
    · exact ih hx

lemma driving_of_drive (acts : List (Activity P)) (w : World P) (h : Horizon) (ran : Nat)
    (k : Nat → Script P Unit) : Driving ⟨w, acts ++ [.drive h ran k]⟩ :=
  ⟨.drive h ran k, List.mem_append_right _ (.head _), rfl⟩

lemma Acting.clock (h : Acting D ρ₁ ρ₂ m₁ m₂ m) (hm : ¬ m.Driving) : ¬ m₁.Driving ∧
    ¬ m₂.Driving ∧ m₁.world.clock = m.world.clock ∧ m₂.world.clock = m.world.clock := by
  cases h with
  | step _ clock_left clock_right under =>
    exact ⟨not_driving_of_twin under, not_driving_script _ _, clock_left, clock_right⟩
  | task => exact absurd (driving_of_drive _ _ _ _ _) hm

lemma Stage.clock (h : Stage D ρ₁ ρ₂ m₁ m₂ m) (hm : ¬ m.Driving) : ¬ m₁.Driving ∧
    ¬ m₂.Driving ∧ m₁.world.clock = m.world.clock ∧ m₂.world.clock = m.world.clock := by
  cases h with
  | ours acting => exact acting.clock hm
  | theirs acting =>
    obtain ⟨h₂, h₁, clock₂, clock₁⟩ := acting.clock hm
    exact ⟨h₁, h₂, clock₁, clock₂⟩
  | between _ clock_left clock_right =>
    exact ⟨not_driving_script _ _, not_driving_script _ _, clock_left, clock_right⟩
  | driving => exact absurd (driving_of_drive [] _ _ _ _) hm
  | finished _ clock_left clock_right =>
    exact ⟨fun ⟨_, hx, _⟩ => (nomatch hx), fun ⟨_, hx, _⟩ => (nomatch hx), clock_left, clock_right⟩

lemma Acting.stack_ne_nil (h : Acting D ρ₁ ρ₂ m₁ m₂ m) : m.stack ≠ [] := by
  cases h <;> exact List.append_ne_nil_of_right_ne_nil _ (List.cons_ne_nil _ _)

lemma Stage.finished_of_nil (h : Stage D ρ₁ ρ₂ m₁ m₂ m) (hm : m.stack = []) :
    m₁.stack = [] ∧ m₂.stack = [] := by
  cases h with
  | ours acting | theirs acting => exact absurd hm acting.stack_ne_nil
  | between | driving => cases hm
  | finished => exact ⟨rfl, rfl⟩

lemma Stage.comprises (h : Stage D ρ₁ ρ₂ m₁ m₂ m) : Comprises D ρ₁ ρ₂ m₁ m₂ m where
  size_left := h.shared.promises.left.length_eq
  size_right := h.shared.promises.right.length_eq
  distinct := List.nodup_append.mpr ⟨h.shared.promises.left.nodup, h.shared.promises.right.nodup,
    fun _ h₁ _ h₂ heq => h.shared.promises.disjoint _ h₁ (heq ▸ h₂)⟩
  view_left _ _ := h.shared.view
  view_right _ _ := h.shared.swap.view
  captured_left := h.shared.captured_left
  captured_right := h.shared.captured_right
  captures := h.shared.captures
  notes := h.shared.notes
  store := h.shared.store
  clock := h.clock
  finished := h.finished_of_nil

end Machine

namespace Program

variable {ours theirs both : Program P}

/-- A program that two parties run in turns, and the programs that each of them runs alone. -/
structure Shares (D : Sharing P) (ours theirs both : Program P) : Prop where
  settings_left : ours.settings = both.settings
  settings_right : theirs.settings = both.settings
  /-- The stacks of one capture are alike. -/
  stacks_left : ∀ ρ i j, ρ.capture i j →
    D.ours.segment ρ (some (ours.start.world.stack i)) (some (both.start.world.stack j))
  stacks_right : ∀ ρ i j, ρ.capture i j →
    D.theirs.segment ρ (some (theirs.start.world.stack i)) (some (both.start.world.stack j))
  store : D.store {} {} ours.store theirs.store both.store
  main : Script.Woven D {} {} ours.main theirs.main both.main

/-- Whenever the shared run has come to a moment, each party comes to one alone up to which the same
has happened to it, in the same order, and the same drive calls are over; and the shared run
comprises what the parties have made. -/
def Independent (D : Sharing P) (ours theirs both : Program P) : Prop :=
  ∀ n m, both.moment n = some m →
    ∃ ρ₁ ρ₂ n₁ n₂ m₁ m₂, ours.moment n₁ = some m₁ ∧ theirs.moment n₂ = some m₂ ∧
      Happening.Woven D ρ₁ ρ₂ (ours.log n₁) (theirs.log n₂) (both.log n) ∧
      (ours.log n₁).filterMap Happening.rest? = (both.log n).filterMap Happening.rest? ∧
      (theirs.log n₂).filterMap Happening.rest? = (both.log n).filterMap Happening.rest? ∧
      Machine.Comprises D ρ₁ ρ₂ m₁ m₂ m

lemma Shares.start (h : Shares D ours theirs both) :
    Machine.Stage D {} {} ours.start theirs.start both.start := by
  refine .between ⟨h.settings_left, h.settings_right, h.stacks_left, h.stacks_right, rfl, rfl,
    .nil, .nil, ?_, ?_, ?_, ?_, .nil, h.store⟩ rfl rfl h.main
  all_goals exact ⟨⟨rfl, .nil, fun _ _ hi => (nomatch hi)⟩,
    ⟨rfl, .nil, fun _ _ hi => (nomatch hi)⟩, fun _ hn => (nomatch hn)⟩

lemma log_of_goes {prog : Program P} {n : Nat} {m m' : Machine P} {l : List (Happening P)}
    (hm : prog.moment n = some m) (h : m.Goes l m') :
    ∃ n', prog.moment n' = some m' ∧ prog.log n' = prog.log n ++ l := by
  cases h with
  | waits => exact ⟨n, hm, (List.append_nil _).symm⟩
  | steps step =>
    refine ⟨n + 1, moment_succ_eq_some_iff.mpr ⟨m, hm, step⟩, ?_⟩
    rw [log, hm]
    rfl

/-- **The simulation along a whole run.** -/
theorem Shares.stage (h : Shares D ours theirs both) {n : Nat} {m : Machine P}
    (hm : both.moment n = some m) :
    ∃ ρ₁ ρ₂ n₁ n₂ m₁ m₂, ours.moment n₁ = some m₁ ∧ theirs.moment n₂ = some m₂ ∧
      Happening.Woven D ρ₁ ρ₂ (ours.log n₁) (theirs.log n₂) (both.log n) ∧
      Machine.Stage D ρ₁ ρ₂ m₁ m₂ m := by
  induction n generalizing m with
  | zero =>
    cases hm
    exact ⟨_, _, 0, 0, _, _, rfl, rfl, .nil, h.start⟩
  | succ n ih =>
    obtain ⟨m₀, hm₀, hstep⟩ := moment_succ_eq_some_iff.mp hm
    obtain ⟨ρ₁, ρ₂, n₁, n₂, m₁, m₂, hm₁, hm₂, hlog, hstage⟩ := ih hm₀
    obtain ⟨ρ₁', ρ₂', m₁', m₂', l₁, l₂, hle₁, hle₂, hgoes₁, hgoes₂, hwoven, hstage'⟩ :=
      hstage.follow (timely hm₀) hstep
    obtain ⟨n₁', hm₁', hlog₁⟩ := log_of_goes hm₁ hgoes₁
    obtain ⟨n₂', hm₂', hlog₂⟩ := log_of_goes hm₂ hgoes₂
    refine ⟨ρ₁', ρ₂', n₁', n₂', m₁', m₂', hm₁', hm₂', ?_, hstage'⟩
    have hlog' : Happening.Woven D ρ₁' ρ₂' (ours.log n₁) (theirs.log n₂) (both.log n) :=
      hlog.imp (fun _ _ hx => hx.mono hle₁) fun _ _ hx => hx.mono hle₂
    rw [hlog₁, hlog₂, log, hm₀]
    exact hlog'.append hwoven

lemma Shares.independent (h : Shares D ours theirs both) : Independent D ours theirs both := by
  intro n m hm
  obtain ⟨ρ₁, ρ₂, n₁, n₂, m₁, m₂, hm₁, hm₂, hlog, hstage⟩ := h.stage hm
  exact ⟨ρ₁, ρ₂, n₁, n₂, m₁, m₂, hm₁, hm₂, hlog, hlog.rests_eq.1, hlog.rests_eq.2,
    hstage.comprises⟩

end Program

end Eventual
