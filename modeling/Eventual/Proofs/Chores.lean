import Eventual.Proofs.Registration
import Mathlib.Logic.Hydra
import Mathlib.Tactic.Abel

/-!
# What is left to be done

A machine has scripts to run, tasks to start, observers to tell and drives to finish.  Each of
these is a chore, and what comes of a chore was part of it (`Chore.ComesOf`): of a script its rest
and what it hands over, of a task its script, of an observer its callback.  That promises forward
to one another, perhaps in circles, does not matter here, since who is told of a promise is told
once.

So there is no endless chain of chores each of which comes of the one before.  Every step of a
machine, except for the attempts of retry loops, does one chore: it is replaced by finitely many
that come of it, and others may be dropped (`Machine.Step.progress`).  Hence there is no endless
run without attempts either, although neither the number of tasks nor that of promises goes down.
-/

namespace Eventual

variable {P : Payload}

/-! ## Chores -/

/-- Something that is left to be done. -/
inductive Chore (P : Payload) : Type 1
  /-- A script is to be run. -/
  | script {α : Type} (s : Script P α)
  /-- A task that waits is to run a script. -/
  | task (body : Script P Unit)
  /-- An observer is to be told what it waits for. -/
  | telling (ob : Observer P)
  /-- A drive is to be finished, and a script goes on with the number of tasks. -/
  | drive {α : Type} (k : Nat → Script P α)
  /-- A delivery that waits is to be made. -/
  | delivery
  /-- A delivery that is under way is to be finished. -/
  | round

/-- An operation hands a chore over. -/
def Op.Entrusts : {ρ : Type} → Op P ρ → Chore P → Prop
  | _, schedule _ body, x => x = .task body
  | _, observe _ ob, x => x = .telling ob
  | _, _, _ => False

namespace Chore

/-- A chore may come of another one when that is done. -/
inductive ComesOf : Chore P → Chore P → Prop
  /-- What a script does after an operation. -/
  | rest {ρ α : Type} (o : Op P ρ) (k : ρ → Script P α) (r : ρ) :
      ComesOf (script (k r)) (script (.op o k))
  /-- What a script hands over. -/
  | entrusted {ρ α : Type} {o : Op P ρ} {x : Chore P} (entrusts : o.Entrusts x)
      (k : ρ → Script P α) :
      ComesOf x (script (.op o k))
  /-- The delivery that an operation sends out. -/
  | sent {ρ α : Type} (o : Op P ρ) (k : ρ → Script P α) : ComesOf delivery (script (.op o k))
  /-- The drive that a script begins. -/
  | begun {α : Type} (d : Drive) (k : Nat → Script P α) : ComesOf (drive k) (script (.drive d k))
  /-- What a script does after a drive. -/
  | driven {α : Type} (k : Nat → Script P α) (n : Nat) : ComesOf (script (k n)) (drive k)
  /-- What a task does. -/
  | started (body : Script P Unit) : ComesOf (script body) (task body)
  /-- What an observer does. -/
  | called {ob : Observer P} {o : Outcome P.Value P.Error} {body : Script P Unit}
      (handler : ob.handler? o = some body) : ComesOf (script body) (telling ob)
  /-- A delivery as it starts. -/
  | opened : ComesOf round delivery

lemma acc_round : Acc ComesOf (round : Chore P) := ⟨_, fun _ h => nomatch h⟩

lemma acc_delivery : Acc ComesOf (delivery : Chore P) := by
  refine ⟨_, fun y h => ?_⟩
  cases h
  exact acc_round

mutual

theorem acc_of_handler : (ob : Observer P) → ∀ o body, ob.handler? o = some body →
    Acc ComesOf (script body)
  | .onSuccess f, .succeeded v, _, rfl => acc_script (f v)
  | .onFailure g, .failed t, _, rfl => acc_script (g t)
  | .onEither f _, .succeeded v, _, rfl => acc_script (f v)
  | .onEither _ g, .failed t, _, rfl => acc_script (g t)
  | .silent, .succeeded _, _, h | .silent, .failed _, _, h => nomatch h
  | .onSuccess _, .failed _, _, h | .onFailure _, .succeeded _, _, h => nomatch h
termination_by structural ob => ob

theorem acc_of_entrusts : {ρ : Type} → (o : Op P ρ) → ∀ x, o.Entrusts x → Acc ComesOf x
  | _, .schedule _ body => by
    rintro _ rfl
    refine ⟨_, fun y h => ?_⟩
    cases h
    exact acc_script body
  | _, .observe _ ob => by
    rintro _ rfl
    refine ⟨_, fun y h => ?_⟩
    cases h with
    | called handler => exact acc_of_handler ob _ _ handler
  | _, .create | _, .createUnder _ | _, .settle _ _ | _, .view _ | _, .now | _, .pending
  | _, .settings | _, .openGathering _ | _, .gather _ _ _ | _, .openPairing | _, .couple _ _ _
  | _, .openRetry _ _ _ _ | _, .countAttempt _ | _, .emit _ | _, .note _ | _, .load
  | _, .save _ => fun _ h => h.elim
termination_by structural _ o => o

theorem acc_script : {α : Type} → (s : Script P α) → Acc ComesOf (script s)
  | _, .pure _ => ⟨_, fun _ h => nomatch h⟩
  | _, .op o k => by
    refine ⟨_, fun y h => ?_⟩
    cases h with
    | rest _ _ r => exact acc_script (k r)
    | entrusted entrusts => exact acc_of_entrusts o y entrusts
    | sent => exact acc_delivery
  | _, .drive _ k => by
    refine ⟨_, fun y h => ?_⟩
    cases h
    refine ⟨_, fun y h => ?_⟩
    cases h with
    | driven _ n => exact acc_script (k n)
  | _, .attempt _ _ => ⟨_, fun _ h => nomatch h⟩
termination_by structural _ s => s

end

/-- **There is no endless chain of chores each of which comes of the one before.** -/
theorem wellFounded_comesOf : WellFounded (ComesOf : Chore P → Chore P → Prop) := by
  refine ⟨fun x => ?_⟩
  cases x with
  | script s => exact acc_script s
  | task body =>
    refine ⟨_, fun y h => ?_⟩
    cases h
    exact acc_script body
  | telling ob =>
    refine ⟨_, fun y h => ?_⟩
    cases h with
    | called handler => exact acc_of_handler ob _ _ handler
  | drive k =>
    refine ⟨_, fun y h => ?_⟩
    cases h with
    | driven _ n => exact acc_script (k n)
  | delivery => exact acc_delivery
  | round => exact acc_round

/-! ## Getting on with chores -/

/-- One chore is done, and what is new comes of it; others may be dropped. -/
def Progress (s' s : Multiset (Chore P)) : Prop :=
  ∃ x t d, (∀ y ∈ t, ComesOf y x) ∧ s' + d + {x} = s + t

lemma reflTransGen_cutExpand_add (s d : Multiset (Chore P)) :
    Relation.ReflTransGen (Relation.CutExpand ComesOf) s (s + d) := by
  induction d using Multiset.induction with
  | empty =>
    rw [add_zero]
  | cons x d ih =>
    refine ih.tail ⟨0, x, by simp, ?_⟩
    rw [Multiset.add_cons, ← Multiset.singleton_add]
    abel

lemma Progress.transGen {s' s : Multiset (Chore P)} (h : Progress s' s) :
    Relation.TransGen (Relation.CutExpand ComesOf) s' s := by
  obtain ⟨x, t, d, ht, heq⟩ := h
  exact .tail' (reflTransGen_cutExpand_add s' d) ⟨t, x, ht, heq⟩

/-- **Nobody gets on with finitely many chores without end.** -/
theorem wellFounded_progress : WellFounded (Progress : Multiset (Chore P) → _ → Prop) :=
  Subrelation.wf Progress.transGen wellFounded_comesOf.cutExpand.transGen

/-- What is handed down from a chore to whatever comes of it remains true of all chores. -/
lemma Progress.forall {s' s : Multiset (Chore P)} {Q : Chore P → Prop} (h : Progress s' s)
    (hQ : ∀ {y x}, ComesOf y x → Q x → Q y) (hs : ∀ x ∈ s, Q x) : ∀ x ∈ s', Q x := by
  obtain ⟨x, t, d, ht, heq⟩ := h
  -- nothing comes of itself, so the chore that is done was one of them
  have := wellFounded_comesOf (P := P).irrefl
  have hall : ∀ y ∈ s' + d, Q y := Relation.cutExpand_closed Q hQ ⟨t, x, ht, heq⟩ hs
  exact fun y hy => hall y (Multiset.mem_add.mpr (.inl hy))

end Chore

/-! ## The chores of a machine -/

open Chore

/-- To tell observers. -/
def tellings (rs : List (Registration P)) : Multiset (Chore P) :=
  (rs : Multiset (Registration P)).map fun r => .telling r.observer

/-- The chores of a task that waits. -/
def Work.chores : Work P → Multiset (Chore P)
  | .script body => {.task body}
  | .delivery _ _ rs => {.delivery} + tellings rs

/-- The chores of what is under way. -/
def Activity.chores : Activity P → Multiset (Chore P)
  | .script s => {.script s}
  | .delivery _ _ rs => {.round} + tellings rs
  | .drive _ _ k => {.drive k}

/-- The chores of the tasks that wait. -/
def Queue.chores (q : Queue (Work P)) : Multiset (Chore P) :=
  (q.waiting.map fun t => t.body.chores).sum

/-- To tell those who wait on the lists of promises. -/
def listed (ps : Array (Promise P)) : Multiset (Chore P) :=
  (ps.toList.map fun a => tellings a.slot.waiting).sum

/-- The chores of a world. -/
def World.chores (w : World P) : Multiset (Chore P) := w.queue.chores + listed w.promises

/-- The chores of a machine. -/
def Machine.chores (m : Machine P) : Multiset (Chore P) :=
  m.world.chores + (m.stack.map Activity.chores).sum

@[simp] lemma tellings_nil : tellings ([] : List (Registration P)) = 0 := rfl

lemma tellings_cons (r : Registration P) (rs : List (Registration P)) :
    tellings (r :: rs) = {.telling r.observer} + tellings rs := by
  simp [tellings, Multiset.singleton_add]

lemma tellings_append (rs rs' : List (Registration P)) :
    tellings (rs ++ rs') = tellings rs + tellings rs' := by
  simp [tellings]

/-- Some of those who wait are told, and the others are dropped. -/
lemma tellings_filter (p : Registration P → Bool) (rs : List (Registration P)) :
    tellings rs = tellings (rs.filter p) + tellings (rs.filter fun r => !p r) := by
  induction rs with
  | nil => rfl
  | cons r rs ih =>
    rw [tellings_cons, ih]
    by_cases hr : p r = true
    · simp [hr, tellings_cons]
    · simp [hr, tellings_cons, add_left_comm]

namespace Queue

variable {q : Queue (Work P)}

lemma chores_add (q : Queue (Work P)) (due : Duration) (body : Work P) :
    (q.add due body).chores = q.chores + body.chores := by
  have hperm := (insertTask_perm ⟨due, q.scheduled, body⟩ q.waiting).map fun t => t.body.chores
  rw [chores, add, hperm.sum_eq, List.map_cons, List.sum_cons, chores, add_comm]

lemma chores_of_next? {h : Horizon} {t : Task (Work P)} {q' : Queue (Work P)}
    (taken : q.next? h = some (t, q')) : q.chores = t.body.chores + q'.chores := by
  obtain ⟨hwaiting, -, -⟩ := next?_eq_some_iff.mp taken
  rw [chores, hwaiting, List.map_cons, List.sum_cons, chores]

/-- Observers go over into a task, unless they are dropped. -/
lemma chores_deliver (q : Queue (Work P)) (clock : Duration) (p : PromiseId)
    (o : Outcome P.Value P.Error) (rs : List (Registration P)) :
    ∃ t d : Multiset (Chore P), (∀ x ∈ t, x = .delivery) ∧
      (q.deliver clock p o rs).chores + d = q.chores + tellings rs + t := by
  by_cases h : ∃ r ∈ rs, r.observer.awaits o = true
  · refine ⟨{.delivery}, tellings (rs.filter fun r => !r.observer.awaits o), by simp, ?_⟩
    rw [deliver_of_exists h, chores_add, Work.chores,
      tellings_filter (fun r => r.observer.awaits o) rs]
    abel
  · -- nobody waits for this outcome, and all are dropped
    refine ⟨0, tellings rs, by simp, ?_⟩
    have hnone : ∀ r ∈ rs, ¬ r.observer.awaits o = true := by simpa using h
    rw [deliver_of_forall_not hnone, add_zero]

end Queue

lemma listed_push (ps : Array (Promise P)) (segment? : Option Segment) (observed : Nat) :
    listed (ps.push ⟨segment?, observed, .unresolved []⟩) = listed ps := by
  simp [listed]

/-- One promise is replaced. -/
lemma listed_setIfInBounds {ps : Array (Promise P)} {i : Nat} {a : Promise P} (h : ps[i]? = some a)
    (a' : Promise P) :
    listed (ps.setIfInBounds i a') + tellings a.slot.waiting =
      listed ps + tellings a'.slot.waiting := by
  rw [← Array.getElem?_toList] at h
  rw [listed, listed, Array.toList_setIfInBounds]
  generalize ps.toList = as at h
  induction as generalizing i with
  | nil => cases h
  | cons b bs ih =>
    cases i with
    | zero =>
      cases h
      simp only [List.set_cons_zero, List.map_cons, List.sum_cons]
      abel
    | succ i =>
      have hbs := ih h
      simp only [List.set_cons_succ, List.map_cons, List.sum_cons]
      rw [add_assoc, hbs, add_assoc]

/-- **What an operation adds is a delivery or was handed over.** -/
lemma World.Effect.chores {w w' : World P} {ρ : Type} {o : Op P ρ} (h : Effect w w' o) :
    ∃ t d : Multiset (Chore P), (∀ x ∈ t, x = .delivery ∨ o.Entrusts x) ∧
      w'.chores + d = w.chores + t := by
  cases h with
  | still promises queue =>
    refine ⟨0, 0, by simp, ?_⟩
    rw [World.chores, promises, queue, World.chores]
  | make segment? promises queue =>
    refine ⟨0, 0, by simp, ?_⟩
    rw [World.chores, promises, queue, listed_push, World.chores]
  | @schedule _ _ body _ promises queue =>
    refine ⟨{.task body}, 0, by simp [Op.Entrusts], ?_⟩
    rw [World.chores, promises, queue, Queue.chores_add, Work.chores, World.chores]
    abel
  | @settle p segment? observed waiting s before promises queue =>
    -- the list of the promise goes over into a delivery
    obtain ⟨t, d, ht, hqueue⟩ := w.queue.chores_deliver w.clock p (s.outcome segment?) waiting
    have hlisted := listed_setIfInBounds before ⟨segment?, observed, .settled s⟩
    refine ⟨t, d, fun x hx => .inl (ht x hx), ?_⟩
    simp only [Slot.waiting_unresolved, Slot.waiting_settled, tellings_nil, add_zero] at hlisted
    rw [World.chores, World.chores, promises, queue, ← hlisted, add_right_comm, hqueue]
    abel
  | @enlist p segment? observed waiting ob before promises queue =>
    have hlisted := listed_setIfInBounds before
      ⟨segment?, observed + 1, .unresolved (waiting ++ [⟨observed, ob⟩])⟩
    refine ⟨{.telling ob}, 0, by simp [Op.Entrusts], ?_⟩
    simp only [Slot.waiting_unresolved, tellings_append, tellings_cons, tellings_nil,
      add_zero] at hlisted
    rw [add_comm (tellings waiting), ← add_assoc] at hlisted
    rw [World.chores, World.chores, promises, queue, add_zero, add_right_cancel hlisted, add_assoc]
  | @inform p segment? observed s ob before promises queue =>
    obtain ⟨t, d, ht, hqueue⟩ :=
      w.queue.chores_deliver w.clock p (s.outcome segment?) [⟨observed, ob⟩]
    have hlisted := listed_setIfInBounds before ⟨segment?, observed + 1, .settled s⟩
    refine ⟨{.telling ob} + t, d, fun x hx => ?_, ?_⟩
    · rcases Multiset.mem_add.mp hx with hx | hx
      · exact .inr (Multiset.mem_singleton.mp hx)
      · exact .inl (ht x hx)
    · simp only [Slot.waiting_settled, tellings_nil, add_zero] at hlisted
      rw [World.chores, World.chores, promises, queue, hlisted, add_right_comm, hqueue,
        tellings_cons, tellings_nil]
      abel

/-- A task that starts turns into what is under way. -/
lemma Work.chores_ofWork (work : Work P) : ∃ x y : Chore P, ComesOf y x ∧
    (Activity.ofWork work).chores + {x} = work.chores + {y} := by
  cases work with
  | script body =>
    refine ⟨_, _, .started body, ?_⟩
    rw [Activity.ofWork, Activity.chores, Work.chores, add_comm]
  | delivery p o rs =>
    refine ⟨_, _, .opened, ?_⟩
    rw [Activity.ofWork, Activity.chores, Work.chores]
    abel

namespace Machine

variable {m m' : Machine P}

/-- **Every step gets on with the chores**, unless an attempt of a retry loop is made. -/
theorem Step.progress (h : m.Step m')
    (hno : ∀ r k rest, m.stack ≠ .script (.attempt r k) :: rest) :
    Progress m'.chores m.chores := by
  cases h with
  | @finish w rest =>
    refine ⟨.script (.pure ()), 0, 0, by simp, ?_⟩
    simp only [chores, List.map_cons, List.sum_cons, Activity.chores]
    abel
  | @operate w w' _ o k r rest performed =>
    obtain ⟨-, heffect⟩ := World.effect_of_perform performed
    obtain ⟨t, d, ht, hworld⟩ := heffect.chores
    refine ⟨.script (.op o k), t + {.script (k r)}, d, fun y hy => ?_, ?_⟩
    · rcases Multiset.mem_add.mp hy with hy | hy
      · rcases ht y hy with rfl | hentrusts
        · exact .sent o k
        · exact .entrusted hentrusts k
      · rw [Multiset.mem_singleton.mp hy]
        exact .rest o k r
    · simp only [chores, List.map_cons, List.sum_cons, Activity.chores]
      rw [add_right_comm w'.chores, hworld]
      abel
  | @drive w d h k rest horizon =>
    refine ⟨.script (.drive d k), {.drive k}, 0, by simpa using .begun d k, ?_⟩
    simp only [chores, List.map_cons, List.sum_cons, Activity.chores]
    abel
  | @attempt w r k rest => exact absurd rfl (hno r k rest)
  | @delivered w p o rest =>
    refine ⟨.round, 0, 0, by simp, ?_⟩
    simp only [chores, List.map_cons, List.sum_cons, Activity.chores, tellings_nil]
    abel
  | @call w p o r rs body rest handler =>
    refine ⟨.telling r.observer, {.script body}, 0, by simpa using .called handler, ?_⟩
    simp only [chores, List.map_cons, List.sum_cons, Activity.chores, tellings_cons]
    abel
  | @leaveOut w p o r rs rest handler =>
    refine ⟨.telling r.observer, 0, 0, by simp, ?_⟩
    simp only [chores, List.map_cons, List.sum_cons, Activity.chores, tellings_cons]
    abel
  | @start w h ran k t q rest taken =>
    -- the drive stays, and the task is under way
    obtain ⟨x, y, hcomes, hwork⟩ := t.body.chores_ofWork
    refine ⟨x, {y}, 0, by simpa using hcomes, ?_⟩
    simp only [chores, World.chores, List.map_cons, List.sum_cons, Activity.chores,
      Queue.chores_of_next? taken]
    generalize (rest.map Activity.chores).sum = s
    calc q.chores + listed w.promises + ((Activity.ofWork t.body).chores + ({.drive k} + s)) + 0
          + {x}
        = q.chores + listed w.promises + ({.drive k} + s)
          + ((Activity.ofWork t.body).chores + {x}) := by
          abel
      _ = t.body.chores + q.chores + listed w.promises + ({.drive k} + s) + {y} := by
          rw [hwork]
          abel
  | @driven w h ran k rest nothing =>
    refine ⟨.drive k, {.script (k ran)}, 0, by simpa using .driven k ran, ?_⟩
    have hworld : (w.finishDrive h).chores = w.chores := rfl
    simp only [chores, List.map_cons, List.sum_cons, Activity.chores, hworld]
    abel

end Machine

end Eventual
