import Eventual.Combinator.Join
import Eventual.Proofs.Registration
import Mathlib.Data.Set.Insert

/-!
# Networks of promises

A network is a set of unresolved promises whose observers do nothing else with a failure than to
pass it on within the set, while no task waits.  That is what the combinators build: every observer
that `forward`, `forwardFailure`, `andThen`, `andThenLazily`, `join`, `joinPair` and `select`
register passes failures on, so each of them takes a network to a network, which has the new promise
in addition (`Script.Connects`).  So does every script that is put together of them
(`Wires.connects`).
-/

namespace Eventual

variable {P : Payload}

/-! ## Passing a failure on -/

/-- An observer answers every failure by passing it on to a promise. -/
def Observer.PassesTo (ob : Observer P) (q : PromiseId) : Prop :=
  ∀ t, ob.handler? (.failed t) = some (Script.passFailure q t)

namespace Observer

variable {ob : Observer P} {q q' : PromiseId}

lemma passesTo_onEither (f : P.Value → Script P Unit) (q : PromiseId) :
    (onEither f (Script.passFailure q)).PassesTo q :=
  fun _ => rfl

lemma passesTo_onFailure (q : PromiseId) :
    (onFailure (Script.passFailure q) : Observer P).PassesTo q :=
  fun _ => rfl

lemma PassesTo.awaits (h : ob.PassesTo q) (t : Trace P.Error) : ob.awaits (.failed t) = true := by
  rw [Observer.awaits, h t, Option.isSome_some]

lemma PassesTo.unique (h : ob.PassesTo q) (h' : ob.PassesTo q') (t : Trace P.Error) : q = q' := by
  have heq := Option.some.inj ((h t).symm.trans (h' t))
  cases heq
  rfl

end Observer

namespace World

/-- A failure of one promise is passed on to another. -/
def Passes (w : World P) (p q : PromiseId) : Prop :=
  ∃ r ∈ w.waitingFor p, r.observer.PassesTo q

/-- The promises along a way on which a failure of `s` is passed on, the first and the last one
included. -/
inductive Route (w : World P) (s : PromiseId) : PromiseId → List PromiseId → Prop
  /-- The failure stays where it is. -/
  | here : Route w s s [s]
  /-- The failure is passed on once more. -/
  | pass {p q : PromiseId} {ps : List PromiseId} (route : Route w s p ps) (passes : w.Passes p q) :
      Route w s q (ps ++ [q])

end World

/-- A promise is unresolved, and its observers pass failures on to promises of a set. -/
def Promise.PassesWithin (a : Promise P) (S : Set PromiseId) : Prop :=
  ∃ rs, a.slot = .unresolved rs ∧ ∀ r ∈ rs, ∃ q ∈ S, r.observer.PassesTo q

lemma Promise.PassesWithin.mono {a : Promise P} {S T : Set PromiseId} (hST : S ⊆ T)
    (h : a.PassesWithin S) : a.PassesWithin T := by
  obtain ⟨rs, hslot, hpass⟩ := h
  refine ⟨rs, hslot, fun r hr => ?_⟩
  obtain ⟨q, hq, hr⟩ := hpass r hr
  exact ⟨q, hST hq, hr⟩

namespace World

/-- A set of unresolved promises whose observers pass failures on within the set, while no task
waits. -/
structure Network (w : World P) (S : Set PromiseId) : Prop where
  idle : w.queue.waiting = []
  member : ∀ p ∈ S, ∃ a, w.promises[p.index]? = some a ∧ a.PassesWithin S

variable {w w' : World P} {S : Set PromiseId} {p q : PromiseId}

namespace Network

lemma eq_some (hw : w.Network S) (hp : p ∈ S) :
    ∃ observed, w.promises[p.index]? =
      some ⟨(w.view p).segment?, observed, .unresolved (w.waitingFor p)⟩ := by
  obtain ⟨⟨segment?, observed, slot⟩, ha, rs, rfl, -⟩ := hw.member p hp
  refine ⟨observed, ?_⟩
  rw [view_of_eq_some ha, waitingFor_of_eq_some ha, ha]
  rfl

lemma exists_passesTo (hw : w.Network S) (hp : p ∈ S) {r : Registration P}
    (hr : r ∈ w.waitingFor p) : ∃ q ∈ S, r.observer.PassesTo q := by
  obtain ⟨⟨segment?, observed, slot⟩, ha, rs, rfl, hpass⟩ := hw.member p hp
  rw [waitingFor_of_eq_some ha] at hr
  exact hpass r hr

lemma mem_of_passes (hw : w.Network S) (t : Trace P.Error) (hp : p ∈ S) (h : w.Passes p q) :
    q ∈ S := by
  obtain ⟨r, hr, hpass⟩ := h
  obtain ⟨q', hq', hpass'⟩ := hw.exists_passesTo hp hr
  rwa [hpass.unique hpass' t]

lemma congr (hw : w.Network S) (promises : w'.promises = w.promises) (queue : w'.queue = w.queue) :
    w'.Network S where
  idle := by rw [queue, hw.idle]
  member := by
    rw [promises]
    exact hw.member

/-- As long as no task waits, there is a network to begin with. -/
lemma empty (idle : w.queue.waiting = []) : w.Network ∅ := ⟨idle, by simp⟩

/-- A promise that has just been made can be taken in. -/
lemma addPromise (hw : w.Network S) (segment? : Option Segment) :
    (w.addPromise segment?).2.Network (insert (w.addPromise segment?).1 S) := by
  refine ⟨hw.idle, ?_⟩
  rintro p (rfl | hp)
  · refine ⟨_, Array.getElem?_push_size, [], rfl, ?_⟩
    simp
  · obtain ⟨a, ha, hpass⟩ := hw.member p hp
    refine ⟨a, ?_, hpass.mono (Set.subset_insert _ _)⟩
    rw [World.addPromise, Array.getElem?_push, if_neg, ha]
    exact Nat.ne_of_lt (Array.getElem?_eq_some_iff.mp ha).1

/-- An observer that passes failures on within a network can be registered in it. -/
lemma observe (hw : w.Network S) {ob : Observer P} (hp : p ∈ S) (hq : q ∈ S)
    (h : ob.PassesTo q) : (w.observe p ob).Network S := by
  obtain ⟨⟨segment?, observed, slot⟩, ha, rs, rfl, hpass⟩ := hw.member p hp
  rw [observe_unresolved ha]
  refine ⟨hw.idle, fun p' hp' => ?_⟩
  rw [putPromise, getElem?_putPromise _ ha]
  split
  · refine ⟨_, rfl, _, rfl, fun r hr => ?_⟩
    rcases List.mem_append.mp hr with hr | hr
    · exact hpass r hr
    · cases List.mem_singleton.mp hr
      exact ⟨q, hq, h⟩
  · exact hw.member p' hp'

end Network

end World

/-! ## Building networks -/

namespace Script

variable {α β : Type} {S : Set PromiseId}

/-- A script takes every network `S` to a network that depends on its answer. -/
def Connects (s : Script P α) (S : Set PromiseId) (T : α → Set PromiseId) : Prop :=
  ∀ w : World P, w.Network S → ∀ (k : α → Script P Unit) (rest : List (Activity P)),
    ∃ a w', Machine.Reaches ⟨w, .script (s.bind k) :: rest⟩ ⟨w', .script (k a) :: rest⟩ ∧
      w'.Network (T a)

lemma connects_pure (a : α) (T : α → Set PromiseId) : (pure a : Script P α).Connects (T a) T :=
  fun w hw _ _ => ⟨a, w, .refl _, hw⟩

lemma Connects.bind {s : Script P α} {f : α → Script P β} {T : α → Set PromiseId}
    {U : β → Set PromiseId} (hs : s.Connects S T) (hf : ∀ a, (f a).Connects (T a) U) :
    (s.bind f).Connects S U := by
  intro w hw k rest
  obtain ⟨a, w₁, hreach, hw₁⟩ := hs w hw (fun a => (f a).bind k) rest
  obtain ⟨b, w₂, hreach', hw₂⟩ := hf a w₁ hw₁ k rest
  refine ⟨b, w₂, ?_, hw₂⟩
  rw [bind_assoc]
  exact hreach.trans hreach'

lemma reaches_once {w w' : World P} {ρ : Type} {o : Op P ρ} {r : ρ}
    (performed : w.perform o = .answer r w') (k : ρ → Script P Unit) (rest : List (Activity P)) :
    Machine.Reaches ⟨w, .script ((once o).bind k) :: rest⟩ ⟨w', .script (k r) :: rest⟩ :=
  (Machine.Step.operate performed).reaches

/-- An operation that changes neither the promises nor the queue leaves a network as it is. -/
lemma connects_once {ρ : Type} {o : Op P ρ}
    (still : ∀ w : World P, ∃ r w', w.perform o = .answer r w' ∧ w'.promises = w.promises ∧
      w'.queue = w.queue) : (once o).Connects S fun _ => S := by
  intro w hw k rest
  obtain ⟨r, w', performed, promises, queue⟩ := still w
  exact ⟨r, w', reaches_once performed k rest, hw.congr promises queue⟩

lemma connects_create (S : Set PromiseId) :
    (create : Script P PromiseId).Connects S fun p => insert p S := by
  intro w hw k rest
  obtain ⟨promises, queue, -⟩ := World.capture_still w
  have performed : w.perform .create = .answer (w.capture.2.addPromise w.capture.1).1
      (w.capture.2.addPromise w.capture.1).2 := rfl
  exact ⟨_, _, reaches_once performed k rest,
    (hw.congr promises queue).addPromise w.capture.1⟩

lemma connects_observe {p q : PromiseId} {ob : Observer P} (hp : p ∈ S) (hq : q ∈ S)
    (h : ob.PassesTo q) : (observe p ob).Connects S fun _ => S := by
  intro w hw k rest
  have performed : w.perform (.observe p ob) = .answer () (w.observe p ob) := rfl
  exact ⟨(), _, reaches_once performed k rest, hw.observe hp hq h⟩

/-! ## The combinators -/

variable {p q : PromiseId} {ps : List PromiseId}

lemma connects_forward (hp : p ∈ S) (hq : q ∈ S) :
    (forward p q : Script P Unit).Connects S fun _ => S :=
  connects_observe hp hq (Observer.passesTo_onEither _ q)

lemma connects_forwardFailure (hp : p ∈ S) (hq : q ∈ S) :
    (forwardFailure p q : Script P Unit).Connects S fun _ => S :=
  connects_observe hp hq (Observer.passesTo_onFailure q)

/-- A new promise to which failures are passed on from the promises that a script observes. -/
lemma connects_result {s : PromiseId → Script P Unit}
    (hs : ∀ q, (s q).Connects (insert q S) fun _ => insert q S) :
    (create.bind fun q => (s q).bind fun _ => pure q).Connects S fun q => insert q S := by
  exact (connects_create S).bind fun q =>
    (hs q).bind fun _ => connects_pure q fun q => insert q S

lemma connects_andThen (hp : p ∈ S) (f : P.Value → Script P (Except P.Error P.Value)) :
    (andThen p f).Connects S fun q => insert q S :=
  connects_result fun q =>
    connects_observe (Or.inr hp) (Or.inl rfl) (Observer.passesTo_onEither _ q)

lemma connects_andThenLazily (hp : p ∈ S) (f : P.Value → Script P PromiseId) :
    (andThenLazily p f).Connects S fun q => insert q S :=
  connects_result fun q =>
    connects_observe (Or.inr hp) (Or.inl rfl) (Observer.passesTo_onEither _ q)

lemma connects_gatherEach (hq : q ∈ S) (g : GatheringId) (i : Nat) (hps : ∀ p ∈ ps, p ∈ S) :
    (gatherEach q g i ps : Script P Unit).Connects S fun _ => S := by
  induction ps generalizing i with
  | nil => exact connects_pure () fun _ => S
  | cons p ps ih =>
    have hrest := ih (i + 1) fun p' hp' => hps p' (.tail p hp')
    exact (connects_observe (hps p (.head ps)) hq (Observer.passesTo_onEither _ q)).bind
      fun _ => hrest

lemma connects_join (hne : ps ≠ []) (hps : ∀ p ∈ ps, p ∈ S) :
    (join ps : Script P PromiseId).Connects S fun q => insert q S := by
  obtain ⟨p, ps', rfl⟩ := List.exists_cons_of_ne_nil hne
  have hgather : ∀ q, (Script.bind (once (.openGathering (p :: ps').length)) fun g =>
      gatherEach q g 0 (p :: ps') : Script P Unit).Connects (insert q S) fun _ => insert q S := by
    intro q
    refine (connects_once fun w => ⟨⟨w.gatherings.size⟩,
      { w with gatherings := w.gatherings.push (.empty _) }, rfl, rfl, rfl⟩).bind fun g => ?_
    exact connects_gatherEach (Or.inl rfl) g 0 fun p' hp' => Or.inr (hps p' hp')
  exact connects_result hgather

lemma connects_joinPair (hp : p ∈ S) (hq : q ∈ S) :
    (joinPair p q : Script P PromiseId).Connects S fun r => insert r S := by
  have hcouple : ∀ r, (Script.bind (once .openPairing) fun g =>
      (observe p (.onEither (coupleInto r g .first) (passFailure r))).bind fun _ =>
        observe q (.onEither (coupleInto r g .second) (passFailure r)) :
      Script P Unit).Connects (insert r S) fun _ => insert r S := by
    intro r
    refine (connects_once fun w => ⟨⟨w.pairings.size⟩,
      { w with pairings := w.pairings.push {} }, rfl, rfl, rfl⟩).bind fun g => ?_
    refine (connects_observe (Or.inr hp) (Or.inl rfl) (Observer.passesTo_onEither _ r)).bind ?_
    exact fun _ => connects_observe (Or.inr hq) (Or.inl rfl) (Observer.passesTo_onEither _ r)
  exact connects_result hcouple

lemma connects_forwardEach (hq : q ∈ S) (hps : ∀ p ∈ ps, p ∈ S) :
    (forwardEach q ps : Script P Unit).Connects S fun _ => S := by
  induction ps with
  | nil => exact connects_pure () fun _ => S
  | cons p ps ih =>
    exact (connects_forward (hps p (.head ps)) hq).bind
      fun _ => ih fun p' hp' => hps p' (.tail p hp')

lemma connects_select (hps : ∀ p ∈ ps, p ∈ S) :
    (select ps : Script P PromiseId).Connects S fun q => insert q S :=
  connects_result fun _ =>
    connects_forwardEach (Or.inl rfl) fun p hp => Or.inr (hps p hp)

/-- A script only makes promises and connects them: with the promises of `S` it builds, depending on
its answer, those of `T`. -/
inductive Wires : {α : Type} → Set PromiseId → Script P α → (α → Set PromiseId) → Prop
  /-- Nothing more is done. -/
  | pure {α : Type} (a : α) (T : α → Set PromiseId) : Wires (T a) (pure a) T
  /-- One thing is done after the other. -/
  | bind {α β : Type} {S : Set PromiseId} {s : Script P α} {f : α → Script P β}
      {T : α → Set PromiseId} {U : β → Set PromiseId} (first : Wires S s T)
      (second : ∀ a, Wires (T a) (f a) U) : Wires S (s.bind f) U
  /-- A promise is made. -/
  | create {S : Set PromiseId} : Wires S create fun p => insert p S
  /-- A promise is settled as another one is. -/
  | forward {S : Set PromiseId} {p q : PromiseId} (hp : p ∈ S) (hq : q ∈ S) :
      Wires S (forward p q) fun _ => S
  /-- A promise fails if another one does. -/
  | forwardFailure {S : Set PromiseId} {p q : PromiseId} (hp : p ∈ S) (hq : q ∈ S) :
      Wires S (forwardFailure p q) fun _ => S
  /-- A promise is made for what a function makes of a value. -/
  | andThen {S : Set PromiseId} {p : PromiseId} (hp : p ∈ S)
      (f : P.Value → Script P (Except P.Error P.Value)) :
      Wires S (andThen p f) fun q => insert q S
  /-- A promise is made that follows the promise which a function makes of a value. -/
  | andThenLazily {S : Set PromiseId} {p : PromiseId} (hp : p ∈ S)
      (f : P.Value → Script P PromiseId) : Wires S (andThenLazily p f) fun q => insert q S
  /-- Promises are joined. -/
  | join {S : Set PromiseId} {ps : List PromiseId} (hne : ps ≠ []) (hps : ∀ p ∈ ps, p ∈ S) :
      Wires S (join ps) fun q => insert q S
  /-- Two promises are joined. -/
  | joinPair {S : Set PromiseId} {p q : PromiseId} (hp : p ∈ S) (hq : q ∈ S) :
      Wires S (joinPair p q) fun r => insert r S
  /-- The first of several promises is selected. -/
  | select {S : Set PromiseId} {ps : List PromiseId} (hps : ∀ p ∈ ps, p ∈ S) :
      Wires S (select ps) fun q => insert q S

/-- **Whatever is wired with the combinators is a network.** -/
theorem Wires.connects {s : Script P α} {T : α → Set PromiseId} (h : Wires S s T) :
    s.Connects S T := by
  induction h with
  | pure a T => exact connects_pure a T
  | bind _ _ ih ih' => exact ih.bind ih'
  | create => exact connects_create _
  | forward hp hq => exact connects_forward hp hq
  | forwardFailure hp hq => exact connects_forwardFailure hp hq
  | andThen hp f => exact connects_andThen hp f
  | andThenLazily hp f => exact connects_andThenLazily hp f
  | join hne hps => exact connects_join hne hps
  | joinPair hp hq => exact connects_joinPair hp hq
  | select hps => exact connects_select hps

/-- Failures may go round in circles: a promise fails if one that was made from it does. -/
example (p : PromiseId) (f : P.Value → Script P (Except P.Error P.Value)) :
    ((andThen p f).bind fun q => (forwardFailure q p).bind fun _ => pure q).Connects {p}
      fun q => insert q {p} :=
  Wires.connects (.bind (.andThen (Set.mem_singleton p) f) fun q =>
    .bind (.forwardFailure (Or.inl rfl) (Or.inr rfl)) fun _ => .pure q fun q => insert q {p})

end Script

end Eventual
