import Eventual.Proofs.Calls
import Eventual.Proofs.Joining
import Eventual.Proofs.Report
import Eventual.Proofs.Retrying

/-!
# Calls at the limit of the clock

Near the longest span an instant may be missing, and then an operation panics.  The operations
without a delay always return (`Script.Immediate`), and those with one panic exactly if the instant
after it is missing (`Script.Delayed`); they ask for it before they touch anything that was there.
A retry loop and an operation with a callback panic only through what they call inline
(`World.CallsInline`), and a drive through a task that it runs.
-/

namespace Eventual

open Machine

variable {P : Payload} {α β ρ : Type}

/-! ## What stays as it was -/

namespace World

variable {w w' w₁ : World P}

/-- The clock, the tasks that wait, and the promises that were there are the same. -/
structure Keeps (w w' : World P) : Prop where
  clock : w'.clock = w.clock
  waiting : w'.queue.waiting = w.queue.waiting
  promises : ∀ i < w.promises.size, w'.promises[i]? = w.promises[i]?

lemma Keeps.trans (h : w.Keeps w₁) (h' : w₁.Keeps w') : w.Keeps w' where
  clock := h'.clock.trans h.clock
  waiting := h'.waiting.trans h.waiting
  promises i hi := by
    have hbefore := h.promises i hi
    have hi₁ : i < w₁.promises.size := by
      rw [Array.getElem?_eq_getElem hi] at hbefore
      exact (Array.getElem?_eq_some_iff.mp hbefore).1
    rw [h'.promises i hi₁, hbefore]

lemma Keeps.of_eq (clock : w'.clock = w.clock) (queue : w'.queue.waiting = w.queue.waiting)
    (promises : w'.promises = w.promises) : w.Keeps w' :=
  ⟨clock, queue, fun _ _ => by rw [promises]⟩

lemma keeps_of_push {p : Promise P} (clock : w'.clock = w.clock) (queue : w'.queue = w.queue)
    (promises : w'.promises = w.promises.push p) : w.Keeps w' := by
  refine ⟨clock, by rw [queue], fun i hi => ?_⟩
  rw [promises, Array.getElem?_push, if_neg (Nat.ne_of_lt hi)]

end World

/-! ## Operations with and without a delay -/

/-- The operation asks for no instant. -/
def Op.Untimed : Op P ρ → Prop
  | schedule _ _ => False
  | _ => True

/-- The operation makes a promise or a report. -/
def Op.Prepares : Op P ρ → Prop
  | create | emit _ => True
  | _ => False

lemma World.exists_answer {o : Op P ρ} (h : o.Untimed) (w : World P) :
    ∃ r w', w.perform o = .answer r w' := by
  cases o with
  | schedule => exact h.elim
  | _ => exact ⟨_, _, rfl⟩

lemma World.keeps_of_prepares {o : Op P ρ} (h : o.Prepares) (w : World P) :
    ∃ r w', w.perform o = .answer r w' ∧ w.Keeps w' := by
  cases o with
  | create =>
    obtain ⟨w', segment?, performed, promises, clock, queue, -⟩ := w.perform_create
    exact ⟨_, w', performed, World.keeps_of_push clock queue promises⟩
  | emit e => exact ⟨_, _, rfl, .of_eq rfl rfl rfl⟩
  | _ => exact h.elim

namespace Script

/-- A script that carries out operations which ask for no instant, one after the other. -/
inductive Straight : {α : Type} → Script P α → Prop
  /-- Nothing is done. -/
  | pure {α : Type} (a : α) : Straight (pure a)
  /-- An operation is carried out. -/
  | op {ρ α : Type} {o : Op P ρ} {k : ρ → Script P α} (untimed : o.Untimed)
      (rest : ∀ r, Straight (k r)) : Straight (op o k)

/-- A script that schedules one task after a delay, and before that makes promises and reports
only. -/
inductive Timed (d : Duration) : {α : Type} → Script P α → Prop
  /-- A promise or a report is made. -/
  | prepare {ρ α : Type} {o : Op P ρ} {k : ρ → Script P α} (prepares : o.Prepares)
      (rest : ∀ r, Timed d (k r)) : Timed d (op o k)
  /-- The task is scheduled. -/
  | schedule {α : Type} (body : Script P Unit) {k : Unit → Script P α}
      (rest : ∀ r, Straight (k r)) : Timed d (op (.schedule d body) k)

variable {s : Script P α} {f : α → Script P β} {d : Duration}

lemma Straight.bind (hs : s.Straight) (hf : ∀ a, (f a).Straight) : (s.bind f).Straight := by
  induction hs with
  | pure a => exact hf a
  | op untimed _ ih => exact .op untimed fun r => ih r hf

lemma Timed.bind (hs : s.Timed d) (hf : ∀ a, (f a).Straight) : (s.bind f).Timed d := by
  induction hs with
  | prepare prepares _ ih => exact .prepare prepares fun r => ih r hf
  | schedule body rest => exact .schedule body fun r => (rest r).bind hf

lemma Straight.yields (h : s.Straight) (w : World P) : ∃ a w', w.Yields s a w' := by
  induction h generalizing w with
  | pure a => exact ⟨a, w, w.yields_pure a⟩
  | op untimed _ ih =>
    obtain ⟨r, w₁, performed⟩ := World.exists_answer untimed w
    obtain ⟨a, w', hyields⟩ := ih r w₁
    exact ⟨a, w', hyields.op performed⟩

lemma Timed.yields (h : s.Timed d) {w : World P} (hfits : ¬ w.Beyond d) :
    ∃ a w', w.Yields s a w' := by
  induction h generalizing w with
  | prepare prepares _ ih =>
    obtain ⟨r, w₁, performed, keeps⟩ := World.keeps_of_prepares prepares w
    obtain ⟨a, w', hyields⟩ := ih r (w := w₁) (by rwa [World.Beyond, keeps.clock])
    exact ⟨a, w', hyields.op performed⟩
  | schedule body rest =>
    obtain ⟨due, hdue⟩ := Option.ne_none_iff_exists'.mp (World.beyond_iff.not.mp hfits)
    obtain ⟨a, w', hyields⟩ :=
      (rest ()).yields { w with queue := w.queue.add due (.script body) }
    exact ⟨a, w', hyields.op (World.perform_schedule hdue body)⟩

/-- Such a script asks for its instant before it touches anything that was there. -/
lemma Timed.panics (h : s.Timed d) {w : World P} (hbeyond : w.Beyond d) :
    ∃ w', w.Panics s w' ∧ w.Keeps w' := by
  induction h generalizing w with
  | prepare prepares _ ih =>
    obtain ⟨r, w₁, performed, keeps⟩ := World.keeps_of_prepares prepares w
    obtain ⟨w', hpanics, keeps'⟩ := ih r (w := w₁) (by rwa [World.Beyond, keeps.clock])
    exact ⟨w', hpanics.op performed, keeps.trans keeps'⟩
  | schedule body rest =>
    exact ⟨_, fun f l => ⟨_, .refl _, .schedule hbeyond⟩, .of_eq rfl rfl rfl⟩

/-! ## The operations of the library -/

lemma straight_settle (p : PromiseId) (s : Settlement P.Value P.Error) {k : Script P α}
    (hk : k.Straight) : (op (.settle p s) fun _ => k).Straight :=
  .op trivial fun _ => hk

lemma straight_settleWith (p : PromiseId) (r : Except P.Error P.Value) :
    (settleWith p r).Straight := by
  cases r <;> exact straight_settle _ _ (.pure ())

lemma straight_gatherInto (result : PromiseId) (g : GatheringId) (i : Nat) (v : P.Value) :
    (gatherInto result g i v).Straight := by
  rw [gatherInto_eq]
  refine .op trivial fun complete => ?_
  cases complete with
  | none => exact .pure ()
  | some vs => exact straight_settle _ _ (.pure ())

lemma straight_coupleInto (result : PromiseId) (g : PairingId) (side : Side) (v : P.Value) :
    (coupleInto result g side v).Straight := by
  refine .op trivial fun complete => ?_
  cases complete with
  | none => exact .pure ()
  | some vs => exact straight_settle _ _ (.pure ())

lemma straight_gatherEach (result : PromiseId) (g : GatheringId) (i : Nat)
    (inputs : List PromiseId) : (gatherEach result g i inputs : Script P Unit).Straight := by
  induction inputs generalizing i with
  | nil => exact .pure ()
  | cons p ps ih => exact .op trivial fun _ => ih (i + 1)

lemma straight_forwardEach (target : PromiseId) (inputs : List PromiseId) :
    (forwardEach target inputs : Script P Unit).Straight := by
  induction inputs with
  | nil => exact .pure ()
  | cons p ps ih => exact .op trivial fun _ => ih

lemma straight_join (inputs : List PromiseId) : (join inputs : Script P PromiseId).Straight := by
  refine .op trivial fun result => ?_
  cases inputs with
  | nil => exact straight_settle _ _ (.pure result)
  | cons p ps =>
    exact .op trivial fun g => (straight_gatherEach result g 0 (p :: ps)).bind fun _ => .pure result

lemma straight_select (inputs : List PromiseId) :
    (select inputs : Script P PromiseId).Straight :=
  .op trivial fun result => (straight_forwardEach result inputs).bind fun _ => .pure result

/-- A task is scheduled for a new promise. -/
lemma timed_later (d : Duration) (body : PromiseId → Script P Unit) :
    (create.bind fun result => (later d (body result)).bind fun _ => pure result).Timed d :=
  .prepare trivial fun result => .prepare trivial fun _ =>
    .schedule (body result) fun _ => .pure result

/-- Operations of the library that are called without a delay, and the callbacks that its
combinators register. -/
inductive Immediate : {α : Type} → Script P α → Prop
  | create : Immediate create
  | fulfill (p : PromiseId) (v : P.Value) : Immediate (fulfill p v)
  | fail (p : PromiseId) (e : P.Error) : Immediate (fail p e)
  | failBecause (p : PromiseId) (e : P.Error) (cause : Trace P.Error) :
      Immediate (failBecause p e cause)
  | observe (p : PromiseId) (ob : Observer P) : Immediate (observe p ob)
  | view (p : PromiseId) : Immediate (view p)
  | now : Immediate now
  | pending : Immediate pending
  | ofValue (v : P.Value) : Immediate (ofValue v)
  | ofError (e : P.Error) : Immediate (ofError e)
  | forward (source target : PromiseId) : Immediate (forward source target)
  | forwardValue (source target : PromiseId) : Immediate (forwardValue source target)
  | forwardFailure (source target : PromiseId) : Immediate (forwardFailure source target)
  | andThen (source : PromiseId) (f : P.Value → Script P (Except P.Error P.Value)) :
      Immediate (andThen source f)
  | andThenLazily (source : PromiseId) (f : P.Value → Script P PromiseId) :
      Immediate (andThenLazily source f)
  | join (inputs : List PromiseId) : Immediate (join inputs)
  | joinPair (first second : PromiseId) : Immediate (joinPair first second)
  | select (inputs : List PromiseId) : Immediate (select inputs)
  | elapsed (input : PromiseId) : Immediate (elapsed input)
  | deferLazily (thunk : Script P PromiseId) : Immediate (deferLazily thunk)
  | settleWith (p : PromiseId) (r : Except P.Error P.Value) : Immediate (settleWith p r)
  | passValue (p : PromiseId) (v : P.Value) : Immediate (passValue p v)
  | passFailure (p : PromiseId) (t : Trace P.Error) : Immediate (passFailure p t)
  | gatherInto (result : PromiseId) (g : GatheringId) (i : Nat) (v : P.Value) :
      Immediate (gatherInto result g i v)
  | coupleInto (result : PromiseId) (g : PairingId) (side : Side) (v : P.Value) :
      Immediate (coupleInto result g side v)
  | fulfillSince (result : PromiseId) (start : Duration) : Immediate (fulfillSince result start)

/-- Operations of the library that are called with a delay. -/
inductive Delayed (d : Duration) : {α : Type} → Script P α → Prop
  | schedule (body : Script P Unit) : Delayed d (schedule d body)
  | later (body : Script P Unit) : Delayed d (later d body)
  | defer (thunk : Script P (Except P.Error P.Value)) : Delayed d (defer d thunk)
  | fulfillAfter (v : P.Value) : Delayed d (fulfillAfter v d)
  | failAfter (e : P.Error) : Delayed d (failAfter e d)
  | withTimeout (input : PromiseId) : Delayed d (withTimeout input d)

lemma Delayed.timed (h : s.Delayed d) : s.Timed d := by
  cases h with
  | schedule body => exact .schedule body .pure
  | later body => exact .prepare trivial fun _ => .schedule body .pure
  | defer thunk => exact timed_later d fun result => thunk.bind (settleWith result)
  | fulfillAfter v => exact timed_later d fun result => passValue result v
  | failAfter e => exact timed_later d fun result => settleWith result (.error e)
  | withTimeout input =>
    have htrigger := timed_later d fun result => settleWith result (.error (P.timeout d))
    exact htrigger.bind fun trigger => straight_select [input, trigger]

lemma Immediate.straight_or_timed (h : s.Immediate) : s.Straight ∨ s.Timed .zero := by
  cases h with
  | deferLazily thunk =>
    exact .inr (timed_later .zero fun result => thunk.bind fun p => Script.forward p result)
  | create | fulfill | fail | failBecause | observe | view | now | pending | forward | forwardValue
  | forwardFailure =>
    left
    exact .op trivial .pure
  | ofValue | ofError =>
    left
    exact .op trivial fun result => .op trivial fun _ => .pure result
  | andThen | andThenLazily =>
    left
    exact .op trivial fun result => .op trivial fun _ => .pure result
  | join inputs => exact .inl (straight_join inputs)
  | joinPair =>
    left
    exact .op trivial fun result => .op trivial fun _ => .op trivial fun _ => .op trivial fun _ =>
      .pure result
  | select inputs => exact .inl (straight_select inputs)
  | elapsed =>
    left
    exact .op trivial fun result => .op trivial fun _ => .op trivial fun _ => .pure result
  | settleWith p r => exact .inl (straight_settleWith p r)
  | passValue | passFailure =>
    left
    exact .op trivial fun _ => .pure ()
  | gatherInto result g i v => exact .inl (straight_gatherInto result g i v)
  | coupleInto result g side v => exact .inl (straight_coupleInto result g side v)
  | fulfillSince =>
    left
    exact .op trivial fun _ => .op trivial fun _ => .pure ()

/-- **Without a delay an operation returns.** -/
lemma Immediate.yields (h : s.Immediate) (w : World P) : ∃ a w', w.Yields s a w' := by
  rcases h.straight_or_timed with hstraight | htimed
  · exact hstraight.yields w
  · exact htimed.yields w.not_beyond_zero

end Script

/-! ## Drives -/

namespace World

/-- A drive call panics in a task that it runs, whoever made the call. -/
def PanicsInTask (w : World P) (d : Drive) (w' : World P) : Prop :=
  ∃ hor w₁ l ran, d.horizon? w.clock = some hor ∧
    (∀ k rest, Reaches ⟨w, .drive hor 0 k :: rest⟩ ⟨w₁, l ++ .drive hor ran k :: rest⟩) ∧
    Exceeds ⟨w₁, l⟩ w'

variable {w w' w₀ : World P} {d : Drive}

/-- A drive is in progress until it is over. -/
lemma comes_of_drive {hor : Horizon} {c : Call P Nat}
    (h : Call.Comes ⟨w, [], .drive hor 0 .pure⟩ c) :
    (∃ ran, c.frame = .drive hor ran .pure) ∨
      ∃ ran, c.above = [] ∧ c.frame = .script (.pure ran) := by
  induction h with
  | refl => exact .inl ⟨0, rfl⟩
  | tail _ hnext ih =>
    rcases ih with ⟨ran, hframe⟩ | ⟨ran, habove, hframe⟩
    · cases hnext with
      | above step => exact .inl ⟨ran, hframe⟩
      | start taken =>
        cases hframe
        exact .inl ⟨ran + 1, rfl⟩
      | driven nothing =>
        cases hframe
        exact .inr ⟨ran, rfl, rfl⟩
      | operate | drive | attempt => cases hframe
    · cases hnext with
      | above step => cases habove
      | operate | drive | attempt | start | driven => cases hframe

/-- **A drive call panics if it drives the clock beyond the longest span, and then before it runs a
task, and otherwise only in a task.** -/
lemma panics_drive_iff :
    w.Panics (.drive d .pure) w' ↔
      (∃ span, d = .advance span ∧ w.Beyond span ∧ w' = w) ∨ w.PanicsInTask d w' := by
  constructor
  · intro h
    obtain ⟨c, hcomes, hexceeds⟩ := h.exists_comes
    rcases hcomes.cases_head with rfl | ⟨_, hnext, hcomes⟩
    · cases hexceeds (fun _ => .pure ()) [] with
      | advance beyond => exact .inl ⟨_, rfl, beyond, rfl⟩
    · cases hnext with
      | @drive _ _ hor _ horizon =>
        obtain ⟨w₁, l, φ⟩ := c
        -- a drive that is over has an answer, and the drive itself lacks nothing
        have hend := hexceeds (fun _ => .pure ()) []
        rcases comes_of_drive hcomes with ⟨ran, rfl⟩ | ⟨ran, rfl, rfl⟩
        · cases l with
          | nil => cases hend
          | cons x l =>
            exact .inr ⟨hor, w₁, x :: l, ran, horizon, Call.Comes.reaches hcomes, hend.above l⟩
        · cases hend
  · rintro (⟨span, rfl, beyond, rfl⟩ | ⟨hor, w₁, l, ran, horizon, hreach, hexceeds⟩) f rest
    · exact ⟨_, .refl _, .advance beyond⟩
    · cases l with
      | nil => cases hexceeds
      | cons x l =>
        exact ⟨_, (Step.drive horizon).reaches.trans (hreach f rest), hexceeds.above _⟩

end World

/-! ## Scripts that are called inline -/

namespace World

/-- The call of a script that gives the answer `a` if it yields one, and panics, only through
another script that it calls inline, in the world `w₀`. -/
structure CallsInline (w : World P) (s : Script P α) (a : α) (w₀ : World P) (t : Script P β) :
    Prop where
  yields : ∀ b w₁, w₀.Yields t b w₁ → ∃ w', w.Yields s a w'
  panics : ∀ w', w.Panics s w' ↔ w₀.Panics t w'

variable {w w₀ : World P} {s : Script P α} {a : α} {t : Script P β}

/-- A script calls another one inline if it comes to its call, and back once there is an answer. -/
lemma callsInline_of_reaches {g : (α → Script P Unit) → β → Script P Unit}
    {l : (α → Script P Unit) → List (Activity P) → List (Activity P)}
    (reach : ∀ f rest, (w.calling s f rest).Reaches (w₀.calling t (g f) (l f rest)))
    (back : ∀ b w₁, ∃ w', ∀ f rest,
      Reaches ⟨w₁, .script (g f b) :: l f rest⟩ ⟨w', .script (f a) :: rest⟩) :
    w.CallsInline s a w₀ t := by
  have hyields : ∀ b w₁, w₀.Yields t b w₁ → ∃ w', w.Yields s a w' := by
    intro b w₁ hyields
    obtain ⟨w', hback⟩ := back b w₁
    exact ⟨w', fun f rest =>
      ((reach f rest).trans (hyields (g f) (l f rest))).trans (hback f rest)⟩
  have hpanics : ∀ w', w₀.Panics t w' → w.Panics s w' := by
    intro w' hpanics f rest
    obtain ⟨m, hm, hexceeds⟩ := hpanics (g f) (l f rest)
    exact ⟨m, (reach f rest).trans hm, hexceeds⟩
  refine ⟨hyields, fun w' => ⟨fun h => ?_, hpanics w'⟩⟩
  rcases w₀.yields_or_panics_or_forever t with ⟨b, w₁, hb⟩ | ⟨w₁, hw₁⟩ | hforever
  · obtain ⟨w₂, hw₂⟩ := hyields b w₁ hb
    exact absurd h hw₂.not_panics
  · obtain rfl := h.unique (hpanics w₁ hw₁)
    exact hw₁
  · -- the place where `s` panics is within the run of `t`
    obtain ⟨m, hm, hexceeds⟩ := h (fun _ => .pure ()) []
    rcases (reach _ []).total hm with hm | hm
    · obtain ⟨m', hstep⟩ := hforever _ _ m hm
      exact absurd hstep hexceeds.not_step
    · rcases hm.eq_or_step with rfl | ⟨m', hstep, -⟩
      · obtain ⟨m', hstep⟩ := hforever _ _ _ (.refl _)
        exact absurd hstep hexceeds.not_step
      · exact absurd hstep hexceeds.not_step

end World

namespace Script

/-- What is done with the answer of an operation that takes a callback. -/
def answered (result : PromiseId) : Except P.Error Unit → Script P PromiseId
  | .ok () => .pure result
  | .error e => .op (.settle result (.failed e none)) fun _ => .pure result

lemma fromCallback_bind (operation : Callback → Script P (Except P.Error Unit))
    (f : PromiseId → Script P α) : (fromCallback operation).bind f =
      .op .create fun result => (operation ⟨result⟩).bind fun r => (answered result r).bind f := by
  refine congrArg (op .create) (funext fun result => ?_)
  refine (bind_assoc _ f (operation ⟨result⟩)).trans ?_
  refine congrArg (Script.bind (operation ⟨result⟩)) (funext fun r => ?_)
  cases r <;> rfl

end Script

namespace World

/-- A retry loop calls its thunk for the first attempt. -/
lemma callsInline_keepTrying (w : World P) (thunk : Nat → Script P PromiseId) (interval : Duration)
    (onError : Trace P.Error → Script P Unit) :
    ∃ w₀, w.Keeps w₀ ∧ w.CallsInline (.keepTrying thunk interval onError) ⟨w.promises.size⟩ w₀
      (thunk 0) := by
  obtain ⟨w₁, segment?, performed, promises, clock, queue, -, -, retries⟩ := w.perform_create
  let t : Retry P := ⟨⟨w.promises.size⟩, interval, thunk, onError, 0⟩
  let w₂ : World P := { w₁ with retries := w₁.retries.push t }
  have hopen : w₁.perform (.openRetry ⟨w.promises.size⟩ interval thunk onError) =
      .answer ⟨w₁.retries.size⟩ w₂ := rfl
  have hattempt : w₂.nextAttempt ⟨w₁.retries.size⟩ = .op (.view ⟨w.promises.size⟩) fun v =>
      if v.isSettled then .op (.emit (.retryAbandoned 0)) .pure
      else t.trial ⟨w₁.retries.size⟩ 0 := by
    have hloop : w₂.retries[w₁.retries.size]? = some t := by simp [w₂]
    rw [nextAttempt, hloop]
    exact t.nextAttempt_eq ⟨w₁.retries.size⟩ 0
  have hview : w₂.view ⟨w.promises.size⟩ = ⟨segment?, none⟩ := by
    simp [view, w₂, promises, Promise.view]
  refine ⟨w₂.countAttempt ⟨w₁.retries.size⟩, keeps_of_push clock queue promises, ?_⟩
  refine callsInline_of_reaches (g := fun _ => t.await ⟨w₁.retries.size⟩ 0)
    (l := fun f rest => .script (f ⟨w.promises.size⟩) :: rest) (fun f rest => ?_) fun p w' => ?_
  · -- make the result and the loop, and begin the attempt
    refine (Step.operate performed).reaches.trans ?_
    refine (Step.operate hopen).reaches.trans ?_
    refine Step.attempt.reaches.trans ?_
    rw [hattempt]
    refine (Step.operate rfl).reaches.trans ?_
    rw [hview]
    exact (Step.operate rfl).reaches
  · exact ⟨_, fun f rest => (Step.operate rfl).reaches.trans Step.finish.reaches⟩

/-- An operation that takes a callback is called with it. -/
lemma callsInline_fromCallback (w : World P)
    (operation : Script.Callback → Script P (Except P.Error Unit)) :
    ∃ w₀, w.Keeps w₀ ∧ w.CallsInline (.fromCallback operation) ⟨w.promises.size⟩ w₀
      (operation ⟨⟨w.promises.size⟩⟩) := by
  obtain ⟨w₀, segment?, performed, promises, clock, queue, -⟩ := w.perform_create
  refine ⟨w₀, keeps_of_push clock queue promises, ?_⟩
  refine callsInline_of_reaches (g := fun f r => (Script.answered ⟨w.promises.size⟩ r).bind f)
    (l := fun _ rest => rest) (fun f rest => ?_) fun r w' => ?_
  · rw [calling, Script.fromCallback_bind]
    exact (Step.operate performed).reaches
  · cases r with
    | ok => exact ⟨w', fun f rest => .refl _⟩
    | error e =>
      have hfail : w'.Yields (Script.answered ⟨w.promises.size⟩ (.error e)) ⟨w.promises.size⟩
          (w'.settle ⟨w.promises.size⟩ (.failed e none)).2 :=
        (yields_pure _ _).op rfl
      exact ⟨_, hfail⟩

end World

/-- **An operation panics only if it needs an instant beyond the longest span.**  A run stops for
want of an instant where its innermost script schedules a task or drives the clock beyond the
longest span, and nowhere else; a delivery by itself never stops it.  In every world, an operation
without a delay yields its answer when it is called, and so do the callbacks that combinators
register.  An operation with a delay panics if the instant after the delay lies beyond the longest
span, and otherwise yields its answer; when it panics, the clock, the tasks that wait and the
promises that were there are the same.  A drive call panics before it runs a task, if it drives the
clock forward beyond the longest span, and then nothing has changed; or else it panics in a task
that it runs.  A retry loop and an operation with a callback panic only through the thunk and the
operation that they call inline, and until then nothing that was there is touched.  In a composed
program a value that is put into the gathering of a join gets a place that is there and empty, and
the count of empty places is not zero.  No list is cut at a place that it does not have when a trace
is shown. -/
theorem panics_only_beyond_limit :
    (∀ (m : Machine P) (w' : World P), m.step = .overflow w' ↔ m.Exceeds w') ∧
    (∀ {α : Type} {s : Script P α}, s.Immediate → ∀ w : World P, ∃ a w', w.Yields s a w') ∧
    (∀ {α : Type} {s : Script P α} {d : Duration}, s.Delayed d → ∀ w : World P,
      ((∃ w', w.Panics s w') ↔ w.Beyond d) ∧ ((∃ a w', w.Yields s a w') ↔ ¬ w.Beyond d) ∧
        ∀ w', w.Panics s w' → w.Keeps w') ∧
    (∀ (d : Drive) (w w' : World P), w.Panics (.drive d .pure) w' ↔
      (∃ span, d = .advance span ∧ w.Beyond span ∧ w' = w) ∨ w.PanicsInTask d w') ∧
    (∀ (thunk : Nat → Script P PromiseId) (interval : Duration)
        (onError : Trace P.Error → Script P Unit) (w : World P), ∃ w₀, w.Keeps w₀ ∧
      w.CallsInline (.keepTrying thunk interval onError) ⟨w.promises.size⟩ w₀ (thunk 0)) ∧
    (∀ (operation : Script.Callback → Script P (Except P.Error Unit)) (w : World P),
      ∃ w₀, w.Keeps w₀ ∧ w.CallsInline (.fromCallback operation) ⟨w.promises.size⟩ w₀
        (operation ⟨⟨w.promises.size⟩⟩)) ∧
    (∀ (prog : Program P) (a : Nat) (w : World P) (inputs : List PromiseId)
        (k : PromiseId → Script P Unit) (rest : List (Activity P)), prog.main.Composed True →
      prog.moment a = some ⟨w, .script ((Script.join inputs).bind k) :: rest⟩ →
      inputs ≠ [] → (∀ p ∈ inputs, p.index < w.promises.size) →
      ∀ j m i v, prog.moment j = some m → m.Gathers ⟨w.gatherings.size⟩ i v →
        ∃ γ, m.world.gatherings[w.gatherings.size]? = some γ ∧ γ.values[i]? = some none ∧
          0 < γ.remaining) ∧
    ∀ {E : Type} (text : E → String) (t : Trace E), t.render? text = some (t.render text) := by
  refine ⟨fun _ _ => step_eq_overflow_iff, fun himmediate w => himmediate.yields w, ?_,
    fun _ _ _ => World.panics_drive_iff,
    fun thunk interval onError w => w.callsInline_keepTrying thunk interval onError,
    fun operation w => w.callsInline_fromCallback operation,
    fun prog a w inputs k rest composed ha hne exist j m i v hm hgathers =>
      Program.gathers_in_place composed ha hne exist hm hgathers, fun text t => ?_⟩
  · intro α s d hdelayed w
    have htimed := hdelayed.timed
    by_cases hbeyond : w.Beyond d
    · obtain ⟨w', hpanics, hkeeps⟩ := htimed.panics hbeyond
      refine ⟨iff_of_true ⟨w', hpanics⟩ hbeyond, iff_of_false ?_ (not_not_intro hbeyond), ?_⟩
      · rintro ⟨a, w₁, hyields⟩
        exact hyields.not_panics hpanics
      · intro w₁ hpanics₁
        obtain rfl := hpanics.unique hpanics₁
        exact hkeeps
    · obtain ⟨a, w', hyields⟩ := htimed.yields hbeyond
      refine ⟨iff_of_false ?_ hbeyond, iff_of_true ⟨a, w', hyields⟩ hbeyond, ?_⟩
      · rintro ⟨w₁, hpanics⟩
        exact hyields.not_panics hpanics
      · intro w₁ hpanics
        exact absurd hpanics hyields.not_panics
  · simp [Trace.render?, Trace.render, Trace.blocks?_eq]

/-- A program that drives its clock to the longest span.  Then it joins two promises and fulfills
the first one, and at last it races the second one against a time limit. -/
def atTheLimit : Program Session.Play where
  settings := .withoutTraces
  walks _ := []
  internal := []
  store := {}
  main := do
    discard (Script.advance .longest)
    let p ← Script.create
    let q ← Script.create
    let _ ← Script.join [p, q]
    discard (Script.fulfill p (.value .null))
    discard Script.runUntilIdle
    discard (Script.withTimeout q (.millis 1))

lemma composed_atTheLimit : atTheLimit.main.Composed True := by
  have hdrive : ∀ d, (Script.bind (Script.drive d Script.pure) fun _ => Script.pure () :
      Script Session.Play Unit).Composed True :=
    fun d => .bind (.drive d fun n => .pure n) fun _ => .pure ()
  refine .bind (hdrive (.advance .longest)) fun _ => ?_
  refine .bind (.once trivial) fun p => .bind (.once trivial) fun q => ?_
  refine .bind (.join [p, q]) fun _ => ?_
  refine .bind (.bind (.once trivial) fun _ => .pure ()) fun _ => ?_
  refine .bind (hdrive .idle) fun _ => ?_
  exact .bind (.withTimeout q (.millis 1)) fun _ => .pure ()

/-- At the longest span the first value of the join in `atTheLimit` gets its place, no promise can
be raced against a time limit any more, and every promise can still be fulfilled. -/
theorem panics_only_beyond_limit_atTheLimit :
    (∃ m γ, atTheLimit.moment 12 = some m ∧ m.Gathers ⟨0⟩ 0 (.value .null) ∧
      m.world.gatherings[0]? = some γ ∧ γ.values[0]? = some none ∧ 0 < γ.remaining) ∧
    ∃ m w' a w₁, atTheLimit.moment 16 = some m ∧
      m.world.Panics (.withTimeout ⟨1⟩ (.millis 1)) w' ∧ m.world.Keeps w' ∧
      m.world.Yields (.fulfill ⟨1⟩ (.value .null)) a w₁ := by
  obtain ⟨-, himmediate, hdelayed, -, -, -, hgathers, -⟩ :=
    panics_only_beyond_limit (P := Session.Play)
  constructor
  · obtain ⟨w, k, rest, ha, hsize, hplaces⟩ : ∃ w k rest,
        atTheLimit.moment 4 = some ⟨w, .script ((Script.join [⟨0⟩, ⟨1⟩]).bind k) :: rest⟩ ∧
          w.promises.size = 2 ∧ w.gatherings.size = 0 := ⟨_, _, _, rfl, rfl, rfl⟩
    obtain ⟨m, hm, hput⟩ : ∃ m, atTheLimit.moment 12 = some m ∧ m.Gathers ⟨0⟩ 0 (.value .null) :=
      ⟨_, rfl, _, _, rfl⟩
    have hgathers := hgathers atTheLimit 4 w [⟨0⟩, ⟨1⟩] k rest composed_atTheLimit ha (by simp)
      (by simp [hsize])
    rw [hplaces] at hgathers
    obtain ⟨γ, hγ, hplace, hcount⟩ := hgathers 12 m 0 _ hm hput
    exact ⟨m, γ, hm, hput, hγ, hplace, hcount⟩
  · obtain ⟨m, hm, hclock⟩ : ∃ m, atTheLimit.moment 16 = some m ∧ m.world.clock = .longest :=
      ⟨_, rfl, rfl⟩
    have hbeyond : m.world.Beyond (.millis 1) := by
      rw [World.Beyond, hclock]
      decide
    obtain ⟨hpanics, -, hkeeps⟩ := hdelayed (.withTimeout (d := .millis 1) ⟨1⟩) m.world
    obtain ⟨w', hw'⟩ := hpanics.mpr hbeyond
    obtain ⟨a, w₁, hyields⟩ := himmediate
      (Script.Immediate.fulfill (P := Session.Play) ⟨1⟩ (.value .null)) m.world
    exact ⟨m, w', a, w₁, hm, hw', hkeeps w' hw', hyields⟩

end Eventual
