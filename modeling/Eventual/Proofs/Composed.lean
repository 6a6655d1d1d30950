import Eventual.Combinator.Join
import Eventual.Proofs.Scope

/-!
# Scripts composed of what the library offers

A program does not reach into buffers and retry loops: they are made and used by the combinators
only. `Script.Composed` describes the scripts that are written with the operations open to programs
and with the combinators; on demand it leaves out settlements for which the program itself gives a
cause.  A composed script is confined to every scope that admits its own settlements
(`Script.Composed.confinedTo`): what it does with buffers and loops it does with those that it is
told of.
-/

namespace Eventual

variable {P : Payload}

/-- A settlement comes with a cause only if causes may be given. -/
def Settlement.Plain {V E : Type} (causes : Prop) : Settlement V E → Prop
  | failed _ (some _) => causes
  | _ => True

/-- An operation is open to programs and hands nothing over. -/
def Op.Plain (causes : Prop) : {ρ : Type} → Op P ρ → Prop
  | _, settle _ s => s.Plain causes
  | _, observe _ _ | _, schedule _ _ => False
  | _, openGathering _ | _, gather _ _ _ | _, openPairing | _, couple _ _ _ => False
  | _, openRetry _ _ _ _ | _, countAttempt _ => False
  | _, _ => True

namespace Script

/-- A script is written with the operations open to programs and with the combinators, and gives a
cause for a failure itself only if that is allowed. -/
inductive Composed (causes : Prop) : {α : Type} → Script P α → Prop
  /-- Nothing is done. -/
  | pure {α : Type} (a : α) : Composed causes (pure a)
  /-- One thing is done after the other. -/
  | bind {α β : Type} {s : Script P α} {f : α → Script P β} (first : Composed causes s)
      (second : ∀ a, Composed causes (f a)) : Composed causes (s.bind f)
  /-- An operation is carried out. -/
  | once {ρ : Type} {o : Op P ρ} (plain : o.Plain causes) : Composed causes (once o)
  /-- An observer is registered. -/
  | observe (p : PromiseId) {ob : Observer P}
      (callbacks : ∀ o body, ob.handler? o = some body → Composed causes body) :
      Composed causes (observe p ob)
  /-- A task is scheduled. -/
  | schedule (delay : Duration) {body : Script P Unit} (task : Composed causes body) :
      Composed causes (schedule delay body)
  /-- The clock is driven. -/
  | drive {α : Type} (d : Drive) {k : Nat → Script P α} (rest : ∀ n, Composed causes (k n)) :
      Composed causes (drive d k)
  /-- A promise is settled as another one is. -/
  | forward (source target : PromiseId) : Composed causes (forward source target)
  /-- A promise fails if another one does. -/
  | forwardFailure (source target : PromiseId) : Composed causes (forwardFailure source target)
  /-- A promise is made for what a function makes of a value. -/
  | andThen (source : PromiseId) {f : P.Value → Script P (Except P.Error P.Value)}
      (callback : ∀ v, Composed causes (f v)) : Composed causes (andThen source f)
  /-- A promise is made that follows the promise which a function makes of a value. -/
  | andThenLazily (source : PromiseId) {f : P.Value → Script P PromiseId}
      (callback : ∀ v, Composed causes (f v)) : Composed causes (andThenLazily source f)
  /-- Promises are joined. -/
  | join (inputs : List PromiseId) : Composed causes (join inputs)
  /-- Two promises are joined. -/
  | joinPair (first second : PromiseId) : Composed causes (joinPair first second)
  /-- The first of several promises is selected. -/
  | select (inputs : List PromiseId) : Composed causes (select inputs)
  /-- A promise is raced against a time limit. -/
  | withTimeout (input : PromiseId) (limit : Duration) : Composed causes (withTimeout input limit)
  /-- A promise is made that follows the one which a script gives on the next turn. -/
  | deferLazily {thunk : Script P PromiseId} (task : Composed causes thunk) :
      Composed causes (deferLazily thunk)
  /-- A retry loop is started. -/
  | keepTrying {thunk : Nat → Script P PromiseId} (interval : Duration)
      {onError : Trace P.Error → Script P Unit} (attempts : ∀ n, Composed causes (thunk n))
      (callback : ∀ t, Composed causes (onError t)) :
      Composed causes (keepTrying thunk interval onError)

/-! ## Composed scripts are confined -/

variable {S : Scope P} {causes : Prop}

/-- What a program may do by itself stays within a scope that admits its settlements. -/
lemma confinedTo_plain {ρ : Type} {o : Op P ρ} (plain : o.Plain causes)
    (admitted : ∀ s : Settlement P.Value P.Error, s.Plain causes → S.settlement s) :
    (once o).ConfinedTo S := by
  cases o with
  | settle p s => exact confinedTo_settle p (admitted s plain)
  | observe | schedule | openGathering | gather | openPairing | couple | openRetry
  | countAttempt => exact plain.elim
  | create | createUnder | view | now | pending | settings | emit | note | load | save =>
    exact confinedTo_once trivial (fun _ h => h) fun _ h => h

lemma confinedTo_create : (create : Script P PromiseId).ConfinedTo S :=
  confinedTo_once trivial (fun _ h => h) fun _ h => h

lemma confinedTo_settleWith (p : PromiseId) (r : Except P.Error P.Value)
    (admitted : ∀ e, S.settlement (.failed e none)) : (settleWith p r).ConfinedTo S := by
  cases r with
  | ok v => exact confinedTo_passValue p v
  | error e => exact (confinedTo_settle p (admitted e)).bind fun _ => .pure ()

lemma confinedTo_forward (source target : PromiseId) :
    (forward source target : Script P Unit).ConfinedTo S :=
  confinedTo_observe source
    (Observer.confinedTo_onEither (confinedTo_passValue target)
      fun _ => confinedTo_passFailure target)

lemma confinedTo_forwardFailure (source target : PromiseId) :
    (forwardFailure source target : Script P Unit).ConfinedTo S := by
  refine confinedTo_observe source ?_
  rintro (v | t) body handler told
  · cases handler
  · cases handler
    exact confinedTo_passFailure target (told t rfl)

/-- A new promise that fails as another one does. -/
lemma confinedTo_result {source : PromiseId} {f : PromiseId → P.Value → Script P Unit}
    (hf : ∀ result v, (f result v).ConfinedTo S) :
    (create.bind fun result =>
      (observe source (.onEither (f result) (passFailure result))).bind fun _ =>
        pure result).ConfinedTo S :=
  confinedTo_create.bind fun result =>
    (confinedTo_observe source (Observer.confinedTo_onEither (hf result) fun _ =>
      confinedTo_passFailure result)).bind fun _ => .pure result

lemma confinedTo_gatherInto (result : PromiseId) {g : GatheringId} (hg : S.gathering g) (i : Nat)
    (v : P.Value) : (gatherInto result g i v).ConfinedTo S := by
  have hput : (once (.gather g i v)).ConfinedTo S :=
    confinedTo_once hg (fun _ h => h) fun _ h => h
  refine hput.bind fun complete => ?_
  cases complete with
  | none => exact .pure ()
  | some vs => exact confinedTo_passValue result (P.list vs)

lemma confinedTo_gatherEach (result : PromiseId) {g : GatheringId} (hg : S.gathering g) (i : Nat)
    (inputs : List PromiseId) : (gatherEach result g i inputs : Script P Unit).ConfinedTo S := by
  induction inputs generalizing i with
  | nil => exact .pure ()
  | cons p ps ih =>
    exact (confinedTo_observe p (Observer.confinedTo_onEither
      (confinedTo_gatherInto result hg i) fun _ => confinedTo_passFailure result)).bind
        fun _ => ih (i + 1)

lemma confinedTo_join (inputs : List PromiseId) :
    (join inputs : Script P PromiseId).ConfinedTo S := by
  refine confinedTo_create.bind fun result => ?_
  cases inputs with
  | nil => exact (confinedTo_passValue result (P.list [])).bind fun _ => .pure result
  | cons p ps =>
    have hopen : (Script.bind (once (.openGathering (p :: ps).length)) fun g =>
        gatherEach result g 0 (p :: ps) : Script P Unit).ConfinedTo S :=
      .op trivial (fun _ h => h.elim) (fun _ h => h.elim) fun g hg =>
        confinedTo_gatherEach result hg 0 (p :: ps)
    exact hopen.bind fun _ => .pure result

lemma confinedTo_coupleInto (result : PromiseId) {g : PairingId} (hg : S.pairing g) (side : Side)
    (v : P.Value) : (coupleInto result g side v).ConfinedTo S := by
  have hput : (once (.couple g side v)).ConfinedTo S :=
    confinedTo_once hg (fun _ h => h) fun _ h => h
  refine hput.bind fun complete => ?_
  cases complete with
  | none => exact .pure ()
  | some vs => exact confinedTo_passValue result (P.pair vs.1 vs.2)

lemma confinedTo_joinPair (first second : PromiseId) :
    (joinPair first second : Script P PromiseId).ConfinedTo S := by
  have hcouple : ∀ (result : PromiseId) {g : PairingId}, S.pairing g → ∀ p side,
      (observe p (.onEither (coupleInto result g side) (passFailure result))).ConfinedTo S := by
    intro result g hg p side
    exact confinedTo_observe p (Observer.confinedTo_onEither (confinedTo_coupleInto result hg side)
      fun _ => confinedTo_passFailure result)
  refine confinedTo_create.bind fun result => ?_
  refine .op trivial (fun _ h => h.elim) (fun _ h => h.elim) fun g hg => ?_
  exact (hcouple result hg first .first).bind fun _ =>
    (hcouple result hg second .second).bind fun _ => .pure result

lemma confinedTo_forwardEach (target : PromiseId) (inputs : List PromiseId) :
    (forwardEach target inputs : Script P Unit).ConfinedTo S := by
  induction inputs with
  | nil => exact .pure ()
  | cons p ps ih => exact (confinedTo_forward p target).bind fun _ => ih

lemma confinedTo_select (inputs : List PromiseId) :
    (select inputs : Script P PromiseId).ConfinedTo S :=
  confinedTo_create.bind fun result =>
    (confinedTo_forwardEach result inputs).bind fun _ => .pure result

lemma confinedTo_failAfter (e : P.Error) (delay : Duration)
    (admitted : S.settlement (.failed e none)) : (failAfter e delay).ConfinedTo S :=
  confinedTo_create.bind fun result =>
    (confinedTo_later delay ((confinedTo_settle result admitted).bind fun _ => .pure ())).bind
      fun _ => .pure result

lemma confinedTo_deferLazily {thunk : Script P PromiseId} (h : thunk.ConfinedTo S) :
    (deferLazily thunk).ConfinedTo S :=
  confinedTo_create.bind fun result =>
    (confinedTo_later .zero (h.bind fun source => confinedTo_forward source result)).bind
      fun _ => .pure result

lemma confinedTo_keepTrying {thunk : Nat → Script P PromiseId} (interval : Duration)
    {onError : Trace P.Error → Script P Unit} (hthunk : ∀ n, (thunk n).ConfinedTo S)
    (honError : ∀ t, (onError t).ConfinedTo S) :
    (keepTrying thunk interval onError).ConfinedTo S := by
  refine confinedTo_create.bind fun result =>
    .op trivial ?_ ?_ fun r hr => .attempt hr (.pure result)
  · rintro _ ⟨t, -, rfl⟩
    exact honError t
  · rintro _ ⟨n, rfl⟩
    exact hthunk n

/-- **A composed script is confined to every scope that admits its own settlements.** -/
theorem Composed.confinedTo {α : Type} {s : Script P α} (h : s.Composed causes)
    (admitted : ∀ s : Settlement P.Value P.Error, s.Plain causes → S.settlement s) :
    s.ConfinedTo S := by
  induction h with
  | pure a => exact .pure a
  | bind _ _ ih ih' => exact ih.bind ih'
  | once plain => exact confinedTo_plain plain admitted
  | observe p _ ih => exact confinedTo_observe p fun o body handler _ => ih o body handler
  | schedule delay _ ih => exact confinedTo_schedule delay ih
  | drive d _ ih => exact .drive d ih
  | forward source target => exact confinedTo_forward source target
  | forwardFailure source target => exact confinedTo_forwardFailure source target
  | andThen source _ ih =>
    exact confinedTo_result fun result v => (ih v).bind fun r =>
      confinedTo_settleWith result r fun e => admitted (.failed e none) trivial
  | andThenLazily source _ ih =>
    exact confinedTo_result fun result v => (ih v).bind fun p => confinedTo_forward p result
  | join inputs => exact confinedTo_join inputs
  | joinPair first second => exact confinedTo_joinPair first second
  | select inputs => exact confinedTo_select inputs
  | withTimeout input limit =>
    exact (confinedTo_failAfter _ limit (admitted (.failed _ none) trivial)).bind fun trigger =>
      confinedTo_select [input, trigger]
  | deferLazily _ ih => exact confinedTo_deferLazily ih
  | keepTrying interval _ _ ih ih' => exact confinedTo_keepTrying interval ih ih'

end Script

/-! ## Runs of composed programs -/

/-- The names of buffers and loops that have been given out belong to a scope. -/
structure World.Covered (S : Scope P) (w : World P) : Prop where
  gatherings : ∀ i < w.gatherings.size, S.gathering ⟨i⟩
  pairings : ∀ i < w.pairings.size, S.pairing ⟨i⟩
  retries : ∀ i < w.retries.size, S.retry ⟨i⟩

namespace Machine

variable {S : Scope P} {m m' : Machine P}

lemma Step.size_le (h : m.Step m') :
    m.world.gatherings.size ≤ m'.world.gatherings.size ∧
      m.world.pairings.size ≤ m'.world.pairings.size ∧
      m.world.retries.size ≤ m'.world.retries.size := by
  cases h with
  | operate performed => exact (World.fills_of_perform performed).size_le
  | finish | drive | attempt | delivered | call | leaveOut | start | driven =>
    exact ⟨Nat.le_refl _, Nat.le_refl _, Nat.le_refl _⟩

lemma Step.covered_before (h : m.Step m') (hm' : m'.world.Covered S) : m.world.Covered S := by
  obtain ⟨hgatherings, hpairings, hretries⟩ := h.size_le
  exact ⟨fun i hi => hm'.gatherings i (Nat.lt_of_lt_of_le hi hgatherings),
    fun i hi => hm'.pairings i (Nat.lt_of_lt_of_le hi hpairings),
    fun i hi => hm'.retries i (Nat.lt_of_lt_of_le hi hretries)⟩

end Machine

lemma World.Covered.announces {S : Scope P} {w w' : World P} (h : w'.Covered S) :
    Announces S w w' :=
  ⟨fun i _ => h.gatherings i, fun i _ => h.pairings i, fun i _ => h.retries i⟩

/-- **In a run of a composed program everything stays within the scope of the names given out.** -/
theorem Program.confinedTo {prog : Program P} {causes : Prop} {S : Scope P} {n : Nat}
    {m : Machine P} (composed : prog.main.Composed causes)
    (admitted : ∀ s : Settlement P.Value P.Error, s.Plain causes → S.settlement s)
    (h : prog.moment n = some m) (covered : m.world.Covered S) : m.ConfinedTo S := by
  induction n generalizing m with
  | zero =>
    cases h
    have hmain : (Activity.script prog.main).ConfinedTo S fun _ _ => False :=
      composed.confinedTo admitted
    constructor
    · refine ⟨fun p t ht => ?_, fun p r hr => ?_, fun t ht => ?_, fun i t ht => ?_⟩
      · cases ht
      · cases hr
      · cases ht
      · cases ht
    · intro x hx
      cases List.mem_singleton.mp hx
      exact hmain
  | succ n ih =>
    obtain ⟨m₁, h₁, hstep⟩ := moment_succ_eq_some_iff.mp h
    exact hstep.confinedTo (ih h₁ (hstep.covered_before covered)) covered.announces

end Eventual
