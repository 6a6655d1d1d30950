import Eventual.Combinator.Join
import Eventual.Combinator.Retry
import Eventual.Session.Ledger
import Eventual.Session.Step
import Eventual.Trace.Render

/-!
# Steps as scripts

What a step does is a script.  A step may be refused, for want of a promise or because a promise is
of the wrong kind; then nothing of it takes effect but the promises already made for it on the spot.
-/

namespace Eventual.Session

/-- A script that may be refused. -/
abbrev Act (α : Type) : Type 1 := ExceptT Refusal (Script Play) α

/-- What the callback around a step received. -/
structure Received where
  value : Datum := .null
  trace? : Option (Trace Failure) := none

/-- The value of an argument. -/
def Argument.datum (c : Received) : Argument → Datum
  | given d => d
  | received => c.value

/-! ## Promises and their kinds -/

/-- The promise of a name. -/
def lookUp (name : String) : Act Handle := do
  match (← (Script.load : Script Play Ledger)).promises.find? name with
  | some h => return h
  | none => throw (.noSuchPromise name)

/-- Gives a name to a promise, if there is one for it. -/
def enter (as? : Option String) (h : Handle) : Act Unit :=
  match as? with
  | none => pure ()
  | some name => do
    let ledger ← (Script.load : Script Play Ledger)
    (Script.save { ledger with promises := ledger.promises.insert name h } : Script Play Unit)

/-- A promise that has to be of a kind. -/
def Handle.ofKind (k : Kind) (h : Handle) : Act PromiseId :=
  if h.kind = k then pure h.id else throw .typeMismatch

/-- The promises, which have to be of one kind. -/
def idsOfKind (k : Kind) : List Handle → Act (List PromiseId)
  | [] => pure []
  | h :: hs => do
    let p ← h.ofKind k
    let ps ← idsOfKind k hs
    return p :: ps

/-- The item that a promise is fulfilled with. -/
def Handle.item (h : Handle) (d : Datum) : Act Item :=
  match Item.ofDatum? h.kind d with
  | some item => pure item
  | none => throw .typeMismatch

/-- Reads a promise. -/
def Handle.view (h : Handle) : Act (View Item Failure) := (Script.view h.id : Script Play _)

/-- A promise for data, out of a script in which it may be refused; then it has failed with the
words of the refusal. -/
def orFailed (act : Act Handle) : Script Play PromiseId := do
  match ← (do (← act).ofKind .value : Act PromiseId).run with
  | .ok p => return p
  | .error r => Script.ofError (P := Play) (.failed r.message)

/-- What a mapping makes of an item. -/
def Mapping.item (f : Mapping) (d : Datum) : Except Failure Item := (f.apply d).map .value

/-- Adds one `n` times in a row. -/
def addOnes (p : PromiseId) : Nat → Script Play PromiseId
  | 0 => pure p
  | n + 1 => do
    let q ← Script.andThen (P := Play) p fun v => pure (Mapping.item (.add 1) v.datum)
    addOnes q n

/-- Adapts an operation that calls its callback at once, or keeps it under a name, or drops it, and
then fails or not. -/
def adapt (now? : Option Datum) (keep? : Option String) (error? : Option Failure) :
    Script Play PromiseId :=
  Script.fromCallback (P := Play) fun done => do
    match now?, keep? with
    | some d, _ => done.call (P := Play) (.value d)
    | none, some name =>
      let ledger : Ledger ← Script.load
      Script.save { ledger with kept := ledger.kept.insert name done }
    | none, none => pure ()
    match error? with
    | some e => return .error e
    | none => return .ok ()

/-! ## Steps -/

/-- Notes that a callback runs, if it has a tag. -/
def noteCall (tag? : Option String) (seen : Seen) : Script Play Unit :=
  match tag? with
  | none => pure ()
  | some tag => do
    let clock ← Script.now (P := Play)
    Script.note (P := Play) (.called tag clock seen)

/-- What the diagnostic text of a runtime shows. -/
def runtimeText (settings : Settings) (clock : Duration) : String :=
  "Runtime \x7b config: " ++ settings.debugText ++ ", now: " ++ clock.text ++ ", .. \x7d"

/-- The answer of a script that may be refused. -/
def replyOf (act : Act Reply) : Script Play Reply := do
  match ← act.run with
  | .ok r => return r
  | .error r => return .refused r

mutual

/-- The promise that a source stands for. -/
def Source.resolve (c : Received) : Source → Act Handle
  | .named name => lookUp name
  | .made m => m.resolve c
  | .unknown name => throw (.unknownStep name)

/-- The promises that sources stand for, in order. -/
def resolveAll (c : Received) : List Source → Act (List Handle)
  | [] => pure []
  | s :: rest => do
    let h ← s.resolve c
    let hs ← resolveAll c rest
    return h :: hs

/-- The promises that sources stand for, in order, each of which has to be of one kind. -/
def resolveAllOf (c : Received) (k : Kind) : List Source → Act (List PromiseId)
  | [] => pure []
  | s :: rest => do
    let p ← (← s.resolve c).ofKind k
    let ps ← resolveAllOf c k rest
    return p :: ps

/-- The promise that the `k`-th source stands for, or the last one if there are fewer. -/
def resolveAt (c : Received) (k : Nat) : List Source → Act Handle
  | [] => throw .typeMismatch
  | s :: rest => if k = 0 || rest.isEmpty then s.resolve c else resolveAt c (k - 1) rest

/-- Makes a promise and gives it its name. -/
def Making.resolve (c : Received) : Making → Act Handle
  | .mk as? recipe => do
    let h ← recipe.resolve c
    enter as? h
    return h

/-- Makes a promise. -/
def Recipe.resolve (c : Received) : Recipe → Act Handle
  | .promise kind none => return ⟨kind, ← (Script.create : Script Play _)⟩
  | .promise kind (some s) => return ⟨kind, ← (Script.createUnder s : Script Play _)⟩
  | .ofValue value => return ⟨.value, ← Script.ofValue (P := Play) (.value (value.datum c))⟩
  | .ofError error => return ⟨.value, ← Script.ofError (P := Play) error⟩
  | .fulfillAfter value delay =>
    return ⟨.value, ← Script.fulfillAfter (P := Play) (.value (value.datum c)) delay⟩
  | .failAfter error delay => return ⟨.value, ← Script.failAfter (P := Play) error delay⟩
  | .select inputs => do
    let hs ← resolveAll c inputs
    let kind := (hs.head?.map Handle.kind).getD .value
    let ids ← idsOfKind kind hs
    return ⟨kind, ← Script.select (P := Play) ids⟩
  | .join inputs => do
    let ids ← resolveAllOf c .value inputs
    return ⟨.list, ← Script.join (P := Play) ids⟩
  | .joinPair first second => do
    let a ← (← first.resolve c).ofKind .value
    let b ← (← second.resolve c).ofKind .value
    return ⟨.pair, ← Script.joinPair (P := Play) a b⟩
  | .withTimeout input limit => do
    let h ← input.resolve c
    return ⟨h.kind, ← Script.withTimeout (P := Play) h.id limit⟩
  | .elapsed input => do
    let h ← input.resolve c
    return ⟨.duration, ← Script.elapsed (P := Play) h.id⟩
  | .keepTrying attempts interval tag? onError =>
    return ⟨.value, ← Script.keepTrying (P := Play)
      (fun k => do
        noteCall tag? (.attempt (k + 1))
        orFailed (resolveAt {} k attempts))
      interval
      (fun t => onError.run { trace? := some t } (.failure t))⟩
  | .defer delay callback f =>
    return ⟨.value, ← Script.defer (P := Play) delay do
      callback.run {} .turn
      return f.item .null⟩
  | .deferLazily callback result =>
    return ⟨.value, ← Script.deferLazily (P := Play) do
      callback.run {} .turn
      orFailed (result.resolve {})⟩
  | .fromCallback now? keep? error? => return ⟨.value, ← adapt now? keep? error?⟩
  | .andThen source callback f => do
    let h ← source.resolve c
    return ⟨.value, ← Script.andThen (P := Play) h.id fun v => do
      callback.run { value := v.datum } (.value v.datum)
      return f.item v.datum⟩
  | .andThenLazily source callback result => do
    let h ← source.resolve c
    return ⟨.value, ← Script.andThenLazily (P := Play) h.id fun v => do
      callback.run { value := v.datum } (.value v.datum)
      orFailed (result.resolve { value := v.datum })⟩
  | .andThenApply source callback f => do
    let h ← source.resolve c
    let p ← h.ofKind .pair
    return ⟨.value, ← Script.andThen (P := Play) p fun v => do
      let (a, b) := v.operands
      callback.run { value := v.datum } (.operands a b)
      return f.item (.list [b, a])⟩
  | .chain source n => do
    let h ← source.resolve c
    match n with
    | 0 => return h
    | n + 1 => return ⟨.value, ← addOnes h.id (n + 1)⟩

/-- Runs a callback that sees something. -/
def Callback.run (c : Received) (seen : Seen) : Callback → Script Play Unit
  | .mk tag? acts => do
    noteCall tag? seen
    runActs c acts

/-- Runs the steps of a callback and notes their answers. -/
def runActs (c : Received) : List Step → Script Play Unit
  | [] => pure ()
  | s :: rest => do
    let r ← replyOf (s.resolve c)
    Script.note (P := Play) (.act r)
    runActs c rest

/-- The callback for a value. -/
def valueHandler : Option Callback → Option (Item → Script Play Unit)
  | none => none
  | some callback => some fun v => callback.run { value := v.datum } (.value v.datum)

/-- The callback for a failure. -/
def failureHandler : Option Callback → Option (Trace Failure → Script Play Unit)
  | none => none
  | some callback => some fun t => callback.run { trace? := some t } (.failure t)

/-- The trace that a cause stands for. -/
def Cause.resolve (c : Received) : Cause → Act (Trace Failure)
  | .received =>
    match c.trace? with
    | some t => pure t
    | none => throw .causeNotFailed
  | .traceOf p => do
    let h ← p.resolve c
    match (← h.view).trace? with
    | some t => return t
    | none => throw .causeNotFailed

/-- What a step does, and its answer. -/
def Step.resolve (c : Received) : Step → Act Reply
  | .make m => do
    let h ← m.resolve c
    return .ofView (← h.view)
  | .fulfill p value => do
    let h ← p.resolve c
    let item ← h.item (value.datum c)
    return .flag (← Script.fulfill (P := Play) h.id item)
  | .fail p error => do
    let h ← p.resolve c
    return .flag (← Script.fail (P := Play) h.id error)
  | .failBecause p error cause => do
    let h ← p.resolve c
    let t ← cause.resolve c
    return .flag (← Script.failBecause (P := Play) h.id error t)
  | .observe p onValue onError => do
    let h ← p.resolve c
    Script.observe (P := Play) h.id
      (Observer.ofCallbacks (P := Play) (valueHandler onValue) (failureHandler onError))
    return .nothing
  | .forward what source target => do
    let a ← source.resolve c
    let b ← target.resolve c
    match what with
    | .either =>
      let q ← b.ofKind a.kind
      Script.forward (P := Play) a.id q
    | .value =>
      let q ← b.ofKind a.kind
      Script.forwardValue (P := Play) a.id q
    | .failure => Script.forwardFailure (P := Play) a.id b.id
    return .nothing
  | .call name value => do
    let ledger : Ledger ← (Script.load : Script Play _)
    match ledger.kept.find? name with
    | none => return .flag false
    | some done =>
      (Script.save { ledger with kept := ledger.kept.erase name } : Script Play Unit)
      done.call (P := Play) (.value (value.datum c))
      return .flag true
  | .schedule delay callback => do
    Script.schedule (P := Play) delay (callback.run {} .turn)
    return .nothing
  | .peek p => do
    let h ← p.resolve c
    return .ofView (← h.view)
  | .state p => do
    let h ← p.resolve c
    return .state (← h.view).state
  | .trace p => do
    let h ← p.resolve c
    return .trace (← h.view).trace?
  | .segment p => do
    let h ← p.resolve c
    return .segment (← h.view).segment?
  | .debug p => do
    let h ← p.resolve c
    return .text (← h.view).debugText
  | .debugTrace p => do
    let h ← p.resolve c
    match (← h.view).trace? with
    | some t => return .text (t.debugText Failure.debugText)
    | none => return .nothing
  | .debugRuntime => do
    let settings ← (Script.once .settings : Script Play Settings)
    let clock ← Script.now (P := Play)
    return .text (runtimeText settings clock)
  | .sameRuntime p => do
    discard (p.resolve c)
    return .flag true
  | .drop name => do
    let ledger : Ledger ← (Script.load : Script Play _)
    (Script.save { ledger with promises := ledger.promises.erase name } : Script Play Unit)
    return .flag (ledger.promises.find? name).isSome
  | .now => return .instant (← Script.now (P := Play))
  | .pending => return .count (← Script.pending (P := Play))
  | .drive d => return .count (← (Script.drive d pure : Script Play Nat))
  | .sleep span => do
    discard (Script.advance span : Script Play Nat)
    return .nothing
  | .unknown name => throw (.unknownStep name)

end

end Eventual.Session
