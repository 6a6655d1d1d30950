import Eventual.Script.Basic

/-!
# Sequencing and forwarding

Promises made from values, errors and functions, promises that follow on others, and promises that
end as others do.  A failure that is passed on keeps its error, and the trace it came with becomes
the cause of the next one.
-/

namespace Eventual.Script

variable {P : Payload}

/-! ## Settled promises -/

/-- Settles a promise with a value or, on its own, with an error. -/
def settleWith (p : PromiseId) : Except P.Error P.Value → Script P Unit
  | .ok v => discard (fulfill p v)
  | .error e => discard (fail p e)

/-- A promise that is fulfilled. -/
def ofValue (v : P.Value) : Script P PromiseId := do
  let result ← create
  discard (fulfill result v)
  return result

/-- A promise that has failed. -/
def ofError (e : P.Error) : Script P PromiseId := do
  let result ← create
  discard (fail result e)
  return result

/-! ## Forwarding -/

/-- Fulfills a promise with the value it is given. -/
def passValue (target : PromiseId) (v : P.Value) : Script P Unit :=
  discard (fulfill target v)

/-- Fails a promise with the error of the trace it is given, and because of it. -/
def passFailure (target : PromiseId) (t : Trace P.Error) : Script P Unit :=
  discard (failBecause target t.error t)

/-- Settles `target` as `source` is settled. -/
def forward (source target : PromiseId) : Script P Unit :=
  observe source (.onEither (passValue target) (passFailure target))

/-- Fulfills `target` if `source` is fulfilled. -/
def forwardValue (source target : PromiseId) : Script P Unit :=
  observe source (.onSuccess (passValue target))

/-- Fails `target` if `source` fails. -/
def forwardFailure (source target : PromiseId) : Script P Unit :=
  observe source (.onFailure (passFailure target))

/-! ## Sequencing -/

/-- A promise for what `f` makes of the value of `source`. -/
def andThen (source : PromiseId) (f : P.Value → Script P (Except P.Error P.Value)) :
    Script P PromiseId := do
  let result ← create
  observe source (.onEither (fun v => f v >>= settleWith result) (passFailure result))
  return result

/-- A promise that ends as the promise that `f` makes of the value of `source`. -/
def andThenLazily (source : PromiseId) (f : P.Value → Script P PromiseId) :
    Script P PromiseId := do
  let result ← create
  observe source (.onEither (fun v => do forward (← f v) result) (passFailure result))
  return result

/-! ## Callbacks -/

/-- A callback that fulfills a promise. -/
structure Callback where
  /-- The promise. -/
  target : PromiseId

/-- Hands a value to a callback. -/
def Callback.call (c : Callback) (v : P.Value) : Script P Unit := passValue c.target v

/-- A promise for the value that an operation hands to its callback; an error that the operation
gives at once fails the promise. -/
def fromCallback (operation : Callback → Script P (Except P.Error Unit)) :
    Script P PromiseId := do
  let result ← create
  match ← operation ⟨result⟩ with
  | .ok () => return result
  | .error e =>
    discard (fail result e)
    return result

end Eventual.Script
