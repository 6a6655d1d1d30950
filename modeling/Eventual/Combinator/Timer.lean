import Eventual.Combinator.Basic

/-!
# Promises and the clock

Promises that are settled after a delay, races against a time limit, and measurements.
-/

namespace Eventual.Script

variable {P : Payload}

/-- Hands a task to the scheduler and reports it. -/
def later (delay : Duration) (body : Script P Unit) : Script P Unit := do
  emit (.scheduling delay)
  schedule delay body

/-- A promise for what `thunk` gives after a delay. -/
def defer (delay : Duration) (thunk : Script P (Except P.Error P.Value)) :
    Script P PromiseId := do
  let result ← create
  later delay (thunk >>= settleWith result)
  return result

/-- A promise that ends as the promise that `thunk` gives on the next turn. -/
def deferLazily (thunk : Script P PromiseId) : Script P PromiseId := do
  let result ← create
  later .zero (do forward (← thunk) result)
  return result

/-- A promise that is fulfilled after a delay. -/
def fulfillAfter (v : P.Value) (delay : Duration) : Script P PromiseId := do
  let result ← create
  later delay (discard (fulfill result v))
  return result

/-- A promise that fails after a delay. -/
def failAfter (e : P.Error) (delay : Duration) : Script P PromiseId := do
  let result ← create
  later delay (discard (fail result e))
  return result

/-- Forwards each of several promises to one. -/
def forwardEach (target : PromiseId) : List PromiseId → Script P Unit
  | [] => pure ()
  | p :: ps => do
    forward p target
    forwardEach target ps

/-- A promise that ends as the first of several does. -/
def select (inputs : List PromiseId) : Script P PromiseId := do
  let result ← create
  forwardEach result inputs
  return result

/-- A promise that ends as `input` does, or with a timeout if `limit` passes first. -/
def withTimeout (input : PromiseId) (limit : Duration) : Script P PromiseId := do
  let trigger ← failAfter (P.timeout limit) limit
  select [input, trigger]

/-- Fulfills a promise with the time that has passed since an instant. -/
def fulfillSince (result : PromiseId) (start : Duration) : Script P Unit := do
  let clock ← now
  discard (fulfill result (P.span (clock.monus start)))

/-- A promise for the time from now to the settlement of `input`. -/
def elapsed (input : PromiseId) : Script P PromiseId := do
  let result ← create
  let start ← now
  observe input (.onEither (fun _ => fulfillSince result start) fun _ => fulfillSince result start)
  return result

end Eventual.Script
