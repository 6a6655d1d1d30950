import Eventual.Combinator.Timer
import Eventual.World.Basic

/-!
# Retry loops

A retry loop makes attempts until one succeeds, and waits an interval after each that fails.  It
ends early when its result is settled by someone else.  The loop may go on for ever, so it is kept
in the world, and an attempt is made by its name (`Script.attempt`).
-/

namespace Eventual

variable {P : Payload}

/-- What happens when an attempt fails: it is reported, and the next one is scheduled. -/
def Retry.afterFailure (t : Retry P) (r : RetryId) (attempt : Nat) (trace : Trace P.Error) :
    Script P Unit := do
  Script.emit (.retrying attempt t.interval)
  t.onError trace
  Script.later t.interval (Script.attempt r (pure ()))

/-- The next attempt of the loop `t`, whose name is `r`: nothing if the result is settled, and else
the promise of the attempt is awaited. -/
def Retry.nextAttempt (t : Retry P) (r : RetryId) : Script P Unit := do
  if (← Script.view t.result).isSettled then
    Script.emit (.retryAbandoned t.attempts)
  else
    Script.once (.countAttempt r)
    let next ← t.thunk t.attempts
    Script.observe next
      (.onEither (Script.passValue t.result) (t.afterFailure r (t.attempts + 1)))

/-- A promise for the value of the first of the promises `thunk 0`, `thunk 1`, … that is fulfilled;
each is made `interval` after the failure of the one before it, which `onError` is told of. -/
def Script.keepTrying (thunk : Nat → Script P PromiseId) (interval : Duration)
    (onError : Trace P.Error → Script P Unit) : Script P PromiseId := do
  let result ← Script.create
  let r ← Script.once (.openRetry result interval thunk onError)
  Script.attempt r (pure result)

end Eventual
