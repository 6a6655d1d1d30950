import Eventual.Combinator.Retry
import Eventual.Scenario.Stage

/-!
# Trying until it works

A service refuses its first three calls; it is called again and again until it answers.
-/

namespace Eventual.Scenario

/-- The number of calls that are refused. -/
def refusals : Nat := 3

/-- The time between a refusal and the next call. -/
def callInterval : Duration := .millis 50

/-- Calls the service, which takes five milliseconds; the calls are counted. -/
def handshake : Script Stage PromiseId := do
  let calls : Nat ← Script.load
  Script.save (P := Stage) (calls + 1)
  Script.defer (P := Stage) (.millis 5) <|
    pure <|
      if calls + 1 ≤ refusals then
        .error (.failed ("handshake " ++ Nat.repr (calls + 1) ++ " refused"))
      else .ok (.value (.int (calls + 1)))

/-- Calls the service until it answers. -/
def retryLoop : Script Stage Unit := do
  let connected ← Script.keepTrying (P := Stage) (fun _ => handshake) callInterval fun t =>
    report ⟨.warn, "handshake failed; retrying", [("err", .text t.error.text)]⟩
  let took ← Script.elapsed (P := Stage) connected
  await connected fun
    | .succeeded v => do
      print ("connected on call " ++ v.datum.compact)
      await took fun
        | .succeeded (.duration d) => do
          let calls : Nat ← Script.load
          print (Nat.repr calls ++ " calls in " ++ d.text ++ " (interval " ++ callInterval.text ++
            ")")
          finish (.ok ())
        | _ => finish (.ok ())
    | .failed t => finish (.error (t.render Failure.text))

end Eventual.Scenario
