import Eventual.Combinator.Timer
import Eventual.Scenario.Stage

/-!
# Racing against a time limit

Two lookups, one after the other, each within a time limit: the first is fast enough, the second is
given up.
-/

namespace Eventual.Scenario

/-- The time limit of a lookup. -/
def lookupLimit : Duration := .millis 100

/-- Looks something up, which takes some time. -/
def lookup (name : String) (latency : Duration) : Script Stage PromiseId :=
  Script.defer (P := Stage) latency (pure (.ok (.value (.text (name ++ "=ok")))))

/-- The text of an answer. -/
def answerText : Item → String
  | .value (.text s) => s
  | v => v.datum.compact

/-- Looks things up, each within the time limit. -/
def lookupEach : List (String × Duration) → Script Stage Unit
  | [] => finish (.ok ())
  | (name, latency) :: rest => do
    let found ← lookup name latency
    let guarded ← Script.withTimeout (P := Stage) found lookupLimit
    await guarded fun
      | .succeeded v => do
        print (name ++ ": " ++ answerText v)
        lookupEach rest
      | .failed t =>
        match t.error with
        | .timeout limit => do
          report ⟨.info, "lookup abandoned", [("name", .text name), ("limit", .text limit.text)]⟩
          print (name ++ ": " ++ Failure.timeoutText ++ " after " ++ limit.text)
          lookupEach rest
        | .failed message =>
          finish (.error (name ++ " failed unexpectedly: " ++ message ++ "\n" ++
            t.render Failure.text))

/-- A fast lookup and a slow one. -/
def timeoutRace : Script Stage Unit :=
  lookupEach [("cache", .millis 20), ("archive", .millis 300)]

end Eventual.Scenario
