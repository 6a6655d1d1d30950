import Eventual.Data.Item
import Eventual.Machine
import Eventual.Trace.Render

/-!
# The stage for scenarios

A scenario is a script that prints lines, reports what a user may want to know, and ends well or
with a message.  It waits for a promise by going on inside an observer.
-/

namespace Eventual.Scenario

/-- What a scenario shows. -/
inductive Scene where
  | printed (line : String)
  | reported (r : Report)
  | ended (result : Except String Unit)

/-- The payload of scenarios; they remember a number. -/
abbrev Stage : Payload := payload Scene Nat

/-- Prints a line. -/
def print (line : String) : Script Stage Unit := Script.note (P := Stage) (.printed line)

/-- Reports something. -/
def report (r : Report) : Script Stage Unit := Script.note (P := Stage) (.reported r)

/-- Ends the scenario. -/
def finish (result : Except String Unit) : Script Stage Unit :=
  Script.note (P := Stage) (.ended result)

/-- Goes on once a promise is settled. -/
def await (p : PromiseId) (next : Outcome Item Failure → Script Stage Unit) : Script Stage Unit :=
  Script.observe (P := Stage) p
    (.onEither (fun v => next (.succeeded v)) (fun t => next (.failed t)))

/-- What a scenario has shown when no task waits any more. -/
structure Performance where
  printed : List String
  reports : List Report
  result : Except String Unit

/-- What is said of a scenario that waits for a promise that nobody settles. -/
def neverSettled : String := "promise was dropped without settling"

/-- Whether a report is meant for users. -/
def isForUsers (r : Report) : Bool := r.level = .info ∨ r.level = .warn

/-- A line printed. -/
def printed? : Entry Scene → Option String
  | .note (.printed line) => some line
  | _ => none

/-- A report for users. -/
def report? : Entry Scene → Option Report
  | .note (.reported r) => some r
  | .event e => if isForUsers e.report then some e.report else none
  | _ => none

/-- An end. -/
def result? : Entry Scene → Option (Except String Unit)
  | .note (.ended r) => some r
  | _ => none

/-- The world in which a scenario starts.  It is run by a machine, which has no stack of calls to
walk. -/
def start (settings : Settings) : World Stage := World.fresh settings (fun _ => []) [] 0

/-- Runs a script until no task waits. -/
def runOut (settings : Settings) (s : Script Stage Unit) : World Stage :=
  (Machine.load (start settings) (do s; discard Script.runAll)).runOut.world

/-- Performs a scenario. -/
def perform (settings : Settings) (s : Script Stage Unit) : Performance :=
  let journal := (runOut settings s).journal.toList
  ⟨journal.filterMap printed?, journal.filterMap report?,
    ((journal.filterMap result?).head?).getD (.error neverSettled)⟩

end Eventual.Scenario
