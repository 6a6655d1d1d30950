import Eventual.Scenario.Programme

/-!
# The command line

`digit-wheels`, `timeout-race`, `retry-loop` or `stitched-failure` names the scenario to perform;
`--no-traces` turns the capture of stacks off.  The settings can also be given in the environment.
Lines are printed to the standard output, reports to the standard error.
-/

namespace Eventual.Main

/-- What is asked for on the command line. -/
structure Command where
  /-- Whether stacks are not captured, whatever the environment says. -/
  noTraces : Bool
  /-- The scenario. -/
  scenario : String

/-- What to type. -/
def usage : String :=
  "usage: [--no-traces] " ++ "|".intercalate (Scenario.programme.map Prod.fst)

/-- Reads a command line: options and the name of one scenario, in any order. -/
def Command.ofArgs? (args : List String) : Option Command :=
  match args.filter (· ≠ "--no-traces") with
  | [name] =>
    if (Scenario.programme.lookup name).isSome then some ⟨args.contains "--no-traces", name⟩
    else none
  | _ => none

/-- The text of a field. -/
def fieldText : String × FieldValue → String
  | (name, .text s) => name ++ "=" ++ s
  | (name, .number n) => name ++ "=" ++ Nat.repr n
  | (name, .flag b) => name ++ "=" ++ Text.truth b

/-- A report as one line. -/
def reportLine (r : Report) : String :=
  " ".intercalate (r.level.text :: r.message :: r.fields.map fieldText)

/-- Performs a scenario in the light of the environment: the lines to print, the lines to report,
and how it ended. -/
def Command.perform (c : Command) (captureTraces? maxFrames? : Option String) :
    List String × List String × Except String Unit :=
  let (settings, warnings) := Settings.ofTexts captureTraces? maxFrames?
  let settings := if c.noTraces then { settings with captureTraces := false } else settings
  let warned := warnings.map fun w => reportLine (Event.settingIgnored w).report
  match Scenario.performNamed? settings c.scenario with
  | some p => (p.printed, warned ++ p.reports.map reportLine, p.result)
  | none => ([], warned, .error usage)

end Eventual.Main

/-- Performs the scenario that the command line names. -/
def main (args : List String) : IO UInt32 := do
  match Eventual.Main.Command.ofArgs? args with
  | none =>
    IO.eprintln Eventual.Main.usage
    return 1
  | some command =>
    let captureTraces? ← IO.getEnv Eventual.Settings.captureTracesKey
    let maxFrames? ← IO.getEnv Eventual.Settings.maxFramesKey
    let (printed, reported, result) := command.perform captureTraces? maxFrames?
    for line in reported do
      IO.eprintln line
    for line in printed do
      IO.println line
    match result with
    | .ok () => return 0
    | .error message =>
      IO.eprintln message
      return 1
