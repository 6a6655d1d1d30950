import Eventual.Combinator.Timer
import Eventual.Scenario.Stage

/-!
# A failure that crosses several promises

A manifest is fetched, parsed and installed.  The fetch fails, and the failure passes through all
three promises.
-/

namespace Eventual.Scenario

/-- Fetches the manifest, in vain. -/
def fetchManifest : Script Stage PromiseId :=
  Script.failAfter (P := Stage) (.failed "manifest server closed the connection") (.millis 10)

/-- The lines of a text as data. -/
def linesOf : Item → Item
  | .value (.text s) => .list ((Text.lines s).map .text)
  | v => v

/-- Parses the manifest into its entries. -/
def parseManifest (manifest : PromiseId) : Script Stage PromiseId :=
  Script.andThen (P := Stage) manifest fun v => pure (.ok (linesOf v))

/-- The number of items of a list. -/
def countOf : Item → Nat
  | .list ds => ds.length
  | _ => 0

/-- Installs the entries. -/
def installAll (entries : PromiseId) : Script Stage PromiseId :=
  Script.andThenLazily (P := Stage) entries fun v =>
    Script.fulfillAfter (P := Stage) (.value (.int (countOf v))) (.millis 5)

/-- Fetches, parses and installs, and shows the failure. -/
def stitchedFailure : Script Stage Unit := do
  let settings : Settings ← Script.once (P := Stage) .settings
  if !settings.captureTraces then
    print "stack capture is off; only the error line will be shown"
  let manifest ← fetchManifest
  let entries ← parseManifest manifest
  let installed ← installAll entries
  await installed fun
    | .succeeded v =>
      finish (.error ("expected a failure, installed " ++ v.datum.compact ++ " entries"))
    | .failed t => do
      print ("failure crossed " ++ Nat.repr t.depth ++ " hops:\n" ++ t.render Failure.text)
      finish (.ok ())

end Eventual.Scenario
