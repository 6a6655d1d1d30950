import Eventual.Scenario.Install
import Eventual.Scenario.Race
import Eventual.Scenario.Reconnect
import Eventual.Scenario.Wheels

/-!
# The programme

The scenarios by their names.
-/

namespace Eventual.Scenario

/-- The scenarios. -/
def programme : List (String × Script Stage Unit) :=
  [("digit-wheels", digitWheels), ("timeout-race", timeoutRace), ("retry-loop", retryLoop),
    ("stitched-failure", stitchedFailure)]

/-- Performs the scenario of a name, if there is one. -/
def performNamed? (settings : Settings) (name : String) : Option Performance :=
  (programme.lookup name).map (perform settings)

end Eventual.Scenario
