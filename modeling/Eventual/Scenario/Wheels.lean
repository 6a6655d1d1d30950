import Eventual.Combinator.Join
import Eventual.Scenario.Digits
import Eventual.Scenario.Stage

/-!
# Turning digit wheels

A display of four wheels turns from one number to another.  The wheels turn at the same time, each
along the shorter direction and each for as long as its notches take; the display is at rest when
the last wheel is.
-/

namespace Eventual.Scenario

/-- The time that a wheel takes for one notch, in milliseconds. -/
def millisPerNotch : Nat := 40

/-- The number of notches between two digits, along the shorter direction. -/
def notches (shown target : Nat) : Nat :=
  let forward := (target + 10 - shown) % 10
  min forward (10 - forward)

/-- Turns a wheel: a promise for its digit once it is at rest. -/
def turnWheel (column shown target : Nat) : Script Stage PromiseId := do
  let n := notches shown target
  print ("wheel " ++ Nat.repr column ++ ": " ++ Nat.repr shown ++ " -> " ++ Nat.repr target ++
    " (" ++ Nat.repr n ++ " notches)")
  Script.fulfillAfter (P := Stage) (.value (.int target)) (.millis (millisPerNotch * n))

/-- Turns wheels, from a column on. -/
def turnWheels (column : Nat) : List (Nat × Nat) → Script Stage (List PromiseId)
  | [] => pure []
  | (shown, target) :: rest => do
    let p ← turnWheel column shown target
    let ps ← turnWheels (column + 1) rest
    return p :: ps

/-- The number that a list of digits shows. -/
def reading (v : Item) : Item :=
  match v with
  | .list ds => .value (.int (valueOf (ds.filterMap Datum.nat?)).toNat)
  | _ => v

/-- Turns the wheels from 1907 to 2024. -/
def digitWheels : Script Stage Unit := do
  let wheels ← turnWheels 0 ((digitsOf 1907 4).zip (digitsOf 2024 4))
  let joined ← Script.join (P := Stage) wheels
  let shown ← Script.andThen (P := Stage) joined fun v => pure (.ok (reading v))
  let took ← Script.elapsed (P := Stage) shown
  await shown fun
    | .succeeded v => do
      print ("all wheels at rest, reading " ++ v.datum.compact)
      await took fun
        | .succeeded (.duration d) => do
          print ("slowest wheel took " ++ d.text)
          finish (.ok ())
        | _ => finish (.ok ())
    | .failed t => finish (.error (t.render Failure.text))

/-! ## A single wheel -/

/-- What is seen of one wheel that turns in a world of its own. -/
structure WheelTurn where
  printed : List String
  ran : Nat
  clock : Duration
  shown? : Option Datum

/-- The digit that a promise was fulfilled with. -/
def digitOf? (v : View Item Failure) : Option Datum :=
  match v.result? with
  | some (.ok item) => some item.datum
  | _ => none

/-- Turns one wheel.  Its promise is the first one of the world, and the number of tasks that ran is
what the script remembers. -/
def turnOneWheel (column shown target : Nat) : WheelTurn :=
  let script : Script Stage Unit := do
    discard (turnWheel column shown target)
    let ran : Nat ← Script.runAll
    Script.save ran
  let w := (Machine.load (start .withoutTraces) script).runOut.world
  ⟨w.journal.toList.filterMap printed?, w.store, w.clock, digitOf? (w.view ⟨0⟩)⟩

end Eventual.Scenario
