import Eventual.Combinator.Basic

/-!
# Joining promises

A join is fulfilled with all values once every input is fulfilled, and fails with the first input
that fails.
-/

namespace Eventual.Script

variable {P : Payload}

/-- Puts a value into a gathering, and fulfills a promise with all values once they are there. -/
def gatherInto (result : PromiseId) (g : GatheringId) (i : Nat) (v : P.Value) :
    Script P Unit := do
  match ← once (.gather g i v) with
  | some vs => discard (fulfill result (P.list vs))
  | none => pure ()

/-- Waits for the inputs of a join, whose places in the gathering are counted from `i`. -/
def gatherEach (result : PromiseId) (g : GatheringId) (i : Nat) : List PromiseId → Script P Unit
  | [] => pure ()
  | p :: ps => do
    observe p (.onEither (gatherInto result g i) (passFailure result))
    gatherEach result g (i + 1) ps

/-- A promise for the list of the values of the inputs. -/
def join (inputs : List PromiseId) : Script P PromiseId := do
  let result ← create
  if inputs.isEmpty then
    discard (fulfill result (P.list []))
  else
    let g ← once (.openGathering inputs.length)
    gatherEach result g 0 inputs
  return result

/-- Puts a value on one side of a pairing, and fulfills a promise with the pair once it is
complete. -/
def coupleInto (result : PromiseId) (g : PairingId) (side : Side) (v : P.Value) :
    Script P Unit := do
  match ← once (.couple g side v) with
  | some (a, b) => discard (fulfill result (P.pair a b))
  | none => pure ()

/-- A promise for the pair of the values of two inputs. -/
def joinPair (first second : PromiseId) : Script P PromiseId := do
  let result ← create
  let g ← once .openPairing
  observe first (.onEither (coupleInto result g .first) (passFailure result))
  observe second (.onEither (coupleInto result g .second) (passFailure result))
  return result

end Eventual.Script
