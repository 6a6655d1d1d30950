import Eventual.Machine
import Eventual.Session.Perform

/-!
# Running a session

The steps of a session run one after the other on one world.  For each there is a turn: its answer,
what was written into the journal meanwhile, and what can be seen of the world afterwards.  A step
that needs an instant beyond the longest span ends the session.
-/

namespace Eventual.Session

/-- How a step ended. -/
inductive Answer where
  | reply (r : Reply)
  /-- An instant beyond the longest span was needed. -/
  | overflow
  | unfinished

/-- What is said when an instant beyond the longest span is needed. -/
def overflowText : String := "overflow when adding durations"

/-- What can be seen of one step. -/
structure Turn where
  answer : Answer
  /-- What was reported and noted meanwhile, in order. -/
  log : List (Entry Note)
  clock : Duration
  /-- The states of the promises that have names, in the order of the names. -/
  states : List State
  waiting : Nat

/-- The stack that is found under every promise of a session: a session has no calls of its own. -/
def walk (_ : Nat) : List Frame := [⟨none, Frame.describe none none none⟩]

/-- The world in which a session starts. -/
def start (settings : Settings) : World Play := World.fresh settings walk [] {}

/-- The states of the promises that have names. -/
def states (w : World Play) : List State :=
  w.store.promises.entries.map fun e => (w.view e.2.id).state

/-- The script of a step: its answer is the last note. -/
def script (s : Step) : Script Play Unit := do
  let r ← replyOf (s.resolve {})
  Script.note (P := Play) (.answered r)

/-- How a run of the script of a step ended. -/
def answerOf (log : List (Entry Note)) : Machine.Ending Play → Answer
  | .halted _ =>
    match log.getLast? with
    | some (.note (.answered r)) => .reply r
    | _ => .unfinished
  | .overflow _ => .overflow
  | .unfinished _ => .unfinished

/-- Whether a line of the journal is not the answer of a step. -/
def isLogged : Entry Note → Bool
  | .note (.answered _) => false
  | _ => true

/-- Runs one step: its turn, and the world afterwards. -/
def turn (w : World Play) (s : Step) : Turn × World Play :=
  let before := w.journal.size
  let ending := (Machine.load w (script s)).runOut
  let w := ending.world
  let log := (w.journal.extract before w.journal.size).toList
  (⟨answerOf log ending, log.filter isLogged, w.clock, states w, w.pending⟩, w)

/-- Runs the steps of a session, up to the first that does not end. -/
def play (w : World Play) : List Step → List Turn
  | [] => []
  | s :: rest =>
    let (t, w) := turn w s
    match t.answer with
    | .reply _ => t :: play w rest
    | _ => [t]

end Eventual.Session
