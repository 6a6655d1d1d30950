import Eventual.Duration
import Eventual.Text.Quoted

/-!
# Ready-made errors

The error type of programs that need none of their own: a message, or a time limit that passed.
-/

namespace Eventual

/-- Why a promise failed. -/
inductive Failure where
  | timeout (limit : Duration)
  | failed (message : String)
deriving DecidableEq

namespace Failure

/-- What is said of a time limit that passed. -/
def timeoutText : String := "Operation timed out"

/-- Whether a time limit passed. -/
def isTimeout : Failure → Bool
  | timeout _ => true
  | failed _ => false

/-- The text of an error. -/
def text : Failure → String
  | timeout _ => timeoutText
  | failed message => message

/-- The text of the error behind this one, if there is one: a timeout rests on the limit that
passed. -/
def sourceText? : Failure → Option String
  | timeout _ => some timeoutText
  | failed _ => none

/-- The error in diagnostic output. -/
def debugText : Failure → String
  | timeout limit => "Timeout(" ++ Text.record "TimeoutError" [("limit", limit.text)] ++ ")"
  | failed message => "Failed(" ++ Text.quoted message ++ ")"

end Failure

end Eventual
