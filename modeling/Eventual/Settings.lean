import Eventual.Stack.Collector
import Eventual.Text.Quoted

/-!
# Settings

A runtime either captures the stack under which each promise is created or does not, and keeps at
most so many frames of it.  Both settings can be given as texts, each on its own; a text that is not
understood leaves its setting as it was and gives a warning.
-/

namespace Eventual

/-! ## Reading a number -/

/-- Why a text is not a positive number that fits in a machine word. -/
inductive NumberFault where
  | empty
  /-- Some character is not a digit, or there is only a sign. -/
  | invalidDigit
  | tooLarge
  | zero
deriving DecidableEq

namespace NumberFault

/-- The fault in words. -/
def message : NumberFault → String
  | empty => "cannot parse integer from empty string"
  | invalidDigit => "invalid digit found in string"
  | tooLarge => "number too large to fit in target type"
  | zero => "number would be zero for non-zero type"

end NumberFault

namespace FrameLimit

/-- Reads decimal digits after a number already read, and stops at the first character that is not
a digit or with which the number no longer fits in a machine word. -/
def digitsFrom : Nat → List Char → Except NumberFault Nat
  | n, [] => .ok n
  | n, c :: cs =>
    if c.isDigit then
      let m := n * 10 + (c.toNat - '0'.toNat)
      if m < wordCount then digitsFrom m cs else .error .tooLarge
    else .error .invalidDigit

/-- Reads a number: digits, with a plus sign in front or without. -/
def readNumber : List Char → Except NumberFault Nat
  | [] => .error .empty
  | ['+'] => .error .invalidDigit
  | '+' :: c :: cs => digitsFrom 0 (c :: cs)
  | cs => digitsFrom 0 cs

/-- Reads a limit: a number other than zero. -/
def read (cs : List Char) : Except NumberFault FrameLimit :=
  match readNumber cs with
  | .error fault => .error fault
  | .ok n =>
    match ofNat? n with
    | some limit => .ok limit
    | none => .error .zero

end FrameLimit

/-! ## Settings and their texts -/

/-- The settings of a runtime. -/
structure Settings where
  /-- Whether the stack is captured when a promise is created. -/
  captureTraces : Bool
  maxFrames : FrameLimit
deriving DecidableEq

namespace Settings

/-- The settings when nothing is set. -/
def standard : Settings := ⟨true, .standard⟩

/-- The standard settings without captured stacks. -/
def withoutTraces : Settings := { standard with captureTraces := false }

/-- A text that was not understood. -/
inductive Warning where
  /-- The text for `captureTraces` is no truth value. -/
  | captureTraces (value : String)
  | maxFrames (value : String) (fault : NumberFault)
deriving DecidableEq

/-- Reads a truth value, blanks around it and the case of its letters aside. -/
def readFlag (s : String) : Option Bool :=
  let word := String.ofList ((Text.trimChars s.toList).map Char.toLower)
  if word ∈ ["1", "true", "on", "yes"] then some true
  else if word ∈ ["0", "false", "off", "no"] then some false
  else none

/-- The name under which the text for `captureTraces` is looked up. -/
def captureTracesKey : String := "PLEDGE_CAPTURE_TRACES"

/-- The name under which the text for `maxFrames` is looked up. -/
def maxFramesKey : String := "PLEDGE_TRACE_MAX_FRAMES"

/-- The truth value that a text sets, and the warning if it is not understood. -/
def captureTracesOf : Option String → Bool × List Warning
  | none => (standard.captureTraces, [])
  | some value =>
    match readFlag value with
    | some flag => (flag, [])
    | none => (standard.captureTraces, [.captureTraces value])

/-- The limit that a text sets, and the warning if it is not understood. -/
def maxFramesOf : Option String → FrameLimit × List Warning
  | none => (standard.maxFrames, [])
  | some value =>
    match FrameLimit.read (Text.trimChars value.toList) with
    | .ok limit => (limit, [])
    | .error fault => (standard.maxFrames, [.maxFrames value fault])

/-- The settings for the two texts, either of which may be missing, and the warnings in the order of
the settings. -/
def ofTexts (captureTraces? maxFrames? : Option String) : Settings × List Warning :=
  let flag := captureTracesOf captureTraces?
  let limit := maxFramesOf maxFrames?
  (⟨flag.1, limit.1⟩, flag.2 ++ limit.2)

/-- The settings in diagnostic output. -/
def debugText (s : Settings) : String :=
  Text.record "Config" [("capture_traces", Text.truth s.captureTraces),
    ("max_frames", Nat.repr s.maxFrames.value)]

end Settings

end Eventual
