import Eventual.Duration
import Eventual.Settings
import Eventual.Stack.Segment

/-!
# Events

What a runtime does that a program does not see in its results is reported as events.  An event has
a level, a message and named fields; here each kind of event is a constructor, and its report is
computed from it (`Event.report`).
-/

namespace Eventual

/-- How much an event matters. -/
inductive Level where
  | trace
  | debug
  | info
  | warn
deriving DecidableEq

namespace Level

/-- The level as a word. -/
def text : Level → String
  | trace => "TRACE"
  | debug => "DEBUG"
  | info => "INFO"
  | warn => "WARN"

end Level

/-- The value of a field. -/
inductive FieldValue where
  | text (s : String)
  | number (n : Nat)
  | flag (b : Bool)
deriving DecidableEq

/-- What is told of an event. -/
structure Report where
  level : Level
  message : String
  fields : List (String × FieldValue)
deriving DecidableEq

/-- What a runtime reports of its work. -/
inductive Event where
  | ready (captureTraces : Bool)
  /-- A task was handed to the scheduler, to run after `delay`. -/
  | scheduling (delay : Duration)
  /-- The callbacks of `count` observers will be run for one outcome. -/
  | delivering (count : Nat)
  | fulfillIgnored
  | failureIgnored
  | captureEmpty (id : SegmentId)
  /-- An attempt failed and the next one will follow. -/
  | retrying (attempt : Nat) (interval : Duration)
  /-- No further attempt follows, because the result is settled. -/
  | retryAbandoned (attempts : Nat)
  | settingIgnored (warning : Settings.Warning)
deriving DecidableEq

namespace Event

/-- The report of an event. -/
def report : Event → Report
  | ready captureTraces =>
    ⟨.debug, "pledge runtime ready", [("capture_traces", .flag captureTraces)]⟩
  | scheduling delay => ⟨.trace, "scheduling deferred task", [("delay", .text delay.text)]⟩
  | delivering count => ⟨.trace, "delivering promise outcome", [("count", .number count)]⟩
  | fulfillIgnored => ⟨.debug, "ignoring fulfill of an already settled promise", []⟩
  | failureIgnored => ⟨.debug, "ignoring failure of an already settled promise", []⟩
  | captureEmpty id =>
    ⟨.debug, "no frames captured for promise; trace will show a placeholder",
      [("id", .text id.text)]⟩
  | retrying attempt interval =>
    ⟨.debug, "attempt failed; retrying",
      [("attempt", .number attempt), ("interval", .text interval.text)]⟩
  | retryAbandoned attempts =>
    ⟨.debug, "retry result settled externally; giving up", [("attempts", .number attempts)]⟩
  | settingIgnored (.captureTraces value) =>
    ⟨.warn, "ignoring " ++ Settings.captureTracesKey ++
      ": expected one of 1/0/true/false/on/off/yes/no", [("value", .text value)]⟩
  | settingIgnored (.maxFrames value fault) =>
    ⟨.warn, "ignoring " ++ Settings.maxFramesKey ++ ": expected a positive integer",
      [("value", .text value), ("err", .text fault.message)]⟩

end Event

end Eventual
