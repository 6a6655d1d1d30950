/-!
# Stack segments

When a promise is created the call stack of that moment may be kept beside it: a segment, under an
identifier of its own.  Frames are listed innermost first, so that what two stacks have in common,
the calls they were both made under, stands at the ends of their lists.
-/

namespace Eventual

/-- The identifier of a segment; identifiers are given out in increasing order. -/
structure SegmentId where
  /-- The number of the segment. -/
  number : Nat
deriving DecidableEq

namespace SegmentId

/-- The identifier for a capture before which `n` were made. -/
def afterCaptures (n : Nat) : SegmentId := ⟨n + 1⟩

/-- The identifier in a message. -/
def text (i : SegmentId) : String := "segment#" ++ Nat.repr i.number

/-- The identifier in diagnostic output. -/
def debugText (i : SegmentId) : String := "SegmentId(" ++ Nat.repr i.number ++ ")"

/-- What is said of a capture that found no frame to keep. -/
def emptyCapture (i : SegmentId) : String :=
  "backtrace for " ++ i.text ++ " has no frames outside the capture machinery"

end SegmentId

/-- A snapshot of a call stack. -/
structure Segment where
  /-- Its identifier. -/
  id : SegmentId
  /-- The lines of its frames, innermost first. -/
  frames : List String
deriving DecidableEq

namespace Segment

/-- The segment that stands for a capture that found nothing. -/
def unavailable (id : SegmentId) : Segment := ⟨id, []⟩

/-- Whether some frame has text. -/
def isAvailable (s : Segment) : Bool := s.frames.any fun f => !f.isEmpty

end Segment

end Eventual
