import Eventual.Stack.Frame
import Eventual.Word

/-!
# Collecting the frames of a stack walk

A stack walk meets the frames of the capturing machinery first, then the frames of the program from
the innermost call outwards.  A collector is offered the frames one by one.  It drops the internal
frames it meets before any other, keeps the lines of all later ones, and answers whether it wants
more; a walk stops at the first refusal (`Collector.walk`).
-/

namespace Eventual

/-- How many frames a snapshot may hold: at least one, and no more than a machine word counts. -/
structure FrameLimit where
  /-- The number itself. -/
  value : Nat
  /-- A snapshot holds at least one frame. -/
  pos : 0 < value
  /-- The number fits in a machine word. -/
  fits : value < wordCount
deriving DecidableEq

namespace FrameLimit

/-- The limit used when none is set. -/
def standard : FrameLimit := ⟨64, by decide, by decide⟩

/-- The limit of `n` frames, if `n` is a possible limit. -/
def ofNat? (n : Nat) : Option FrameLimit :=
  if h : 0 < n ∧ n < wordCount then some ⟨n, h.1, h.2⟩ else none

end FrameLimit

/-- The state of a stack walk that gathers lines. -/
structure Collector where
  /-- What the symbols of internal frames start with. -/
  internal : List String
  /-- The number of lines that are wanted. -/
  limit : FrameLimit
  /-- Whether only internal frames have been met so far. -/
  skipping : Bool
  /-- The lines kept, innermost first. -/
  lines : List String

namespace Collector

/-- A collector that has met no frame yet. -/
def start (internal : List String) (limit : FrameLimit) : Collector :=
  ⟨internal, limit, true, []⟩

/-- Offers one frame: whether more frames are wanted, and the collector afterwards.  While internal
frames are skipped every answer is yes; a frame that is kept is answered yes as long as fewer lines
than the limit have been kept. -/
def offer (c : Collector) (f : Frame) : Bool × Collector :=
  if c.skipping && f.isInternal c.internal then
    (true, c)
  else
    let lines := c.lines ++ [f.line]
    (lines.length < c.limit.value, { c with skipping := false, lines })

/-- Offers frames in order until one is refused. -/
def walk (c : Collector) : List Frame → Collector
  | [] => c
  | f :: fs => if (c.offer f).1 then (c.offer f).2.walk fs else (c.offer f).2

/-- The lines that a walk over the given frames gathers. -/
def gather (internal : List String) (limit : FrameLimit) (frames : List Frame) : List String :=
  ((start internal limit).walk frames).lines

/-! ## The course of a walk -/

/-- One offer in the course of a walk. -/
structure Offer where
  /-- Whether more frames were wanted. -/
  wanted : Bool
  /-- Whether the collector was still skipping afterwards. -/
  skipping : Bool
deriving DecidableEq

/-- The offers made when every frame is offered, also after a refusal, and the lines kept. -/
def insist (c : Collector) : List Frame → List Offer × List String
  | [] => ([], c.lines)
  | f :: fs =>
    let (wanted, c) := c.offer f
    let (offers, lines) := c.insist fs
    (⟨wanted, c.skipping⟩ :: offers, lines)

/-- The offers made by a walk, the refusal that ends it included, and the lines kept. -/
def course (c : Collector) : List Frame → List Offer × List String
  | [] => ([], c.lines)
  | f :: fs =>
    let (wanted, c) := c.offer f
    if wanted then
      let (offers, lines) := c.course fs
      (⟨wanted, c.skipping⟩ :: offers, lines)
    else
      ([⟨wanted, c.skipping⟩], c.lines)

end Collector

end Eventual
