/-!
# Stack frames

A frame of a call stack comes with the symbol of the function that runs in it, when that is known,
and with the line that describes it in a report.
-/

namespace Eventual

/-- A frame as a stack walk finds it. -/
structure Frame where
  /-- The bare symbol of the function, by which frames are told apart. -/
  symbol? : Option String
  /-- The line that describes the frame in a report. -/
  line : String
deriving DecidableEq

namespace Frame

/-- The line for a function of the given name, with the place in a file when there is one.  A line
number without a file tells nothing and is left out. -/
def describe (name? file? : Option String) (line? : Option Nat) : String :=
  let head := "    at " ++ name?.getD "<unknown>"
  match file?, line? with
  | some file, some line => head ++ " (" ++ file ++ ":" ++ Nat.repr line ++ ")"
  | some file, none => head ++ " (" ++ file ++ ")"
  | none, _ => head

/-- Whether a symbol, the angle brackets in front of it removed, starts with one of the given
strings.  A method of an interface is named after the type in angle brackets that implements it,
so `<a::T as I>::f` belongs to `a::`. -/
def symbolStarts (starts : List String) (symbol : String) : Bool :=
  let bare := symbol.toList.dropWhile (· == '<')
  starts.any fun s => s.toList.isPrefixOf bare

/-- A frame is internal to the machinery named by `starts` when its symbol is known and starts with
one of them. -/
def isInternal (starts : List String) (f : Frame) : Bool :=
  f.symbol?.any (symbolStarts starts)

end Frame

end Eventual
