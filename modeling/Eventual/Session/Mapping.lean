import Eventual.Data.Datum
import Eventual.Failure

/-!
# Mappings

What a callback of a session makes of the value it receives: another value, or an error.  A mapping
that needs a number, a text or a list fails when it receives something else.
-/

namespace Eventual.Session

/-- What is made of a value. -/
inductive Mapping where
  | id
  | const (d : Datum)
  | err (e : Failure)
  /-- A given error if the value is `d`, and else the value itself. -/
  | errIf (d : Datum) (e : Failure)
  | bad
  | add (n : Int)
  | append (s : String)
  /-- The length of a list, or the number of characters of a text. -/
  | len
  | sum
  | wrap
deriving DecidableEq

namespace Mapping

/-- The error of a mapping that received what it cannot work with. -/
def wrongType : Failure := .failed "type"

/-- What a mapping makes of a value. -/
def apply : Mapping → Datum → Except Failure Datum
  | id, d => .ok d
  | const c, _ => .ok c
  | err e, _ => .error e
  | errIf c e, d => if d = c then .error e else .ok d
  | bad, d => .error (.failed ("bad " ++ d.compact))
  | add n, .int m => .ok (.int (m + n))
  | append t, .text s => .ok (.text (s ++ t))
  | len, .list ds => .ok (.int ds.length)
  | len, .text s => .ok (.int s.length)
  | sum, .list ds =>
    match Datum.ints? ds with
    | some ns => .ok (.int (ns.foldl (· + ·) 0))
    | none => .error wrongType
  | wrap, d => .ok (.list [d])
  | add _, _ | append _, _ | len, _ | sum, _ => .error wrongType

end Mapping

end Eventual.Session
