/-!
# Machine words

Some numbers are bounded by what a machine word of 64 bits can hold.
-/

namespace Eventual

/-- The number of values of a machine word. -/
abbrev wordCount : Nat := 18446744073709551616

end Eventual
