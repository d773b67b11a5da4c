/-! # Sets of characters given by ranges

A character class beyond ASCII is a list of code-point ranges, both ends included.
-/

namespace Template

/-- A set of code points as inclusive ranges. -/
abbrev CodeRanges := List (Nat × Nat)

namespace CodeRanges

/-- Whether the character's code point lies in one of the ranges. -/
def mem (ranges : CodeRanges) (c : Char) : Bool :=
  ranges.any fun (low, high) => low ≤ c.toNat && c.toNat ≤ high

end CodeRanges

end Template
