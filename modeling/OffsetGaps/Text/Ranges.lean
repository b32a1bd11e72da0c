/-
# Ranges of code points

Classes of characters are given as lists of ranges, both ends included.

Key definitions: `inRanges`.
-/

namespace OffsetGaps

/-- Whether a code point lies in one of the ranges. -/
def inRanges (ranges : List (Nat × Nat)) (n : Nat) : Bool :=
  ranges.any fun r => r.1 ≤ n && n ≤ r.2

end OffsetGaps
