/-!
# Sets of code points

A Unicode property is kept as the increasing list of its ranges, both ends included.
-/

namespace SpecForest.Text

/-- Whether a code point lies in one of the ranges. -/
def inRanges (ranges : List (Nat × Nat)) (n : Nat) : Bool :=
  ranges.any fun r => r.1 ≤ n && n ≤ r.2

end SpecForest.Text
