/-!
# Sets of code points

A set of characters is a list of ranges of code points in increasing order.
-/

namespace QuantityCalculus.Text

/-- Membership in a list of ranges that increases. -/
def inRanges : List (Nat × Nat) → Nat → Bool
  | [], _ => false
  | (first, last) :: ranges, n =>
    if n < first then false else if n ≤ last then true else inRanges ranges n

end QuantityCalculus.Text
