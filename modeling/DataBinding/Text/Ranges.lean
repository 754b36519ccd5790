/-!
# Ranges of code points

A set of characters is given by its ranges of code points in ascending order.
-/

namespace DataBinding.Text

/-- Whether `n` lies in one of the ascending ranges, which name their first and last members. -/
def inRanges : List (Nat × Nat) → Nat → Bool
  | [], _ => false
  | (first, last) :: rest, n => if n < first then false else n ≤ last || inRanges rest n

end DataBinding.Text
