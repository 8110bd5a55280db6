/-! # Ascending ranges of characters

A set of characters is written as the ascending list of the first and last code points of its
ranges. -/

namespace ApiReference

/-- The number lies in one of the ascending ranges `[first, last, first, last, ...]`. -/
def inRanges : List Nat → Nat → Bool
  | first :: last :: more, n => first ≤ n && (n ≤ last || inRanges more n)
  | _, _ => false

end ApiReference
