/-!
# Sets of code points

A set of code points is given by the closed ranges that make it up, in increasing order.
-/

namespace EnumNames.Text

/-- Whether `n` lies in one of the ranges; the list is read no further than needed. -/
def inRanges : List (Nat × Nat) → Nat → Bool
  | [], _ => false
  | (lo, hi) :: rest, n => if n < lo then false else n ≤ hi || inRanges rest n

end EnumNames.Text
