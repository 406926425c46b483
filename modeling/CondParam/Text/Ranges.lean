/-!
# Sets of code points as ranges

A set of characters is given by its ranges of code points, in increasing order.
-/

set_option autoImplicit false

namespace CondParam

/-- Whether `n` lies in one of the ranges, which stand in increasing order. -/
def inRanges (n : Nat) : List (Nat × Nat) → Bool
  | [] => false
  | (lo, hi) :: rest => if n < lo then false else if n ≤ hi then true else inRanges n rest

end CondParam
