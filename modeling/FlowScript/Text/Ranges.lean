/-!
# Sets of characters given by ranges
-/

namespace FlowScript.Text

/-- Whether a number lies in one of the ranges, which include both ends and are in rising order. -/
def inRanges (ranges : List (Nat × Nat)) (n : Nat) : Bool :=
  match ranges with
  | [] => false
  | (low, high) :: rest => low ≤ n && (n ≤ high || inRanges rest n)

end FlowScript.Text
