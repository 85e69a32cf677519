/-!
# Ranges of characters

A class of characters is given by ranges of code points in increasing order, both ends
included.
-/

namespace SelectQuery.Text

/-- Whether a character lies in one of the ranges. The search ends at the first range that
begins behind the character. -/
def inRanges (ranges : List (Nat × Nat)) (c : Char) : Bool :=
  match ranges with
  | [] => false
  | (first, last) :: ranges =>
    if c.toNat < first then false else c.toNat ≤ last || inRanges ranges c

end SelectQuery.Text
