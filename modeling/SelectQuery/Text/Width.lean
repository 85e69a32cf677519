import SelectQuery.Text.Ranges
import SelectQuery.Text.WidthRanges

/-!
# Width of text

How many columns of a terminal a line of text takes.
-/

namespace SelectQuery.Text

/-- The number of columns that a character takes: none, one or two. -/
def charWidth (c : Char) : Nat :=
  if inRanges zeroWidthRanges c then 0 else if inRanges wideRanges c then 2 else 1

/-- The number of columns that a line takes. -/
def width (line : String) : Nat := line.toList.foldl (fun columns c ↦ columns + charWidth c) 0

end SelectQuery.Text
