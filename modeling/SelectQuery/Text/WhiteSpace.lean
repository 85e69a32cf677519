import SelectQuery.Text.Ranges

/-!
# White space

White space in the sense of the Unicode property `White_Space`, and what it does to a line of
input: it is cut off at both ends, and the first of it ends the first word.
-/

namespace SelectQuery.Text

/-- The 25 characters with the Unicode property `White_Space`. -/
def whiteSpaceRanges : List (Nat × Nat) :=
  [(0x9, 0xd), (0x20, 0x20), (0x85, 0x85), (0xa0, 0xa0), (0x1680, 0x1680), (0x2000, 0x200a),
    (0x2028, 0x2029), (0x202f, 0x202f), (0x205f, 0x205f), (0x3000, 0x3000)]

/-- Whether a character is white space. -/
def isWhiteSpace (c : Char) : Bool := inRanges whiteSpaceRanges c

/-- Cuts white space off both ends of a text. -/
def trimChars (text : List Char) : List Char :=
  ((text.dropWhile isWhiteSpace).reverse.dropWhile isWhiteSpace).reverse

/-- Cuts white space off both ends of a text. -/
def trim (text : String) : String := .ofList (trimChars text.toList)

/-- The text before the first white space, and the trimmed text after it. -/
def splitWord (text : String) : String × String :=
  (.ofList (text.toList.takeWhile (!isWhiteSpace ·)),
    .ofList (trimChars (text.toList.dropWhile (!isWhiteSpace ·))))

end SelectQuery.Text
