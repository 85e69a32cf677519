/-!
# Comparing without case

A text is compared with an ASCII word after both are lowered. Of all characters only the ASCII
capitals and the Kelvin sign have a single ASCII letter as their lower case, so no others need
to be lowered for that.
-/

namespace SelectQuery.Text

/-- The lower case of the characters that have an ASCII letter as lower case. -/
def lowerChar (c : Char) : Char :=
  if c = '\u212a' then 'k' else c.toLower

/-- A text in which every ASCII letter is lower case, the Kelvin sign counting as a `K`. -/
def lower (text : String) : String := .ofList (text.toList.map lowerChar)

/-- Whether a text ends with an ASCII word in lower case, however it is capitalised. -/
def endsWithLowered (text ending : String) : Bool :=
  ending.toList.isSuffixOf (lower text).toList

end SelectQuery.Text
