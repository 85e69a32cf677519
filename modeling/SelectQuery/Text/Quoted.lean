import SelectQuery.Text.Ranges
import SelectQuery.Text.UnprintableRanges

/-!
# Quoted text

A text between quotes in which nothing is hidden: the quote, the backslash and the common
control characters have escapes of their own, and every other character that cannot be seen is
shown by its code point.
-/

namespace SelectQuery.Text

/-- The escape of a character by code point, in hexadecimal without leading zeros. -/
def codePointEscape (c : Char) : String :=
  "\\u\x7b" ++ .ofList (Nat.toDigits 16 c.toNat) ++ "\x7d"

/-- One character of a text between quotes. Only the quote in use needs an escape. -/
def escapeChar (quote c : Char) : String :=
  if c = '\x00' then "\\0"
  else if c = '\t' then "\\t"
  else if c = '\r' then "\\r"
  else if c = '\n' then "\\n"
  else if c = '\\' || c = quote then "\\" ++ c.toString
  else if inRanges unprintableRanges c then codePointEscape c
  else c.toString

/-- A text between double quotes. -/
def quote (text : String) : String :=
  "\"" ++ .join (text.toList.map (escapeChar '"')) ++ "\""

/-- A character between single quotes. -/
def quoteChar (c : Char) : String :=
  "'" ++ escapeChar '\'' c ++ "'"

end SelectQuery.Text
