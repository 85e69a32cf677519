import SelectQuery.Error
import SelectQuery.Text.Quoted

/-!
# Errors in detail

The form of an error that shows every part of it by name. Texts and characters in it are
quoted, so that the form is one line whatever the source holds.
-/

namespace SelectQuery

/-- A name with named parts behind it, between braces. -/
def detailFields (name : String) (parts : List (String × String)) : String :=
  name ++ " \x7b " ++ .intercalate ", " (parts.map fun (n, v) ↦ n ++ ": " ++ v) ++ " \x7d"

/-- A span in detail. -/
def Span.detail (s : Span) : String :=
  detailFields "Slice" [("start", toString s.start), ("end", toString s.stop)]

/-- A lexical error in detail. -/
def LexError.detail : LexError → String
  | unexpectedCharacter c p =>
    detailFields "UnexpectedCharacter"
      [("character", Text.quoteChar c), ("position", toString p)]
  | letterInNumber p => detailFields "LetterInNumber" [("position", toString p)]

/-- A fault in detail. -/
def SyntaxFault.detail : SyntaxFault → String
  | unexpectedToken expected found =>
    detailFields "UnexpectedToken"
      [("expected", Text.quote expected), ("found", Text.quote found)]
  | unrecognizedOperand found => detailFields "UnrecognizedOperand" [("found", Text.quote found)]
  | unrecognizedCondition found =>
    detailFields "UnrecognizedCondition" [("found", Text.quote found)]
  | missingComparison found =>
    detailFields "ExpectedComparisonOperator" [("found", Text.quote found)]
  | missingStatement found => detailFields "ExpectedStatement" [("found", Text.quote found)]
  | nestedTooDeeply => "MaximumRecursionDepthReached"

/-- A syntax error in detail. -/
def SyntaxError.detail (e : SyntaxError) : String :=
  detailFields "SyntaxError" [("kind", e.fault.detail), ("span", e.span.detail)]

/-- The failure of a parse in detail. -/
def ParseError.detail : ParseError → String
  | lexical e => "Lex(" ++ e.detail ++ ")"
  | syntactic e => "Syntax(" ++ e.detail ++ ")"

end SelectQuery
