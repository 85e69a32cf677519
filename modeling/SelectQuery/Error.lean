import SelectQuery.Span

/-!
# Errors

What can go wrong while a text is turned into a statement, and the wording of each error.
A lexical error points at one character, a syntax error at the span of a token.
-/

namespace SelectQuery

/-- Why no token can be read at some place of the source. -/
inductive LexError where
  | unexpectedCharacter (character : Char) (position : Nat)
  | letterInNumber (position : Nat)
  deriving DecidableEq, Repr

namespace LexError

/-- The byte offset of the character that is to blame. -/
def position : LexError → Nat
  | unexpectedCharacter _ p => p
  | letterInNumber p => p

/-- The wording of a lexical error. -/
def message : LexError → String
  | unexpectedCharacter c p =>
    "Unidentified character '" ++ c.toString ++ "' at position " ++ toString p ++ "."
  | letterInNumber p => "Letter in number token at position " ++ toString p ++ "."

end LexError

/-- Why a token cannot be taken. Tokens are named by text, so that this vocabulary does not
depend on the kinds of token there are. -/
inductive SyntaxFault where
  | unexpectedToken (expected found : String)
  | unrecognizedOperand (found : String)
  | unrecognizedCondition (found : String)
  | missingComparison (found : String)
  | missingStatement (found : String)
  | nestedTooDeeply
  deriving DecidableEq, Repr

/-- The wording of a fault, without its place. -/
def SyntaxFault.message : SyntaxFault → String
  | unexpectedToken expected found =>
    "Invalid syntax. Expected " ++ expected ++ ", received " ++ found ++ "."
  | unrecognizedOperand found =>
    "Unrecognized operand. Expected one of NUMBER, IDENTIFIER or STRING, received " ++
      found ++ "."
  | unrecognizedCondition found => "Unrecognized condition starting with " ++ found ++ "."
  | missingComparison found => "Comparison operator not found. Received " ++ found ++ "."
  | missingStatement found =>
    "Invalid statement. Expected SELECT, received " ++ found ++ "."
  | nestedTooDeeply => "Maximum recursion depth reached."

/-- A fault together with the span of the token at which it was found. -/
structure SyntaxError where
  fault : SyntaxFault
  span : Span
  deriving DecidableEq, Repr

/-- The wording of a syntax error ends with its span. -/
def SyntaxError.message (e : SyntaxError) : String :=
  e.fault.message ++ " (Position " ++ toString e.span ++ ")"

/-- The failure of a whole parse. -/
inductive ParseError where
  | lexical (e : LexError)
  | syntactic (e : SyntaxError)
  deriving DecidableEq, Repr

namespace ParseError

/-- The byte offset to report: that of the character, or of the token's first byte. -/
def position : ParseError → Nat
  | lexical e => e.position
  | syntactic e => e.span.start

/-- The span of the token to blame, which a lexical error does not have. -/
def span? : ParseError → Option Span
  | lexical _ => none
  | syntactic e => some e.span

/-- The full wording of an error. -/
def message : ParseError → String
  | lexical e => "Lexer Error: " ++ e.message
  | syntactic e => "Syntax Error: " ++ e.message

end ParseError

end SelectQuery
