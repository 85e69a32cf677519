import SelectQuery.Token

/-!
# Names and literals

The leaves of a statement. Each wraps one token and derives its value from the token's text,
so that a leaf cannot disagree with its token.
-/

namespace SelectQuery

/-- A name: of a column, an alias, a table or an operand. -/
structure Identifier where
  token : Token
  deriving DecidableEq, Repr

namespace Identifier

/-- The name itself. -/
def value (i : Identifier) : String := i.token.text

/-- A name is written as it is. -/
def render (i : Identifier) : String := i.value

end Identifier

/-- A number, kept as the digits that were written. -/
structure NumberLiteral where
  token : Token
  deriving DecidableEq, Repr

namespace NumberLiteral

/-- The digits of the number. -/
def value (n : NumberLiteral) : String := n.token.text

/-- A number is written with the digits it was read with. -/
def render (n : NumberLiteral) : String := n.value

end NumberLiteral

/-- A string literal, kept as its token. -/
structure StringLiteral where
  token : Token
  deriving DecidableEq, Repr

namespace StringLiteral

/-- Takes one quote off each end of a text. A text that does not have both stays as it is; the
text of one quote alone has only one of them. -/
def unquote (text : String) : String :=
  match text.toList with
  | '"' :: rest => if rest.getLast? = some '"' then .ofList rest.dropLast else text
  | _ => text

/-- What stands between the quotes. -/
def value (s : StringLiteral) : String := unquote s.token.text

/-- A string literal is written as its value between quotes. -/
def render (s : StringLiteral) : String := "\"" ++ s.value ++ "\""

end StringLiteral

/-- One side of a comparison. -/
inductive Operand where
  | identifier (i : Identifier)
  | number (n : NumberLiteral)
  | string (s : StringLiteral)
  deriving DecidableEq, Repr

namespace Operand

/-- The token of the name or literal. -/
def token : Operand → Token
  | identifier i => i.token
  | number n => n.token
  | string s => s.token

/-- An operand is written as the name or literal it is. -/
def render : Operand → String
  | identifier i => i.render
  | number n => n.render
  | string s => s.render

/-- The operand that a token makes, if its kind is that of an operand. -/
def ofToken? (t : Token) : Option Operand :=
  match t.kind with
  | .number => some (.number ⟨t⟩)
  | .identifier => some (.identifier ⟨t⟩)
  | .string => some (.string ⟨t⟩)
  | _ => none

end Operand

end SelectQuery
