import SelectQuery.Lexer
import SelectQuery.Text.Table

/-!
# The token table

The tokens of a source as a table: one row for each, the token at the end included.
-/

namespace SelectQuery

/-- The row of a token. -/
def Token.row (t : Token) : List String :=
  [t.kind.name, t.text, toString t.span.start, toString t.span.stop]

/-- The table of some tokens, with a heading. -/
def tokenTable (tokens : List Token) : String :=
  Text.table (["kind", "text", "start", "end"] :: tokens.map Token.row)

end SelectQuery
