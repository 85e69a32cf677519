import SelectQuery.Condition.Equality
import SelectQuery.Condition.Outline
import SelectQuery.Condition.Render

/-!
# Statements

A `SELECT` statement: what it selects, the table it selects from, and the condition, if any.
`Statement.render` writes it in canonical form and `Statement.outline` shows its shape.
-/

namespace SelectQuery

/-- A selected column and the name it is given, if any. -/
structure Column where
  name : Identifier
  alias? : Option Identifier
  deriving DecidableEq, Repr

namespace Column

/-- The column that stands for `*`: a name over the star's token, without an alias. -/
def ofStar (star : Token) : Column := ⟨⟨star⟩, none⟩

/-- The token of the column's name. -/
def token (c : Column) : Token := c.name.token

/-- The name under which the column appears in the result. -/
def outputName (c : Column) : String := (c.alias?.getD c.name).value

/-- A column is written with its alias. -/
def render (c : Column) : String :=
  match c.alias? with
  | some a => c.name.render ++ " AS " ++ a.render
  | none => c.name.render

end Column

/-- What a statement selects: everything, by a star, or the columns listed. -/
inductive Projection where
  | wildcard (star : Token)
  | columns (list : List Column)
  deriving DecidableEq, Repr

namespace Projection

/-- The columns in order; a star counts as one column. -/
def toList : Projection → List Column
  | wildcard star => [.ofStar star]
  | columns list => list

/-- Whether everything is selected. -/
def isWildcard : Projection → Bool
  | wildcard _ => true
  | columns _ => false

/-- The columns are written with commas between them. -/
def render (p : Projection) : String :=
  .intercalate ", " (p.toList.map Column.render)

end Projection

/-- A statement. Its token is that of the word which opens it, its name the command it is
written with. -/
structure Statement where
  token : Token
  name : String
  projection : Projection
  table : Identifier
  condition? : Option Condition
  deriving DecidableEq, Repr

namespace Statement

/-- The one command that is read. -/
def command : String := "SELECT"

/-- The canonical text of a statement, on one line and without a semicolon. -/
def render (s : Statement) : String :=
  let head := s.name ++ " " ++ s.projection.render ++ " FROM " ++ s.table.render
  match s.condition? with
  | some c => head ++ " WHERE " ++ c.render
  | none => head

/-- The shape of a statement in prefix form. Statements of one outline have one shape, however
they were spaced or parenthesised. -/
def outline (s : Statement) : String :=
  let head := s.name ++ "([" ++ s.projection.render ++ "], " ++ s.table.render
  match s.condition? with
  | some c => head ++ ", " ++ c.outline ++ ")"
  | none => head ++ ")"

end Statement

end SelectQuery
