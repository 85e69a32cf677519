import SelectQuery.Operand

/-!
# Conditions

The tree of a `WHERE` clause: comparisons joined by `AND` and `OR`, and negations. Every node
holds its own token. A comparison or a boolean node also holds its operator, which decides the
meaning of the node; in a tree built by hand it may disagree with the token.
-/

namespace SelectQuery

/-- The six ways to compare two operands. -/
inductive ComparisonOperator where
  | equal
  | notEqual
  | less
  | lessEqual
  | greater
  | greaterEqual
  deriving DecidableEq, Repr

namespace ComparisonOperator

/-- The comparison that a kind of token stands for. -/
def ofKind? : TokenKind → Option ComparisonOperator
  | .equal => some equal
  | .notEqual => some notEqual
  | .less => some less
  | .lessEqual => some lessEqual
  | .greater => some greater
  | .greaterEqual => some greaterEqual
  | _ => none

/-- The mark of a comparison. -/
def mark : ComparisonOperator → String
  | equal => "="
  | notEqual => "!="
  | less => "<"
  | lessEqual => "<="
  | greater => ">"
  | greaterEqual => ">="

end ComparisonOperator

/-- The two ways to join conditions. -/
inductive BooleanOperator where
  | and
  | or
  deriving DecidableEq, Repr

namespace BooleanOperator

/-- The join that a kind of token stands for. -/
def ofKind? : TokenKind → Option BooleanOperator
  | .andKw => some and
  | .orKw => some or
  | _ => none

/-- The word for a join. -/
def word : BooleanOperator → String
  | and => "AND"
  | or => "OR"

/-- How tightly an operator binds: the higher, the tighter. -/
def binding : BooleanOperator → Nat
  | or => 1
  | and => 2

end BooleanOperator

/-- Two operands and how they are compared. -/
structure Comparison where
  token : Token
  op : ComparisonOperator
  left : Operand
  right : Operand
  deriving DecidableEq, Repr

/-- A comparison is written with the text of its token, not with the mark of its operator. -/
def Comparison.render (c : Comparison) : String :=
  c.left.render ++ " " ++ c.token.text ++ " " ++ c.right.render

/-- The condition of a statement. Chains of one operator lean to the left, so the left spine of
a tree may be long; nesting goes to the right and through negations. -/
inductive Condition where
  | comparison (c : Comparison)
  | boolean (token : Token) (op : BooleanOperator) (left right : Condition)
  | negation (token : Token) (operand : Condition)
  deriving Repr

namespace Condition

/-- The token of the topmost node. -/
def token : Condition → Token
  | comparison c => c.token
  | boolean t _ _ _ => t
  | negation t _ => t

end Condition

end SelectQuery
