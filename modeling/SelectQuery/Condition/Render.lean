import SelectQuery.Condition

/-!
# Writing conditions

The parentheses of a source are not kept, so `Condition.render` inserts those that the tree
needs. It walks down the left spine of a chain with the texts still to come on a stack, and so
needs no stack space for the length of a chain.
-/

namespace SelectQuery

/-- The two children of a boolean node. -/
inductive Side where
  | left
  | right
  deriving DecidableEq, Repr

namespace Condition

/-- Whether a child of a boolean node must stand in parentheses to be read back as that child.
A negation takes everything that follows it, so it is always fenced in; a join is fenced in
when it binds looser than its parent, and on the right, where chains do not lean, also when it
binds equally. -/
def needsParens (parent : BooleanOperator) (side : Side) : Condition → Bool
  | comparison _ => false
  | negation _ _ => true
  | boolean _ op _ _ =>
    op.binding < parent.binding || (side == .right && op.binding == parent.binding)

/-- A text, in parentheses if need be. -/
def fence (parens : Bool) (text : String) : String :=
  if parens then "(" ++ text ++ ")" else text

/-- Walks down the left spine. `pending` holds what is to be written after the condition, the
nearest text first: each node passed puts its operator and its right child there. The walk
stops at a left child that needs parentheses. -/
def renderSpine : Condition → List String → String
  | comparison c, pending => .join (c.render :: pending)
  | negation t e, pending => .join ((t.text ++ " " ++ renderSpine e []) :: pending)
  | boolean t op l r, pending =>
    let right := " " ++ t.text ++ " " ++ fence (r.needsParens op .right) (renderSpine r [])
    if l.needsParens op .left then .join (fence true (renderSpine l []) :: right :: pending)
    else renderSpine l (right :: pending)

/-- The text of a condition, with the parentheses it needs and no others. Operators are written
as the texts of their tokens. -/
def render (c : Condition) : String := c.renderSpine []

end Condition

end SelectQuery
