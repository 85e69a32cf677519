import SelectQuery.Condition

/-!
# Outlines of conditions

An outline shows the shape of a condition in prefix form, with every pair of brackets written
out: two conditions of one outline have one shape, however they were spaced or parenthesised.
-/

namespace SelectQuery.Condition

/-- Walks down the left spine. `opened` is the text of the openers of the nodes passed, and
`pending` holds what closes them, the nearest first. -/
def outlineSpine : Condition → String → List String → String
  | comparison c, opened, pending =>
    .join ((opened ++ "Compare(" ++ c.render ++ ")") :: pending)
  | negation _ e, opened, pending =>
    .join ((opened ++ "NOT(" ++ outlineSpine e "" [] ++ ")") :: pending)
  | boolean _ op l r, opened, pending =>
    outlineSpine l (opened ++ op.word ++ "(") ((", " ++ outlineSpine r "" [] ++ ")") :: pending)

/-- The outline of a condition. Joins are named by their operators, comparisons are written as
in the text of the condition. -/
def outline (c : Condition) : String := c.outlineSpine "" []

end SelectQuery.Condition
