import SelectQuery.Parser.State

/-!
# Frames

What the operations on the open frames of a condition come to. A frame of a chain holds on to what
follows it as tightly as its operator binds; an operator joins the frames that hold at least as
tightly as itself, and closing joins everything down to the innermost open parenthesis.
-/

namespace SelectQuery

namespace BooleanOperator

/-- The operators bind differently. -/
theorem binding_inj {op op' : BooleanOperator} (h : op.binding = op'.binding) : op = op' := by
  cases op <;> cases op' <;> simp [binding] at h ⊢

/-- No operator binds as tightly as what holds together without one. -/
theorem binding_lt_three (op : BooleanOperator) : op.binding < 3 := by
  cases op <;> decide

end BooleanOperator

namespace Frame

/-- The frame of a chain whose right side is still to be read. -/
def chain : BooleanOperator → Condition → Token → Frame
  | .and, left, t => conjunct left t
  | .or, left, t => disjunct left t

/-- How tightly the innermost frame holds on to what follows it: a chain as its operator binds,
and nothing else at all. -/
def binding : List Frame → Nat
  | conjunct _ _ :: _ => BooleanOperator.and.binding
  | disjunct _ _ :: _ => BooleanOperator.or.binding
  | _ => 0

/-- The frame of a chain holds as tightly as its operator binds. -/
@[simp] theorem binding_chain (op : BooleanOperator) (left : Condition) (t : Token)
    (frames : List Frame) : binding (chain op left t :: frames) = op.binding := by
  cases op <;> rfl

/-- A chain opens no expression. -/
@[simp] theorem nesting_chain (op : BooleanOperator) (left : Condition) (t : Token)
    (frames : List Frame) : nesting (chain op left t :: frames) = nesting frames := by
  cases op <;> simp [nesting, chain, opens]

/-- A parenthesis opens one expression. -/
@[simp] theorem nesting_paren (frames : List Frame) :
    nesting (paren :: frames) = nesting frames + 1 := by
  simp [nesting, List.countP_cons, opens, Nat.add_assoc]

/-- A negation opens one expression. -/
@[simp] theorem nesting_negation (t : Token) (frames : List Frame) :
    nesting (negation t :: frames) = nesting frames + 1 := by
  simp [nesting, List.countP_cons, opens, Nat.add_assoc]

/-- Joins a condition to the chains that an operator ends when it follows: those that bind at
least as tightly. -/
def join : BooleanOperator → List Frame → Condition → List Frame × Condition
  | .and => joinConjunct
  | .or => joinDisjunct

/-- Frames that hold less tightly than the operator are left alone. -/
theorem join_of_binding_lt {op : BooleanOperator} {frames : List Frame}
    (h : binding frames < op.binding) (c : Condition) : join op frames c = (frames, c) := by
  match op, frames with
  | .and, [] | .and, paren :: _ | .and, negation _ :: _ | .and, disjunct _ _ :: _ => rfl
  | .or, [] | .or, paren :: _ | .or, negation _ :: _ => rfl
  | .and, conjunct _ _ :: _ | .or, conjunct _ _ :: _ | .or, disjunct _ _ :: _ =>
    simp [binding, BooleanOperator.binding] at h

/-- An operator ends the conjunction before it, and then the disjunction if it is an `OR`. -/
theorem join_or (frames : List Frame) (c : Condition) :
    join .or frames c =
      match join .and frames c with
      | (disjunct left t :: frames, c) => (frames, .boolean t .or left c)
      | joined => joined := rfl

/-- An operator that ends the innermost chain gives it its right side, and goes on to what is around
the chain. -/
theorem join_chain_of_binding_lt {op op' : BooleanOperator} (hop : op.binding ≤ op'.binding)
    {frames : List Frame} (hf : binding frames < op'.binding) (left : Condition) (t : Token)
    (c : Condition) :
    join op (chain op' left t :: frames) c = join op frames (.boolean t op' left c) := by
  match op, op' with
  | .and, .and | .or, .or =>
    rw [join_of_binding_lt hf]
    rfl
  | .and, .or => simp [BooleanOperator.binding] at hop
  | .or, .and =>
    rw [join_or, join_or, join_of_binding_lt hf]
    rfl

/-- The innermost chain takes the condition as its right side when an operator ends it. -/
theorem join_chain {op op' : BooleanOperator} (hop : op.binding ≤ op'.binding)
    {frames : List Frame} (hf : binding frames < op.binding) (left : Condition) (t : Token)
    (c : Condition) : join op (chain op' left t :: frames) c = (frames, .boolean t op' left c) := by
  rw [join_chain_of_binding_lt hop (Nat.lt_of_lt_of_le hf hop), join_of_binding_lt hf]

/-- Closing gives the innermost chain its right side. -/
theorem close_chain (op : BooleanOperator) (left : Condition) (t : Token) (frames : List Frame)
    (c : Condition) :
    close (chain op left t :: frames) c = close frames (.boolean t op left c) := by
  cases op <;> rfl

/-- What closing leaves begins with an open parenthesis, if it leaves anything. -/
theorem close_eq_nil_or_paren (frames : List Frame) (c : Condition) :
    (close frames c).1 = [] ∨ ∃ frames', (close frames c).1 = paren :: frames' := by
  induction frames generalizing c with
  | nil => exact .inl rfl
  | cons f frames ih =>
    cases f with
    | paren => exact .inr ⟨frames, rfl⟩
    | negation t => exact ih _
    | conjunct left t => exact ih _
    | disjunct left t => exact ih _

end Frame

end SelectQuery
