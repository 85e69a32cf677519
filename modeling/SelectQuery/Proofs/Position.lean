import SelectQuery.Proofs.Frame
import SelectQuery.Proofs.Run

/-!
# Positions

A `Position` is what is left of a parser state when texts and trees are forgotten: the place in
the grammar and the parentheses and negations that are open. Positions move by kinds of token
alone and know of no limit. `State.map_position_step?` says that states move as their positions
do, as long as the limit on nesting is kept.
-/

namespace SelectQuery

/-- What opens an expression of its own inside a condition. -/
inductive Opener where
  | paren
  | negation
  deriving DecidableEq, Repr

namespace Opener

/-- What is still open once the negations inside the innermost open parenthesis have ended. -/
def endNegations : List Opener → List Opener
  | negation :: opens => endNegations opens
  | opens => opens

/-- Where nothing is open no negation ends. -/
@[simp] theorem endNegations_nil : endNegations [] = [] := rfl

/-- An open parenthesis ends no negation. -/
@[simp] theorem endNegations_paren (opens : List Opener) :
    endNegations (paren :: opens) = paren :: opens := rfl

/-- An open negation ends, and then those around it. -/
@[simp] theorem endNegations_negation (opens : List Opener) :
    endNegations (negation :: opens) = endNegations opens := rfl

/-- Closing leaves less open. -/
theorem length_endNegations_le (opens : List Opener) :
    (endNegations opens).length ≤ opens.length := by
  induction opens with
  | nil => exact Nat.le_refl _
  | cons o opens ih =>
    cases o with
    | paren => exact Nat.le_refl _
    | negation => exact Nat.le_succ_of_le ih

end Opener

namespace Frame

/-- The opener that a frame stands for, if it opens an expression. -/
def opener? : Frame → Option Opener
  | paren => some .paren
  | negation _ => some .negation
  | conjunct _ _ => none
  | disjunct _ _ => none

/-- The openers among the frames of a condition, the innermost first. -/
def openers (frames : List Frame) : List Opener := frames.filterMap opener?

/-- Without frames nothing is open. -/
@[simp] theorem openers_nil : openers [] = [] := rfl

/-- The frame of a parenthesis is an open parenthesis. -/
@[simp] theorem openers_paren (frames : List Frame) :
    openers (paren :: frames) = .paren :: openers frames := rfl

/-- The frame of a negation is an open negation. -/
@[simp] theorem openers_negation (t : Token) (frames : List Frame) :
    openers (negation t :: frames) = .negation :: openers frames := rfl

/-- A conjunction opens nothing. -/
@[simp] theorem openers_conjunct (c : Condition) (t : Token) (frames : List Frame) :
    openers (conjunct c t :: frames) = openers frames := rfl

/-- A disjunction opens nothing. -/
@[simp] theorem openers_disjunct (c : Condition) (t : Token) (frames : List Frame) :
    openers (disjunct c t :: frames) = openers frames := rfl

/-- As many expressions are open as there are openers, and that of the clause. -/
theorem nesting_eq (frames : List Frame) : nesting frames = 1 + (openers frames).length := by
  unfold nesting
  congr 1
  induction frames with
  | nil => rfl
  | cons f frames ih => cases f <;> simp [List.countP_cons, opens, ih]

/-- Joining a condition to a conjunction opens and closes nothing. -/
@[simp] theorem openers_joinConjunct (frames : List Frame) (c : Condition) :
    openers (joinConjunct frames c).1 = openers frames := by
  unfold joinConjunct
  split <;> rfl

/-- Joining a condition to a disjunction opens and closes nothing. -/
@[simp] theorem openers_joinDisjunct (frames : List Frame) (c : Condition) :
    openers (joinDisjunct frames c).1 = openers frames := by
  unfold joinDisjunct
  split
  next h =>
    rw [← openers_joinConjunct frames c, h]
    rfl
  next => exact openers_joinConjunct frames c

/-- Closing ends the negations down to the innermost open parenthesis. -/
@[simp] theorem openers_close (frames : List Frame) (c : Condition) :
    openers (close frames c).1 = Opener.endNegations (openers frames) := by
  induction frames generalizing c with
  | nil => rfl
  | cons f frames ih => cases f <;> simp [close, ih]

end Frame

namespace Parser

/-- A place in the grammar of statements. Inside a condition it holds the openers of what is
open, the innermost first. -/
inductive Position where
  | start
  | projection
  | wildcard
  | column
  | columnName
  | columnAlias
  | columnEnd
  | table
  | tableName
  | expression (opens : List Opener)
  | condition (opens : List Opener)
  | operator (opens : List Opener)
  | operand (opens : List Opener)
  | conditionEnd (opens : List Opener)
  | complete
  | ended
  deriving DecidableEq, Repr

namespace Position

/-- The position after the first token of a condition. -/
def beginCondition? (opens : List Opener) : TokenKind → Option Position
  | .leftParen => some (expression (.paren :: opens))
  | .notKw => some (expression (.negation :: opens))
  | .number | .identifier | .string => some (operator opens)
  | _ => none

/-- The position after a token that follows a condition. -/
def endCondition? (opens : List Opener) : TokenKind → Option Position
  | .andKw | .orKw => some (condition opens)
  | .rightParen =>
    match Opener.endNegations opens with
    | _ :: opens => some (conditionEnd opens)
    | [] => none
  | .semicolon =>
    match Opener.endNegations opens with
    | _ :: _ => none
    | [] => some complete
  | _ => none

/-- The position after one more token, given by its kind. The end of the source is a token like
any other here. -/
def step? (p : Position) (k : TokenKind) : Option Position :=
  match p with
  | start =>
    match k with
    | .selectKw => some projection
    | _ => none
  | projection =>
    match k with
    | .star => some wildcard
    | .identifier => some columnName
    | _ => none
  | wildcard =>
    match k with
    | .fromKw => some table
    | _ => none
  | column =>
    match k with
    | .identifier => some columnName
    | _ => none
  | columnName =>
    match k with
    | .asKw => some columnAlias
    | .comma => some column
    | .fromKw => some table
    | _ => none
  | columnAlias =>
    match k with
    | .identifier => some columnEnd
    | _ => none
  | columnEnd =>
    match k with
    | .comma => some column
    | .fromKw => some table
    | _ => none
  | table =>
    match k with
    | .identifier => some tableName
    | _ => none
  | tableName =>
    match k with
    | .whereKw => some (expression [])
    | .semicolon => some complete
    | _ => none
  | expression opens | condition opens => beginCondition? opens k
  | operator opens => (ComparisonOperator.ofKind? k).map fun _ ↦ operand opens
  | operand opens =>
    match k with
    | .number | .identifier | .string => some (conditionEnd opens)
    | _ => none
  | conditionEnd opens => endCondition? opens k
  | complete =>
    match k with
    | .eof => some ended
    | _ => none
  | ended => none

/-- What is open at a position inside a condition. -/
def opens? : Position → Option (List Opener)
  | expression opens | condition opens | operator opens | operand opens | conditionEnd opens =>
    some opens
  | _ => none

/-- Whether the position keeps a limit on nesting. Only the beginning of an expression is
checked. -/
def keeps (limit : Nat) : Position → Bool
  | expression opens => 1 + opens.length ≤ limit
  | _ => true

/-- The position after tokens of the given kinds, if each of them can follow in turn. -/
def run? (p : Position) (kinds : List TokenKind) : Option Position := kinds.foldlM step? p

/-- Without a token a run stays where it is. -/
@[simp] theorem run?_nil (p : Position) : p.run? [] = some p := rfl

/-- A run takes the first token and goes on from there. -/
@[simp] theorem run?_cons (p : Position) (k : TokenKind) (kinds : List TokenKind) :
    p.run? (k :: kinds) = (p.step? k).bind fun q ↦ q.run? kinds := rfl

/-- Kinds may be taken in two portions. -/
theorem run?_append (p : Position) (kinds kinds' : List TokenKind) :
    p.run? (kinds ++ kinds') = (p.run? kinds).bind fun q ↦ q.run? kinds' :=
  List.foldlM_append

/-- The beginning of an expression differs from that of a condition only by the check of the
limit. -/
theorem run?_expression {kinds : List TokenKind} (hne : kinds ≠ []) (opens : List Opener) :
    (expression opens).run? kinds = (condition opens).run? kinds := by
  obtain ⟨k, kinds, rfl⟩ := List.exists_cons_of_ne_nil hne
  rfl

end Position

namespace State

/-- The position of a state. -/
def position : State → Position
  | start => .start
  | projection _ => .projection
  | wildcard _ _ => .wildcard
  | column _ _ => .column
  | columnName _ _ _ => .columnName
  | columnAlias _ _ _ => .columnAlias
  | columnEnd _ _ => .columnEnd
  | table _ _ => .table
  | tableName _ => .tableName
  | expression _ frames => .expression (Frame.openers frames)
  | condition _ frames => .condition (Frame.openers frames)
  | operator _ frames _ => .operator (Frame.openers frames)
  | operand _ frames _ _ _ => .operand (Frame.openers frames)
  | conditionEnd _ frames _ => .conditionEnd (Frame.openers frames)
  | complete _ => .complete

private theorem map_position_beginCondition? (h : Header) (frames : List Frame) (t : Token) :
    (beginCondition? h frames t).map position =
      Position.beginCondition? (Frame.openers frames) t.kind := by
  cases hk : t.kind <;>
    simp [beginCondition?, Position.beginCondition?, Operand.ofToken?, hk, position]

private theorem map_position_endCondition? (h : Header) (frames : List Frame) (c : Condition)
    (t : Token) :
    (endCondition? h frames c t).map position =
      Position.endCondition? (Frame.openers frames) t.kind := by
  have hc := Frame.openers_close frames c
  rcases hl : Frame.close frames c with ⟨frames', c'⟩
  rw [hl] at hc
  have hp := Frame.close_eq_nil_or_paren frames c
  rw [hl] at hp
  cases hk : t.kind with
  | rightParen =>
    simp only [endCondition?, Position.endCondition?, hk, hl, ← hc]
    rcases hp with rfl | ⟨frames'', rfl⟩ <;> rfl
  | semicolon =>
    simp only [endCondition?, Position.endCondition?, hk, hl, ← hc]
    rcases hp with rfl | ⟨frames'', rfl⟩ <;> rfl
  | _ => simp [endCondition?, Position.endCondition?, hk, position]

/-- States move as their positions do, as long as the limit on nesting is kept. -/
theorem map_position_step? (limit : Nat) (s : State) {t : Token} (ht : t.kind ≠ .eof) :
    (s.step? limit t).map position =
      if s.position.keeps limit then s.position.step? t.kind else none := by
  cases s with
  | expression h frames =>
    simp only [step?, position, Position.keeps, Position.step?, Frame.nesting_eq, decide_eq_true_eq]
    split
    next => exact map_position_beginCondition? h frames t
    next => rfl
  | condition h frames => exact map_position_beginCondition? h frames t
  | conditionEnd h frames c => exact map_position_endCondition? h frames c t
  | operator h frames left =>
    simp [step?, position, Position.keeps, Position.step?, Function.comp_def]
  | _ =>
    cases hk : t.kind <;>
      simp_all [step?, position, Position.keeps, Position.step?, Operand.ofToken?]

end State

end Parser

end SelectQuery
