import SelectQuery.Error
import SelectQuery.Statement

/-!
# Parser states

The grammar of a statement is

    statement    := SELECT projection FROM IDENTIFIER [WHERE expression] SEMICOLON EOF
    projection   := MULT | column (COMMA column)*
    column       := IDENTIFIER [AS IDENTIFIER]
    expression   := andCondition (OR andCondition)*
    andCondition := condition (AND condition)*
    condition    := comparison | L_PAREN expression R_PAREN | NOT expression
    comparison   := operand operator operand
    operand      := NUMBER | IDENTIFIER | STRING

A `State` is what has been read of a statement. `State.step?` takes one more token, and
`State.fault` says what is wrong with a token that a state cannot take. What is open inside a
condition is a stack of frames. `NOT` takes a whole expression: its frame stays open until the
parenthesis around it closes, or the condition ends.
-/

namespace SelectQuery

/-- One thing that is open inside a condition: a parenthesis, a `NOT`, or the left side and the
token of an `AND` or `OR` whose right side is still being read. -/
inductive Frame where
  | paren
  | negation (token : Token)
  | conjunct (left : Condition) (token : Token)
  | disjunct (left : Condition) (token : Token)
  deriving DecidableEq, Repr

namespace Frame

/-- Whether a frame opens an expression of its own. -/
def opens : Frame → Bool
  | paren => true
  | negation _ => true
  | conjunct _ _ => false
  | disjunct _ _ => false

/-- How many expressions are open at once: that of the clause and one for each opening frame. -/
def nesting (frames : List Frame) : Nat := 1 + frames.countP opens

/-- Joins a condition to the conjunction that it ends, if there is one. -/
def joinConjunct : List Frame → Condition → List Frame × Condition
  | conjunct left t :: frames, c => (frames, .boolean t .and left c)
  | frames, c => (frames, c)

/-- Joins a condition to the conjunction and then to the disjunction that it ends. -/
def joinDisjunct (frames : List Frame) (c : Condition) : List Frame × Condition :=
  match joinConjunct frames c with
  | (disjunct left t :: frames, c) => (frames, .boolean t .or left c)
  | joined => joined

/-- Closes every chain and every negation down to the innermost open parenthesis. What is left
is empty or begins with that parenthesis. -/
def close : List Frame → Condition → List Frame × Condition
  | conjunct left t :: frames, c => close frames (.boolean t .and left c)
  | disjunct left t :: frames, c => close frames (.boolean t .or left c)
  | negation t :: frames, c => close frames (.negation t c)
  | paren :: frames, c => (paren :: frames, c)
  | [], c => ([], c)

end Frame

/-- What precedes the condition of a statement. -/
structure Header where
  token : Token
  projection : Projection
  table : Identifier
  deriving DecidableEq, Repr

/-- The statement that a header and a condition make. -/
def Header.statement (h : Header) (condition? : Option Condition) : Statement :=
  ⟨h.token, Statement.command, h.projection, h.table, condition?⟩

namespace Parser

/-- What has been read of a statement. Columns are kept newest first. In a condition, `frames`
holds what is open, the innermost first. -/
inductive State where
  /-- Nothing. -/
  | start
  /-- The word `SELECT`. -/
  | projection (token : Token)
  /-- A star. -/
  | wildcard (token star : Token)
  /-- A comma after a column. -/
  | column (token : Token) (columns : List Column)
  /-- The name of a column. -/
  | columnName (token : Token) (columns : List Column) (name : Identifier)
  /-- `AS` after the name of a column. -/
  | columnAlias (token : Token) (columns : List Column) (name : Identifier)
  /-- A column with its alias. -/
  | columnEnd (token : Token) (columns : List Column)
  /-- `FROM` after the projection. -/
  | table (token : Token) (projection : Projection)
  /-- The name of the table. -/
  | tableName (h : Header)
  /-- `WHERE`, an opening parenthesis or `NOT`: an expression begins. -/
  | expression (h : Header) (frames : List Frame)
  /-- `AND` or `OR`. -/
  | condition (h : Header) (frames : List Frame)
  /-- The left operand of a comparison. -/
  | operator (h : Header) (frames : List Frame) (left : Operand)
  /-- The operator of a comparison. -/
  | operand (h : Header) (frames : List Frame) (left : Operand) (op : ComparisonOperator)
    (token : Token)
  /-- A comparison, or the closing parenthesis of an expression. -/
  | conditionEnd (h : Header) (frames : List Frame) (c : Condition)
  /-- The semicolon. -/
  | complete (s : Statement)
  deriving DecidableEq, Repr

namespace State

/-- The state after the first token of a condition. -/
def beginCondition? (h : Header) (frames : List Frame) (t : Token) : Option State :=
  match t.kind with
  | .leftParen => some (expression h (.paren :: frames))
  | .notKw => some (expression h (.negation t :: frames))
  | _ => (Operand.ofToken? t).map (operator h frames)

/-- The state after a token that follows the condition `c`. `AND` and `OR` fold a chain to the
left; a closing parenthesis and the semicolon close all that is open inside them. -/
def endCondition? (h : Header) (frames : List Frame) (c : Condition) (t : Token) :
    Option State :=
  match t.kind with
  | .andKw =>
    let (frames, c) := Frame.joinConjunct frames c
    some (condition h (.conjunct c t :: frames))
  | .orKw =>
    let (frames, c) := Frame.joinDisjunct frames c
    some (condition h (.disjunct c t :: frames))
  | .rightParen =>
    match Frame.close frames c with
    | (_ :: frames, c) => some (conditionEnd h frames c)
    | ([], _) => none
  | .semicolon =>
    match Frame.close frames c with
    | (_ :: _, _) => none
    | ([], c) => some (complete (h.statement (some c)))
  | _ => none

/-- The state after one more token, if the token can be taken. At most `limit` expressions may
be open at once; this is checked on the first token of an expression. -/
def step? (limit : Nat) (s : State) (t : Token) : Option State :=
  match s with
  | start =>
    match t.kind with
    | .selectKw => some (projection t)
    | _ => none
  | projection token =>
    match t.kind with
    | .star => some (wildcard token t)
    | .identifier => some (columnName token [] ⟨t⟩)
    | _ => none
  | wildcard token star =>
    match t.kind with
    | .fromKw => some (table token (.wildcard star))
    | _ => none
  | column token columns =>
    match t.kind with
    | .identifier => some (columnName token columns ⟨t⟩)
    | _ => none
  | columnName token columns name =>
    match t.kind with
    | .asKw => some (columnAlias token columns name)
    | .comma => some (column token (⟨name, none⟩ :: columns))
    | .fromKw => some (table token (.columns (⟨name, none⟩ :: columns).reverse))
    | _ => none
  | columnAlias token columns name =>
    match t.kind with
    | .identifier => some (columnEnd token (⟨name, some ⟨t⟩⟩ :: columns))
    | _ => none
  | columnEnd token columns =>
    match t.kind with
    | .comma => some (column token columns)
    | .fromKw => some (table token (.columns columns.reverse))
    | _ => none
  | table token list =>
    match t.kind with
    | .identifier => some (tableName ⟨token, list, ⟨t⟩⟩)
    | _ => none
  | tableName h =>
    match t.kind with
    | .whereKw => some (expression h [])
    | .semicolon => some (complete (h.statement none))
    | _ => none
  | expression h frames =>
    if Frame.nesting frames ≤ limit then beginCondition? h frames t else none
  | condition h frames => beginCondition? h frames t
  | operator h frames left =>
    (ComparisonOperator.ofKind? t.kind).map fun op ↦ operand h frames left op t
  | operand h frames left op token =>
    (Operand.ofToken? t).map fun right ↦
      conditionEnd h frames (.comparison ⟨token, op, left, right⟩)
  | conditionEnd h frames c => endCondition? h frames c t
  | complete _ => none

/-- What is wrong with a token that cannot be taken. Where several kinds of token could follow,
one of them is named: the one that goes on with the statement. -/
def fault (limit : Nat) (s : State) (t : Token) : SyntaxFault :=
  match s with
  | start => .missingStatement t.kind.name
  | projection _ | column _ _ | columnAlias _ _ _ | table _ _ => expected .identifier
  | wildcard _ _ | columnName _ _ _ | columnEnd _ _ => expected .fromKw
  | tableName _ => expected .semicolon
  | expression _ frames =>
    if Frame.nesting frames ≤ limit then .unrecognizedCondition t.kind.name
    else .nestedTooDeeply
  | condition _ _ => .unrecognizedCondition t.kind.name
  | operator _ _ _ => .missingComparison (toString t)
  | operand _ _ _ _ _ => .unrecognizedOperand t.kind.name
  | conditionEnd _ frames _ =>
    expected (if frames.contains .paren then .rightParen else .semicolon)
  | complete _ => expected .eof
where
  expected (kind : TokenKind) : SyntaxFault := .unexpectedToken kind.name t.kind.name

end State

end Parser

end SelectQuery
