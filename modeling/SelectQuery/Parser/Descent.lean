import SelectQuery.Parser.State

/-!
# Recursive descent

A condition can be read by procedures, one for each rule of the grammar, that call each other and
share a counter of the expressions that may still be entered. An expression takes a level from the
counter before anything else, and gives it back however it ends. The tokens are there at once, with
what ends them: the end of the source at an offset, or a lexical error.
-/

namespace SelectQuery.Parser

/-- How many more expressions may be entered. -/
structure Levels where
  remaining : Nat
  deriving DecidableEq, Repr

namespace Levels

/-- Takes a level, if there is one left. -/
def enter? : Levels → Option Levels
  | ⟨0⟩ => none
  | ⟨n + 1⟩ => some ⟨n⟩

/-- Gives a level back. -/
def leave (levels : Levels) : Levels := ⟨levels.remaining + 1⟩

/-- Runs a procedure on a level of its own, which is given back however the procedure ends. Where
no level is left the procedure is not run. -/
def within {α : Type} (levels : Levels) (refused : α) (procedure : Levels → α × Levels) :
    α × Levels :=
  match levels.enter? with
  | none => (refused, levels)
  | some inner => ((procedure inner).1, (procedure inner).2.leave)

end Levels

namespace Descent

/-- How a procedure ends that began in front of `n` tokens: with what it has read and fewer tokens
left, or with an error. -/
inductive Exit (α : Type) (n : Nat) where
  | read (a : α) (rest : List Token) (shorter : rest.length < n)
  | failed (e : ParseError)

namespace Exit

variable {α β : Type} {m n : Nat}

/-- Goes on behind what has been read. A failure is passed on. -/
def bind (exit : Exit α m)
    (next : (a : α) → (rest : List Token) → rest.length < m → Exit β n) : Exit β n :=
  match exit with
  | read a rest shorter => next a rest shorter
  | failed e => failed e

/-- Goes on behind what has been read, with the levels that are left. A failure is passed on. -/
def andThen (result : Exit α m × Levels)
    (next : (a : α) → (rest : List Token) → rest.length < m → Levels → Exit β n × Levels) :
    Exit β n × Levels :=
  match result with
  | (read a rest shorter, levels) => next a rest shorter levels
  | (failed e, levels) => (failed e, levels)

end Exit

/-- The error at the next token, or at the end of the source. A lexical error in its place comes
first. -/
def refusal (ending : Except LexError Nat) (fault : Token → SyntaxFault) :
    List Token → ParseError
  | t :: _ => .syntactic ⟨fault t, t.span⟩
  | [] =>
    match ending with
    | .ok offset => .syntactic ⟨fault (.eof offset), ⟨offset, offset⟩⟩
    | .error e => .lexical e

section

variable (ending : Except LexError Nat)

/-- Takes the next token for what it makes. One that makes nothing is refused. -/
def take {α : Type} (make? : Token → Option α) (fault : Token → SyntaxFault)
    (tokens : List Token) : Exit α tokens.length :=
  match tokens with
  | [] => .failed (refusal ending fault [])
  | t :: rest =>
    match make? t with
    | some a => .read a rest (Nat.lt_succ_self _)
    | none => .failed (refusal ending fault (t :: rest))

/-- Takes a token of one kind. -/
def eat (kind : TokenKind) (tokens : List Token) : Exit Token tokens.length :=
  take ending (fun t ↦ if t.kind = kind then some t else none)
    (fun t ↦ .unexpectedToken kind.name t.kind.name) tokens

/-- Goes on behind the next token if it is of the kind, and in front of it otherwise. -/
def peek {β : Type} (kind : TokenKind) (tokens : List Token)
    (behind : (t : Token) → (rest : List Token) → rest.length < tokens.length → β)
    (infront : β) : β :=
  match tokens with
  | [] => infront
  | t :: rest => if t.kind = kind then behind t rest (Nat.lt_succ_self _) else infront

/-- A name. -/
def identifier (tokens : List Token) : Exit Identifier tokens.length :=
  (eat ending .identifier tokens).bind fun t rest shorter ↦ .read ⟨t⟩ rest shorter

/-- `column := IDENTIFIER [AS IDENTIFIER]`. -/
def column (tokens : List Token) : Exit Column tokens.length :=
  (identifier ending tokens).bind fun name rest shorter ↦
    peek .asKw rest
      (fun _ rest₁ shorter₁ ↦
        (identifier ending rest₁).bind fun a rest₂ shorter₂ ↦
          .read ⟨name, some a⟩ rest₂ (by omega))
      (.read ⟨name, none⟩ rest shorter)

/-- `column (COMMA column)*` behind columns that have been read, which are kept newest first. -/
def columns (done : List Column) (tokens : List Token) : Exit (List Column) tokens.length :=
  (column ending tokens).bind fun c rest shorter ↦
    peek .comma rest
      (fun _ rest₁ shorter₁ ↦
        (columns (c :: done) rest₁).bind fun list rest₂ shorter₂ ↦ .read list rest₂ (by omega))
      (.read (c :: done).reverse rest shorter)
termination_by tokens.length

/-- `projection := MULT | column (COMMA column)*`. -/
def projection (tokens : List Token) : Exit Projection tokens.length :=
  peek .star tokens (fun star rest shorter ↦ .read (.wildcard star) rest shorter)
    ((columns ending [] tokens).bind fun list rest shorter ↦ .read (.columns list) rest shorter)

/-- What precedes the condition of a statement: `SELECT projection FROM IDENTIFIER`. -/
def header (tokens : List Token) : Exit Header tokens.length :=
  (take ending (fun t ↦ if t.kind = .selectKw then some t else none)
    (fun t ↦ .missingStatement t.kind.name) tokens).bind fun token rest₁ shorter₁ ↦
      (projection ending rest₁).bind fun list rest₂ shorter₂ ↦
        (eat ending .fromKw rest₂).bind fun _ rest₃ shorter₃ ↦
          (identifier ending rest₃).bind fun name rest₄ shorter₄ ↦
            .read ⟨token, list, name⟩ rest₄ (by omega)

/-- `comparison := operand operator operand`, behind its left operand. -/
def comparison (left : Operand) (tokens : List Token) : Exit Condition tokens.length :=
  (take ending (fun t ↦ (ComparisonOperator.ofKind? t.kind).map (·, t))
    (fun t ↦ .missingComparison (toString t)) tokens).bind fun op rest shorter ↦
      (take ending Operand.ofToken? (fun t ↦ .unrecognizedOperand t.kind.name) rest).bind
        fun right rest' shorter' ↦
          .read (.comparison ⟨op.2, op.1, left, right⟩) rest' (Nat.lt_trans shorter' shorter)

-- Only a call for a rule that binds tighter is made on the same tokens; the second number counts
-- these rules. Inside a parenthesis or a negation, and behind an operator, fewer tokens are left.
mutual

/-- `expression := andCondition (OR andCondition)*`, on a level of its own. -/
def expression (levels : Levels) (tokens : List Token) : Exit Condition tokens.length × Levels :=
  levels.within (.failed (refusal ending (fun _ ↦ .nestedTooDeeply) tokens)) fun levels ↦
    chain .or levels tokens
termination_by (tokens.length, 5)
decreasing_by exact .right _ (by decide)

/-- What one operator joins: `andCondition (OR andCondition)*` or `condition (AND condition)*`. -/
def chain (op : BooleanOperator) (levels : Levels) (tokens : List Token) :
    Exit Condition tokens.length × Levels :=
  Exit.andThen (side op levels tokens) fun left rest shorter levels ↦
    links op left levels rest shorter
termination_by (tokens.length, 6 - 2 * op.binding)
decreasing_by
  · exact .right _ (by cases op <;> decide)
  · exact .left _ _ shorter

/-- What stands on either side of an operator. -/
def side (op : BooleanOperator) (levels : Levels) (tokens : List Token) :
    Exit Condition tokens.length × Levels :=
  match op with
  | .and => condition levels tokens
  | .or => chain .and levels tokens
termination_by (tokens.length, 5 - 2 * op.binding)
decreasing_by all_goals exact .right _ (by decide)

/-- The operators that follow with their right sides, each joined to all that stands on its left. -/
def links {n : Nat} (op : BooleanOperator) (left : Condition) (levels : Levels)
    (tokens : List Token) (h : tokens.length < n) : Exit Condition n × Levels :=
  match tokens with
  | [] => (.read left [] h, levels)
  | t :: rest =>
    if BooleanOperator.ofKind? t.kind = some op then
      Exit.andThen (side op levels rest) fun right rest' shorter levels ↦
        links op (.boolean t op left right) levels rest'
          (Nat.lt_trans (Nat.lt_succ_of_lt shorter) h)
    else (.read left (t :: rest) h, levels)
termination_by (tokens.length, 0)
decreasing_by
  · exact .left _ _ (Nat.lt_succ_self _)
  · exact .left _ _ (Nat.lt_succ_of_lt shorter)

/-- `condition := comparison | L_PAREN expression R_PAREN | NOT expression`. -/
def condition (levels : Levels) (tokens : List Token) : Exit Condition tokens.length × Levels :=
  match tokens with
  | [] => (.failed (refusal ending (fun t ↦ .unrecognizedCondition t.kind.name) []), levels)
  | t :: rest =>
    match t.kind with
    | .leftParen =>
      Exit.andThen (expression levels rest) fun c rest' shorter levels ↦
        ((eat ending .rightParen rest').bind fun _ rest'' shorter' ↦
          .read c rest'' (Nat.lt_succ_of_lt (Nat.lt_trans shorter' shorter)), levels)
    | .notKw =>
      Exit.andThen (expression levels rest) fun c rest' shorter levels ↦
        (.read (.negation t c) rest' (Nat.lt_succ_of_lt shorter), levels)
    | _ =>
      match Operand.ofToken? t with
      | some left =>
        ((comparison ending left rest).bind fun c rest' shorter ↦
          .read c rest' (Nat.lt_succ_of_lt shorter), levels)
      | none =>
        (.failed (refusal ending (fun t ↦ .unrecognizedCondition t.kind.name) (t :: rest)), levels)
termination_by (tokens.length, 0)

end

/-- What follows the condition of a statement: a semicolon and the end of the source. -/
def finish (statement : Statement) (tokens : List Token) : Except ParseError Statement :=
  match eat ending .semicolon tokens with
  | .failed e => .error e
  | .read _ rest _ =>
    match rest, ending with
    | [], .ok _ => .ok statement
    | rest, _ =>
      .error (refusal ending (fun t ↦ .unexpectedToken TokenKind.eof.name t.kind.name) rest)

/-- What follows the `WHERE` of a statement. -/
def clause (h : Header) (levels : Levels) (tokens : List Token) :
    Except ParseError Statement × Levels :=
  match expression ending levels tokens with
  | (.failed e, levels) => (.error e, levels)
  | (.read c rest _, levels) => (finish ending (h.statement (some c)) rest, levels)

/-- `statement := SELECT projection FROM IDENTIFIER [WHERE expression] SEMICOLON EOF`. -/
def statement (levels : Levels) (tokens : List Token) : Except ParseError Statement × Levels :=
  match header ending tokens with
  | .failed e => (.error e, levels)
  | .read h rest _ =>
    peek .whereKw rest (fun _ rest' _ ↦ clause ending h levels rest')
      (finish ending (h.statement none) rest, levels)

end

end Descent

end SelectQuery.Parser
