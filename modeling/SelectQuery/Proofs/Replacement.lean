import SelectQuery.Proofs.Run

/-!
# Replacing tokens

A parser looks at the kinds of tokens and keeps the tokens. A `Replacement` puts another token of
the same kind in the place of each, and a run over the replaced tokens goes through the states in
which the tokens are replaced. So it comes to the same result, but for the replaced tokens in it
(`Parser.State.conclude_replace`).
-/

namespace SelectQuery

/-- A token of the same kind for every token, at a place that depends on the place alone. The end
of the source is replaced by the end of a source. -/
structure Replacement where
  token : Token → Token
  place : Nat → Nat
  kind_token : ∀ t, (token t).kind = t.kind
  span_token : ∀ t, (token t).span = ⟨place t.span.start, place t.span.stop⟩
  token_eof : ∀ offset, token (.eof offset) = .eof (place offset)

attribute [simp] Replacement.kind_token

section

variable (r : Replacement)

/-- The name over the replaced token. -/
def Identifier.replace (i : Identifier) : Identifier := ⟨r.token i.token⟩

/-- The operand over the replaced token. -/
def Operand.replace : Operand → Operand
  | identifier i => identifier ⟨r.token i.token⟩
  | number n => number ⟨r.token n.token⟩
  | string s => string ⟨r.token s.token⟩

/-- The comparison with its tokens replaced. -/
def Comparison.replace (c : Comparison) : Comparison :=
  ⟨r.token c.token, c.op, c.left.replace r, c.right.replace r⟩

/-- The condition with its tokens replaced: its shape and its operators stay. -/
def Condition.replace : Condition → Condition
  | comparison c => comparison (c.replace r)
  | boolean t op left right => boolean (r.token t) op left.replace right.replace
  | negation t c => negation (r.token t) c.replace

/-- The column with its tokens replaced. -/
def Column.replace (c : Column) : Column :=
  ⟨c.name.replace r, c.alias?.map (Identifier.replace r)⟩

/-- The projection with its tokens replaced. -/
def Projection.replace : Projection → Projection
  | wildcard star => wildcard (r.token star)
  | columns list => columns (list.map (Column.replace r))

/-- The statement with its tokens replaced. -/
def Statement.replace (s : Statement) : Statement :=
  ⟨r.token s.token, s.name, s.projection.replace r, s.table.replace r,
    s.condition?.map (Condition.replace r)⟩

/-- The header with its tokens replaced. -/
def Header.replace (h : Header) : Header :=
  ⟨r.token h.token, h.projection.replace r, h.table.replace r⟩

/-- The frame with its tokens replaced. -/
def Frame.replace : Frame → Frame
  | paren => paren
  | negation t => negation (r.token t)
  | conjunct left t => conjunct (left.replace r) (r.token t)
  | disjunct left t => disjunct (left.replace r) (r.token t)

/-- The state with its tokens replaced. -/
def Parser.State.replace : State → State
  | start => start
  | projection token => projection (r.token token)
  | wildcard token star => wildcard (r.token token) (r.token star)
  | column token columns => column (r.token token) (columns.map (Column.replace r))
  | columnName token columns name =>
    columnName (r.token token) (columns.map (Column.replace r)) (name.replace r)
  | columnAlias token columns name =>
    columnAlias (r.token token) (columns.map (Column.replace r)) (name.replace r)
  | columnEnd token columns => columnEnd (r.token token) (columns.map (Column.replace r))
  | table token list => table (r.token token) (list.replace r)
  | tableName h => tableName (h.replace r)
  | expression h frames => expression (h.replace r) (frames.map (Frame.replace r))
  | condition h frames => condition (h.replace r) (frames.map (Frame.replace r))
  | operator h frames left => operator (h.replace r) (frames.map (Frame.replace r)) (left.replace r)
  | operand h frames left op token =>
    operand (h.replace r) (frames.map (Frame.replace r)) (left.replace r) op (r.token token)
  | conditionEnd h frames c =>
    conditionEnd (h.replace r) (frames.map (Frame.replace r)) (c.replace r)
  | complete s => complete (s.replace r)

/-- The lexical error at the place that its place is replaced by. -/
def LexError.replace : LexError → LexError
  | unexpectedCharacter c position => unexpectedCharacter c (r.place position)
  | letterInNumber position => letterInNumber (r.place position)

/-- How tokens end when places are replaced. -/
def Replacement.ending : Except LexError Nat → Except LexError Nat
  | .ok offset => .ok (r.place offset)
  | .error e => .error (e.replace r)

/-- The fault at a token is found at the one that replaces it as well. Only a fault that shows the
whole token shows another. -/
def SyntaxFault.Replaced (t : Token) : SyntaxFault → SyntaxFault → Prop
  | missingComparison found, fault =>
    found = toString t ∧ fault = missingComparison (toString (r.token t))
  | fault, fault' => fault' = fault

/-- The error at some token, and the one at the token that replaces it. -/
def SyntaxError.Replaced (e e' : SyntaxError) : Prop :=
  ∃ t : Token, e.span = t.span ∧ e'.span = (r.token t).span ∧ e.fault.Replaced r t e'.fault

/-- The result of a parse, and that of the same parse over replaced tokens. -/
inductive Replaced : Except ParseError Statement → Except ParseError Statement → Prop where
  | statement (s : Statement) : Replaced (.ok s) (.ok (s.replace r))
  | lexical (e : LexError) :
      Replaced (.error (.lexical e)) (.error (.lexical (e.replace r)))
  | syntactic {e e' : SyntaxError} : e.Replaced r e' →
      Replaced (.error (.syntactic e)) (.error (.syntactic e'))

namespace Frame

/-- As much is open. -/
@[simp] theorem nesting_map_replace (frames : List Frame) :
    nesting (frames.map (replace r)) = nesting frames := by
  have hopens : opens ∘ replace r = opens := by
    funext f
    cases f <;> rfl
  rw [nesting, nesting, List.countP_map, hopens]

/-- Parentheses are not replaced. -/
@[simp] theorem contains_paren_map_replace (frames : List Frame) :
    (frames.map (replace r)).contains paren = frames.contains paren := by
  induction frames with
  | nil => rfl
  | cons f frames ih =>
    rw [List.map_cons, List.contains_cons, List.contains_cons, ih]
    cases f <;> rfl

private theorem joinConjunct_map_replace (frames : List Frame) (c : Condition) :
    joinConjunct (frames.map (replace r)) (c.replace r) =
      ((joinConjunct frames c).1.map (replace r), (joinConjunct frames c).2.replace r) := by
  cases frames with
  | nil => rfl
  | cons f frames => cases f <;> rfl

private theorem joinDisjunct_map_replace (frames : List Frame) (c : Condition) :
    joinDisjunct (frames.map (replace r)) (c.replace r) =
      ((joinDisjunct frames c).1.map (replace r), (joinDisjunct frames c).2.replace r) := by
  unfold joinDisjunct
  rw [joinConjunct_map_replace]
  rcases joinConjunct frames c with ⟨frames, c⟩
  cases frames with
  | nil => rfl
  | cons f frames => cases f <;> rfl

private theorem close_map_replace (frames : List Frame) (c : Condition) :
    close (frames.map (replace r)) (c.replace r) =
      ((close frames c).1.map (replace r), (close frames c).2.replace r) := by
  induction frames generalizing c with
  | nil => rfl
  | cons f frames ih =>
    cases f with
    | paren => rfl
    | negation t => exact ih (.negation t c)
    | conjunct left t => exact ih (.boolean t .and left c)
    | disjunct left t => exact ih (.boolean t .or left c)

end Frame

namespace Parser.State

/-- The operand that a replaced token makes. -/
theorem ofToken?_replace (t : Token) :
    Operand.ofToken? (r.token t) = (Operand.ofToken? t).map (Operand.replace r) := by
  unfold Operand.ofToken?
  rw [r.kind_token]
  cases t.kind <;> rfl

private theorem beginCondition?_replace (h : Header) (frames : List Frame) (t : Token) :
    beginCondition? (h.replace r) (frames.map (Frame.replace r)) (r.token t) =
      (beginCondition? h frames t).map (replace r) := by
  unfold beginCondition?
  rw [ofToken?_replace, r.kind_token]
  cases t.kind with
  | leftParen => rfl
  | notKw => rfl
  | _ => cases Operand.ofToken? t <;> rfl

private theorem endCondition?_replace (h : Header) (frames : List Frame) (c : Condition)
    (t : Token) :
    endCondition? (h.replace r) (frames.map (Frame.replace r)) (c.replace r) (r.token t) =
      (endCondition? h frames c t).map (replace r) := by
  unfold endCondition?
  rw [Frame.joinConjunct_map_replace, Frame.joinDisjunct_map_replace, Frame.close_map_replace,
    r.kind_token]
  rcases Frame.close frames c with ⟨frames', c'⟩
  cases t.kind with
  | rightParen => cases frames' <;> rfl
  | semicolon => cases frames' <;> rfl
  | _ => rfl

/-- A replaced token leads to the replaced state. -/
theorem step?_replace (limit : Nat) (s : State) (t : Token) :
    (s.replace r).step? limit (r.token t) = (s.step? limit t).map (replace r) := by
  cases s with
  | expression h frames =>
    simp only [replace, step?, Frame.nesting_map_replace]
    split
    next => exact beginCondition?_replace r h frames t
    next => rfl
  | condition h frames => exact beginCondition?_replace r h frames t
  | operator h frames left =>
    simp only [replace, step?, r.kind_token, Option.map_map]
    rfl
  | operand h frames left op token =>
    simp only [replace, step?, ofToken?_replace, Option.map_map]
    rfl
  | conditionEnd h frames c => exact endCondition?_replace r h frames c t
  | columnName token columns name =>
    cases hk : t.kind <;> simp [replace, step?, hk, Projection.replace, Column.replace]
  | columnAlias token columns name =>
    cases hk : t.kind <;> simp [replace, step?, hk, Column.replace, Identifier.replace]
  | columnEnd token columns =>
    cases hk : t.kind <;> simp [replace, step?, hk, Projection.replace]
  | _ =>
    cases hk : t.kind <;> simp [replace, step?, hk] <;> rfl

/-- Replaced tokens lead to the replaced state. -/
theorem run?_replace (limit : Nat) (s : State) (tokens : List Token) :
    (s.replace r).run? limit (tokens.map r.token) = (s.run? limit tokens).map (replace r) := by
  induction tokens generalizing s with
  | nil => rfl
  | cons t tokens ih =>
    rw [List.map_cons, run?_cons, run?_cons, step?_replace]
    cases s.step? limit t with
    | none => rfl
    | some s' => exact ih s'

/-- What is wrong with a token is wrong with the one that replaces it. -/
theorem fault_replace (limit : Nat) (s : State) (t : Token) :
    (s.fault limit t).Replaced r t ((s.replace r).fault limit (r.token t)) := by
  cases s with
  | expression h frames =>
    simp only [replace, fault, Frame.nesting_map_replace, r.kind_token]
    split <;> rfl
  | operator h frames left => exact ⟨rfl, rfl⟩
  | conditionEnd h frames c =>
    simp only [replace, fault, fault.expected, Frame.contains_paren_map_replace, r.kind_token]
    rfl
  | _ =>
    simp only [replace, fault, fault.expected, r.kind_token]
    rfl

/-- What replaced tokens come to is what the tokens come to, with the tokens replaced. -/
theorem conclude_replace (limit : Nat) (ending : Except LexError Nat) (s : State)
    (tokens : List Token) :
    Replaced r (s.conclude limit ending tokens)
      ((s.replace r).conclude limit (r.ending ending) (tokens.map r.token)) := by
  induction tokens generalizing s with
  | nil =>
    cases ending with
    | error e => exact .lexical e
    | ok offset =>
      have hfault := fault_replace r limit s (.eof offset)
      rw [r.token_eof] at hfault
      have herror : SyntaxError.Replaced r ⟨s.fault limit (.eof offset), ⟨offset, offset⟩⟩
          ⟨(s.replace r).fault limit (.eof (r.place offset)), ⟨r.place offset, r.place offset⟩⟩ :=
        ⟨.eof offset, rfl, by rw [r.token_eof]; rfl, hfault⟩
      cases s with
      | complete statement => exact .statement statement
      | _ => exact .syntactic herror
  | cons t tokens ih =>
    rw [List.map_cons]
    simp only [conclude, step?_replace]
    cases hs : s.step? limit t with
    | none => exact .syntactic ⟨t, rfl, rfl, fault_replace r limit s t⟩
    | some s' => exact ih s'

/-- A state is complete where it is complete once its tokens are replaced. -/
theorem replace_eq_complete_iff {s : State} {statement : Statement} :
    s.replace r = complete statement ↔ ∃ S, s = complete S ∧ S.replace r = statement := by
  cases s <;> simp [replace]

end Parser.State

open Parser.State (start complete) in
/-- A source is parsed as any tokens that have the same replacements as its own lead to a statement,
but for the replaced tokens. -/
theorem parseWithin_iff_of_map_token {source : String} {tokens : List Token} {stop : Nat}
    (htokens : (Lexer.ofSource source).remaining.1.map r.token = tokens.map r.token)
    (hending : (Lexer.ofSource source).remaining.2 = .ok stop) (limit : Nat)
    (replaced : Statement) :
    (∃ s, parseWithin limit source = .ok s ∧ s.replace r = replaced) ↔
      (start.run? limit tokens).map (Parser.State.replace r) = some (complete replaced) := by
  rw [← Parser.State.run?_replace, ← htokens, Parser.State.run?_replace, Option.map_eq_some_iff]
  constructor
  · rintro ⟨s, hs, rfl⟩
    exact ⟨complete s, (parseWithin_eq_ok_iff.mp hs).1, rfl⟩
  · rintro ⟨state, hrun, hstate⟩
    obtain ⟨s, rfl, hs⟩ := (Parser.State.replace_eq_complete_iff r).mp hstate
    exact ⟨s, parseWithin_eq_ok_iff.mpr ⟨hrun, stop, hending⟩, hs⟩

end

end SelectQuery
