import SelectQuery.Proofs.Replacement

/-!
# Tokens without places

A parser looks at the kinds of tokens and keeps their texts; their spans go into error messages
alone. So a run over tokens without places leads to the same states without places
(`Parser.State.map_bare_run?`), which is a case of replacing tokens, and what is written of a
statement does not show them.
-/

namespace SelectQuery

/-- The token without its place. -/
def Token.bare (t : Token) : Token := { t with span := ⟨0, 0⟩ }

/-- A token keeps its kind without its place. -/
@[simp] theorem Token.kind_bare (t : Token) : t.bare.kind = t.kind := rfl

/-- A token keeps its text without its place. -/
@[simp] theorem Token.text_bare (t : Token) : t.bare.text = t.text := rfl

/-- Tokens agree without their places if they agree in kind and text. -/
theorem Token.bare_inj {t u : Token} : t.bare = u.bare ↔ t.kind = u.kind ∧ t.text = u.text := by
  simp [bare]

/-- The name without its place. -/
def Identifier.bare (i : Identifier) : Identifier := ⟨i.token.bare⟩

/-- The operand without its place. -/
def Operand.bare : Operand → Operand
  | identifier i => identifier ⟨i.token.bare⟩
  | number n => number ⟨n.token.bare⟩
  | string s => string ⟨s.token.bare⟩

/-- The comparison without its place. -/
def Comparison.bare (c : Comparison) : Comparison :=
  ⟨c.token.bare, c.op, c.left.bare, c.right.bare⟩

/-- The condition without its place. -/
def Condition.bare : Condition → Condition
  | comparison c => comparison c.bare
  | boolean t op l r => boolean t.bare op l.bare r.bare
  | negation t e => negation t.bare e.bare

/-- The column without its place. -/
def Column.bare (c : Column) : Column := ⟨c.name.bare, c.alias?.map Identifier.bare⟩

/-- The projection without its place. -/
def Projection.bare : Projection → Projection
  | wildcard star => wildcard star.bare
  | columns list => columns (list.map Column.bare)

/-- The statement without its place: statements that agree in this differ in spans alone. -/
def Statement.bare (s : Statement) : Statement :=
  ⟨s.token.bare, s.name, s.projection.bare, s.table.bare, s.condition?.map Condition.bare⟩

namespace Frame

/-- The frame without its place. -/
def bare : Frame → Frame
  | paren => paren
  | negation t => negation t.bare
  | conjunct left t => conjunct left.bare t.bare
  | disjunct left t => disjunct left.bare t.bare

end Frame

/-- The header without its place. -/
def Header.bare (h : Header) : Header := ⟨h.token.bare, h.projection.bare, h.table.bare⟩

namespace Parser.State

/-- The state without places. -/
def bare : State → State
  | start => start
  | projection token => projection token.bare
  | wildcard token star => wildcard token.bare star.bare
  | column token columns => column token.bare (columns.map Column.bare)
  | columnName token columns name => columnName token.bare (columns.map Column.bare) name.bare
  | columnAlias token columns name => columnAlias token.bare (columns.map Column.bare) name.bare
  | columnEnd token columns => columnEnd token.bare (columns.map Column.bare)
  | table token list => table token.bare list.bare
  | tableName h => tableName h.bare
  | expression h frames => expression h.bare (frames.map Frame.bare)
  | condition h frames => condition h.bare (frames.map Frame.bare)
  | operator h frames left => operator h.bare (frames.map Frame.bare) left.bare
  | operand h frames left op token =>
    operand h.bare (frames.map Frame.bare) left.bare op token.bare
  | conditionEnd h frames c => conditionEnd h.bare (frames.map Frame.bare) c.bare
  | complete s => complete s.bare

end Parser.State

/-- Every token is replaced by itself without its place. -/
def Replacement.bare : Replacement where
  token := Token.bare
  place _ := 0
  kind_token _ := rfl
  span_token _ := rfl
  token_eof _ := rfl

/-- Taking the places from an operand is a replacement of its token. -/
theorem Operand.replace_bare : Operand.replace .bare = Operand.bare := by
  funext o
  cases o <;> rfl

/-- Taking the places from a condition is a replacement of its tokens. -/
theorem Condition.replace_bare : Condition.replace .bare = Condition.bare := by
  funext c
  induction c with
  | comparison c =>
    simp only [replace, bare, Comparison.replace, Comparison.bare, Operand.replace_bare]
    rfl
  | boolean t op l r ihl ihr =>
    simp only [replace, bare, ihl, ihr]
    rfl
  | negation t c ih =>
    simp only [replace, bare, ih]
    rfl

/-- Taking the places from a projection is a replacement of its tokens. -/
theorem Projection.replace_bare : Projection.replace .bare = Projection.bare := by
  funext p
  cases p <;> rfl

/-- Taking the places from a statement is a replacement of its tokens. -/
theorem Statement.replace_bare : Statement.replace .bare = Statement.bare := by
  funext s
  simp only [replace, bare, Projection.replace_bare, Condition.replace_bare]
  rfl

/-- Taking the places from what precedes a condition is a replacement of its tokens. -/
theorem Header.replace_bare : Header.replace .bare = Header.bare := by
  funext h
  simp only [replace, bare, Projection.replace_bare]
  rfl

/-- Taking the places from a frame is a replacement of its tokens. -/
theorem Frame.replace_bare : Frame.replace .bare = Frame.bare := by
  funext f
  cases f <;> simp only [replace, bare, Condition.replace_bare] <;> rfl

namespace Parser.State

/-- Taking the places from a state is a replacement of its tokens. -/
theorem replace_bare : replace .bare = bare := by
  funext s
  cases s <;> simp only [replace, bare, Projection.replace_bare, Header.replace_bare,
    Frame.replace_bare, Operand.replace_bare, Condition.replace_bare, Statement.replace_bare] <;>
    rfl

/-- What operand a token makes does not depend on its place. -/
theorem ofToken?_bare (t : Token) :
    Operand.ofToken? t.bare = (Operand.ofToken? t).map Operand.bare := by
  rw [← Operand.replace_bare]
  exact ofToken?_replace .bare t

/-- Runs do not look at places. -/
theorem map_bare_run? (limit : Nat) (s : State) (tokens : List Token) :
    (s.run? limit tokens).map bare = s.bare.run? limit (tokens.map Token.bare) := by
  rw [← replace_bare]
  exact (run?_replace .bare limit s tokens).symm

/-- A state is complete where it is complete without places. -/
theorem bare_eq_complete_iff {s : State} {statement : Statement} :
    s.bare = complete statement ↔ ∃ S, s = complete S ∧ S.bare = statement := by
  rw [← replace_bare, ← Statement.replace_bare]
  exact replace_eq_complete_iff .bare

end Parser.State

namespace Condition

private theorem render_operand (o : Operand) : o.bare.render = o.render := by
  cases o <;> rfl

private theorem render_comparison (c : Comparison) : c.bare.render = c.render := by
  unfold Comparison.render
  rw [show c.bare.left = c.left.bare from rfl, show c.bare.right = c.right.bare from rfl,
    render_operand, render_operand]
  rfl

private theorem needsParens_bare (parent : BooleanOperator) (side : Side) (c : Condition) :
    c.bare.needsParens parent side = c.needsParens parent side := by
  cases c <;> rfl

private theorem renderSpine_bare (c : Condition) (pending : List String) :
    c.bare.renderSpine pending = c.renderSpine pending := by
  induction c generalizing pending with
  | comparison c => simp only [bare, renderSpine, render_comparison]
  | negation t e ih => simp only [bare, renderSpine, ih, Token.text_bare]
  | boolean t op l r ihl ihr =>
    simp only [bare, renderSpine, ihl, ihr, needsParens_bare, Token.text_bare]

private theorem outlineSpine_bare (c : Condition) (opened : String) (pending : List String) :
    c.bare.outlineSpine opened pending = c.outlineSpine opened pending := by
  induction c generalizing opened pending with
  | comparison c => simp only [bare, outlineSpine, render_comparison]
  | negation t e ih => simp only [bare, outlineSpine, ih]
  | boolean t op l r ihl ihr => simp only [bare, outlineSpine, ihl, ihr]

end Condition

private theorem Column.render_bare (c : Column) : c.bare.render = c.render := by
  obtain ⟨name, _ | a⟩ := c <;> rfl

private theorem Projection.render_bare (p : Projection) : p.bare.render = p.render := by
  unfold Projection.render
  cases p with
  | wildcard star => rfl
  | columns list => simp [bare, toList, Function.comp_def, Column.render_bare]

/-- The text of a statement shows no places. -/
theorem Statement.render_bare (s : Statement) : s.bare.render = s.render := by
  obtain ⟨token, name, projection, table, _ | c⟩ := s
  · simp only [bare, render, Projection.render_bare]
    rfl
  · simp only [bare, render, Projection.render_bare, Option.map_some, Condition.render,
      Condition.renderSpine_bare]
    rfl

/-- The outline of a statement shows no places. -/
theorem Statement.outline_bare (s : Statement) : s.bare.outline = s.outline := by
  obtain ⟨token, name, projection, table, _ | c⟩ := s
  · simp only [bare, outline, Projection.render_bare]
    rfl
  · simp only [bare, outline, Projection.render_bare, Option.map_some, Condition.outline,
      Condition.outlineSpine_bare]
    rfl

open Parser.State (start complete) in
/-- A source is parsed as any tokens that differ from its own in places at most lead to a
statement, but for places. -/
theorem parseWithin_iff_of_map_bare {source : String} {tokens : List Token} {stop : Nat}
    (htokens : (Lexer.ofSource source).remaining.1.map Token.bare = tokens.map Token.bare)
    (hending : (Lexer.ofSource source).remaining.2 = .ok stop) (limit : Nat) (bare : Statement) :
    (∃ s, parseWithin limit source = .ok s ∧ s.bare = bare) ↔
      (start.run? limit tokens).map Parser.State.bare = some (complete bare) := by
  rw [← Statement.replace_bare, ← Parser.State.replace_bare]
  exact parseWithin_iff_of_map_token .bare htokens hending limit bare

/-- Statements that differ in places alone have one outline and one text. -/
theorem outline_render_of_bare {s s' : Statement} (h : s'.bare = s.bare) :
    s'.outline = s.outline ∧ s'.render = s.render := by
  rw [← s'.outline_bare, ← s'.render_bare, h, s.outline_bare, s.render_bare]
  exact ⟨rfl, rfl⟩

end SelectQuery
