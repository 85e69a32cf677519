import SelectQuery.Proofs.Layout
import SelectQuery.Proofs.Writing

/-!
# Well-formed statements

A statement built by hand is well-formed if its tokens are ones that could have been read for it.
`Condition.layout` puts the parentheses into a condition that its text shows, and a layout that is
`Condition.Decorated` may have more of them. All these layouts of a well-formed condition are
proper and stand for it; that of its text is as deep as `Condition.need` says.
-/

namespace SelectQuery

/-- A name is an identifier: a word that is no keyword. -/
def Identifier.WellFormed (i : Identifier) : Prop :=
  i.token.kind = .identifier ∧ i.token.IsLexeme

/-- The token of an operand is of its kind: an identifier, a run of digits or a closed string. -/
def Operand.WellFormed (o : Operand) : Prop :=
  Operand.ofToken? o.token = some o ∧ o.token.IsLexeme

/-- The token of a comparison agrees with its operator in kind and text. -/
structure Comparison.WellFormed (c : Comparison) : Prop where
  left : c.left.WellFormed
  right : c.right.WellFormed
  kind : ComparisonOperator.ofKind? c.token.kind = some c.op
  text : c.token.text = c.op.mark

/-- Every token of a condition agrees with its node in kind and text. -/
def Condition.WellFormed : Condition → Prop
  | comparison c => c.WellFormed
  | boolean t op l r =>
    (BooleanOperator.ofKind? t.kind = some op ∧ t.text = op.word) ∧ l.WellFormed ∧ r.WellFormed
  | negation t e => (t.kind = .notKw ∧ t.text = "NOT") ∧ e.WellFormed

/-- The name of a column and its alias, if there is one, are identifiers. -/
structure Column.WellFormed (c : Column) : Prop where
  name : c.name.WellFormed
  alias? : ∀ a ∈ c.alias?, a.WellFormed

/-- A projection is a star, or a list of columns that is not empty. -/
def Projection.WellFormed : Projection → Prop
  | wildcard star => star.kind = .star ∧ star.text = "*"
  | columns list => list ≠ [] ∧ ∀ c ∈ list, c.WellFormed

/-- The statement is a `SELECT` whose token says so, and its parts are well-formed. -/
structure Statement.WellFormed (s : Statement) : Prop where
  name : s.name = Statement.command
  kind : s.token.kind = .selectKw
  text : s.token.text = s.name
  projection : s.projection.WellFormed
  table : s.table.WellFormed
  condition? : ∀ c ∈ s.condition?, c.WellFormed

/-- Whether a name is well-formed is decided by its token. -/
instance (i : Identifier) : Decidable i.WellFormed :=
  inferInstanceAs (Decidable (i.token.kind = .identifier ∧ i.token.IsLexeme))

/-- Whether an operand is well-formed is decided by its token. -/
instance (o : Operand) : Decidable o.WellFormed :=
  inferInstanceAs (Decidable (Operand.ofToken? o.token = some o ∧ o.token.IsLexeme))

/-- Whether a comparison is well-formed is decided by its parts. -/
instance (c : Comparison) : Decidable c.WellFormed :=
  decidable_of_iff
    (c.left.WellFormed ∧ c.right.WellFormed ∧
      ComparisonOperator.ofKind? c.token.kind = some c.op ∧ c.token.text = c.op.mark)
    ⟨fun ⟨hl, hr, hkind, htext⟩ ↦ ⟨hl, hr, hkind, htext⟩,
      fun h ↦ ⟨h.left, h.right, h.kind, h.text⟩⟩

/-- Whether a condition is well-formed is decided node by node. -/
instance Condition.decidableWellFormed : (c : Condition) → Decidable c.WellFormed
  | comparison c => inferInstanceAs (Decidable c.WellFormed)
  | boolean t op l r =>
    have := decidableWellFormed l
    have := decidableWellFormed r
    inferInstanceAs (Decidable
      ((BooleanOperator.ofKind? t.kind = some op ∧ t.text = op.word) ∧ l.WellFormed ∧ r.WellFormed))
  | negation t e =>
    have := decidableWellFormed e
    inferInstanceAs (Decidable ((t.kind = .notKw ∧ t.text = "NOT") ∧ e.WellFormed))

/-- Whether a column is well-formed is decided by its names. -/
instance (c : Column) : Decidable c.WellFormed :=
  decidable_of_iff (c.name.WellFormed ∧ ∀ a ∈ c.alias?, a.WellFormed)
    ⟨fun ⟨hname, halias⟩ ↦ ⟨hname, halias⟩, fun h ↦ ⟨h.name, h.alias?⟩⟩

/-- Whether a projection is well-formed is decided by its star or its columns. -/
instance : (p : Projection) → Decidable p.WellFormed
  | .wildcard star => inferInstanceAs (Decidable (star.kind = .star ∧ star.text = "*"))
  | .columns list => inferInstanceAs (Decidable (list ≠ [] ∧ ∀ c ∈ list, c.WellFormed))

/-- Whether a statement is well-formed is decided by its parts. -/
instance (s : Statement) : Decidable s.WellFormed :=
  decidable_of_iff
    (s.name = Statement.command ∧ s.token.kind = .selectKw ∧ s.token.text = s.name ∧
      s.projection.WellFormed ∧ s.table.WellFormed ∧ ∀ c ∈ s.condition?, c.WellFormed)
    ⟨fun ⟨hname, hkind, htext, hp, ht, hc⟩ ↦ ⟨hname, hkind, htext, hp, ht, hc⟩,
      fun h ↦ ⟨h.name, h.kind, h.text, h.projection, h.table, h.condition?⟩⟩

/-- How many expressions are open at once where most are in the text of a condition. -/
def Condition.need : Condition → Nat
  | comparison _ => 1
  | negation _ e => 1 + e.need
  | boolean _ op l r =>
    max (l.need + if l.needsParens op .left then 1 else 0)
      (r.need + if r.needsParens op .right then 1 else 0)

/-- The least limit on nesting under which the text of a statement is read back. -/
def Statement.need (s : Statement) : Nat :=
  match s.condition? with
  | some c => c.need
  | none => 0

/-- The one text of the kind of a comparison is the mark of the comparison. -/
theorem ComparisonOperator.text?_of_ofKind? {k : TokenKind} {op : ComparisonOperator}
    (h : ofKind? k = some op) : k.text? = some op.mark := by
  cases k <;> cases h <;> rfl

/-- The one text of the kind of a join is the word for the join. -/
theorem BooleanOperator.text?_of_ofKind? {k : TokenKind} {op : BooleanOperator}
    (h : ofKind? k = some op) : k.text? = some op.word := by
  cases k <;> cases h <;> rfl

/-- The mark of a comparison is written between blanks. -/
theorem ComparisonOperator.isFree_of_ofKind? {k : TokenKind} {op : ComparisonOperator}
    (h : ofKind? k = some op) : k.isFree := by
  cases k <;> cases h <;> rfl

/-- The word for a join is written between blanks. -/
theorem BooleanOperator.isFree_of_ofKind? {k : TokenKind} {op : BooleanOperator}
    (h : ofKind? k = some op) : k.isFree := by
  cases k <;> cases h <;> rfl

namespace Layout

/-- A layout, in parentheses if need be. -/
def fence (parens : Bool) (l : Layout) : Layout :=
  if parens then .paren (.ofKind .leftParen) l (.ofKind .rightParen) else l

/-- Parentheses leave the tree as it is. -/
@[simp] theorem tree_fence (parens : Bool) (l : Layout) : (l.fence parens).tree = l.tree := by
  cases parens <;> rfl

/-- Parentheses are one level deep. -/
theorem depth_fence (parens : Bool) (l : Layout) :
    (l.fence parens).depth = l.depth + if parens then 1 else 0 := by
  cases parens with
  | true => exact Nat.add_comm 1 l.depth
  | false => rfl

/-- Parentheses do no harm. -/
theorem Proper.fence {l : Layout} (h : l.Proper) (parens : Bool) : (l.fence parens).Proper := by
  cases parens with
  | true => exact ⟨rfl, h, rfl⟩
  | false => exact h

/-- Parentheses are lexemes. -/
theorem isLexeme_fence {l : Layout} (h : ∀ t ∈ l.tokens, t.IsLexeme) (parens : Bool) :
    ∀ t ∈ (l.fence parens).tokens, t.IsLexeme := by
  cases parens with
  | true =>
    have hopening : (Token.ofKind .leftParen).IsLexeme := Token.isLexeme_ofKind rfl
    have hclosing : (Token.ofKind .rightParen).IsLexeme := Token.isLexeme_ofKind rfl
    exact List.forall_mem_cons.mpr ⟨hopening,
      List.forall_mem_append.mpr ⟨h, List.forall_mem_singleton.mpr hclosing⟩⟩
  | false => exact h

end Layout

namespace Condition

/-- A condition with the parentheses that its text shows. -/
def layout : Condition → Layout
  | comparison c => .comparison c
  | boolean t op l r =>
    .boolean t op (l.layout.fence (l.needsParens op .left))
      (r.layout.fence (r.needsParens op .right))
  | negation t e => .negation t e.layout

/-- What is needed is the level of the clause and the depth of the layout. -/
theorem need_eq (c : Condition) : c.need = 1 + c.layout.depth := by
  induction c with
  | comparison c => rfl
  | boolean t op l r ihl ihr =>
    simp only [need, layout, Layout.depth, Layout.depth_fence, ihl, ihr]
    omega
  | negation t e ih => simp only [need, layout, Layout.depth, ih]

/-- The layout shows a condition with the parentheses that its text shows, and perhaps more of them
around any of its parts. -/
inductive Decorated : Condition → Layout → Prop where
  | comparison (c : Comparison) : Decorated (.comparison c) (.comparison c)
  | negation {t : Token} {e : Condition} {l : Layout} : Decorated e l →
      Decorated (.negation t e) (.negation t l)
  | boolean {t : Token} {op : BooleanOperator} {cl cr : Condition} {l r : Layout} :
      Decorated cl l → Decorated cr r →
      Decorated (.boolean t op cl cr)
        (.boolean t op (l.fence (cl.needsParens op .left)) (r.fence (cr.needsParens op .right)))
  | paren {c : Condition} {l : Layout} : Decorated c l → Decorated c (l.fence true)

/-- The layout of the text shows no more. -/
theorem decorated_layout (c : Condition) : c.Decorated c.layout := by
  induction c with
  | comparison c => exact .comparison c
  | boolean t op l r ihl ihr => exact .boolean ihl ihr
  | negation t e ih => exact .negation ih

namespace Decorated

variable {c : Condition} {l : Layout}

/-- The parentheses are put around the same tree. -/
theorem tree_eq (h : c.Decorated l) : l.tree = c := by
  induction h with
  | comparison c => rfl
  | negation _ ih => rw [Layout.tree, ih]
  | boolean _ _ ihl ihr => rw [Layout.tree, Layout.tree_fence, Layout.tree_fence, ihl, ihr]
  | paren _ ih => rw [Layout.tree_fence, ih]

/-- A side of a boolean node never ends with a negation. -/
theorem isOpen_fence (h : c.Decorated l) (parent : BooleanOperator) (side : Side) :
    (l.fence (c.needsParens parent side)).isOpen = false := by
  induction h generalizing parent side with
  | comparison c => rfl
  | negation _ _ => rfl
  | @boolean t op cl cr l r _ _ _ ihr =>
    cases (Condition.boolean t op cl cr).needsParens parent side with
    | true => rfl
    | false => exact ihr op .right
  | @paren c l _ _ => cases c.needsParens parent side <;> rfl

/-- The left side binds at least as tightly as the operator. -/
theorem le_binding_fence (h : c.Decorated l) (parent : BooleanOperator) :
    parent.binding ≤ (l.fence (c.needsParens parent .left)).binding := by
  have hlt := parent.binding_lt_three
  cases hparens : c.needsParens parent .left with
  | true => exact Nat.le_of_lt hlt
  | false =>
    cases h with
    | comparison c => exact Nat.le_of_lt hlt
    | negation _ => cases hparens
    | @boolean t op cl cr l r _ _ =>
      have hop : parent.binding ≤ op.binding := by simpa [needsParens] using hparens
      exact hop
    | paren _ => exact Nat.le_of_lt hlt

/-- The right side binds tighter than the operator. -/
theorem lt_binding_fence (h : c.Decorated l) (parent : BooleanOperator) :
    parent.binding < (l.fence (c.needsParens parent .right)).binding := by
  have hlt := parent.binding_lt_three
  cases hparens : c.needsParens parent .right with
  | true => exact hlt
  | false =>
    cases h with
    | comparison c => exact hlt
    | negation _ => cases hparens
    | @boolean t op cl cr l r _ _ =>
      have hop : parent.binding ≤ op.binding ∧ op.binding ≠ parent.binding := by
        simpa [needsParens] using hparens
      exact Nat.lt_of_le_of_ne hop.1 hop.2.symm
    | paren _ => exact hlt

/-- The parentheses suffice to read a well-formed condition back. -/
theorem proper (h : c.Decorated l) (hc : c.WellFormed) : l.Proper := by
  induction h with
  | comparison c => exact ⟨hc.left.1, hc.kind, hc.right.1⟩
  | negation _ ih => exact ⟨hc.1.1, ih hc.2⟩
  | boolean hl hr ihl ihr =>
    obtain ⟨⟨hkind, -⟩, hcl, hcr⟩ := hc
    exact ⟨⟨hkind, (ihl hcl).fence _, (ihr hcr).fence _⟩, hl.isOpen_fence _ .left,
      hl.le_binding_fence _, hr.lt_binding_fence _⟩
  | paren _ ih => exact (ih hc).fence true

/-- The tokens of a well-formed condition are lexemes, and so are its parentheses. -/
theorem isLexeme (h : c.Decorated l) (hc : c.WellFormed) : ∀ t ∈ l.tokens, t.IsLexeme := by
  induction h with
  | comparison c =>
    have hop : c.token.IsLexeme :=
      (TokenKind.lexeme_iff (ComparisonOperator.text?_of_ofKind? hc.kind)).mpr hc.text
    simp [Layout.tokens, hc.left.2, hop, hc.right.2]
  | @negation t e l _ ih =>
    obtain ⟨⟨hkind, htext⟩, he⟩ := hc
    have ht : t.IsLexeme := (TokenKind.lexeme_iff (by rw [hkind]; rfl)).mpr htext
    exact List.forall_mem_cons.mpr ⟨ht, ih he⟩
  | @boolean t op cl cr l r _ _ ihl ihr =>
    obtain ⟨⟨hkind, htext⟩, hcl, hcr⟩ := hc
    have ht : t.IsLexeme :=
      (TokenKind.lexeme_iff (BooleanOperator.text?_of_ofKind? hkind)).mpr htext
    exact List.forall_mem_append.mpr ⟨Layout.isLexeme_fence (ihl hcl) _,
      List.forall_mem_cons.mpr ⟨ht, Layout.isLexeme_fence (ihr hcr) _⟩⟩
  | paren _ ih => exact Layout.isLexeme_fence (ih hc) true

end Decorated

/-- The parentheses of the text are put around the same tree. -/
theorem tree_layout (c : Condition) : c.layout.tree = c := c.decorated_layout.tree_eq

/-- The parentheses of the text suffice to read a well-formed condition back. -/
theorem WellFormed.proper_layout {c : Condition} (h : c.WellFormed) : c.layout.Proper :=
  c.decorated_layout.proper h

end Condition

end SelectQuery
