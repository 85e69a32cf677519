import SelectQuery.Proofs.RoundTrip

/-!
# The nodes of a parsed statement

What holds of every node of a statement that was parsed, in terms of texts and characters: names,
numbers and strings are what their kinds say, values are the texts of tokens, and each operator is
the one that its token spells (`exists_regular_of_parseWithin`). The text of a statement writes
tokens and the outline writes operators, so both rely on it.
-/

namespace SelectQuery

/-- The name is the text of an identifier. -/
structure Identifier.Regular (i : Identifier) : Prop where
  kind : i.token.kind = .identifier
  value : i.value = i.token.text
  isName : IsName i.value

/-- The number is the text of a run of digits. -/
structure NumberLiteral.Regular (n : NumberLiteral) : Prop where
  kind : n.token.kind = .number
  value : n.value = n.token.text
  isDigits : IsDigits n.value

/-- The string is all that stands between two quotes. -/
structure StringLiteral.Regular (l : StringLiteral) : Prop where
  kind : l.token.kind = .string
  text : l.token.text = "\"" ++ l.value ++ "\""
  no_quote : '"' ∉ l.value.toList

/-- The operand is the name or literal that its token makes. -/
def Operand.Regular (o : Operand) : Prop :=
  match o with
  | identifier i => o.token = i.token ∧ i.Regular
  | number n => o.token = n.token ∧ n.Regular
  | string l => o.token = l.token ∧ l.Regular

/-- The name of the column is regular, and its alias if there is one. -/
structure Column.Regular (c : Column) : Prop where
  token : c.token = c.name.token
  name : c.name.Regular
  alias? : ∀ a ∈ c.alias?, a.Regular

namespace Condition

/-- The condition and every condition inside of it. -/
def nodes : Condition → List Condition
  | comparison c => [.comparison c]
  | boolean t op l r => .boolean t op l r :: (l.nodes ++ r.nodes)
  | negation t e => .negation t e :: e.nodes

/-- Both sides of every comparison. -/
def operands : Condition → List Operand
  | comparison c => [c.left, c.right]
  | boolean _ _ l r => l.operands ++ r.operands
  | negation _ e => e.operands

/-- The topmost node is what its token says: the operator is that of the token's kind and is shown
as the token's text. -/
def Regular : Condition → Prop
  | comparison c => ComparisonOperator.ofKind? c.token.kind = some c.op ∧ c.op.mark = c.token.text
  | boolean t op _ _ => BooleanOperator.ofKind? t.kind = some op ∧ op.word = t.text
  | negation t _ => t.kind = .notKw ∧ t.text = "NOT"

end Condition

/-- Every node of a statement is regular, and the statement selects everything exactly if the tokens
that it was read from say so behind `SELECT`. -/
structure Statement.Regular (s : Statement) (tokens : List Token) : Prop where
  name : s.name = "SELECT"
  token : s.token.kind = .selectKw ∧ s.token.text = "SELECT"
  /-- The star is the second token. -/
  wildcard_iff : ∀ star, s.projection = .wildcard star ↔ tokens[1]? = some star ∧ star.kind = .star
  /-- It stands for one column without an alias. -/
  wildcard : ∀ star, s.projection = .wildcard star →
    star.text = "*" ∧ s.projection.toList = [⟨⟨star⟩, none⟩]
  columns : ∀ list, s.projection = .columns list → list ≠ [] ∧ ∀ c ∈ list, c.Regular
  table : s.table.Regular
  nodes : ∀ c ∈ s.condition?, ∀ node ∈ c.nodes, node.Regular
  operands : ∀ c ∈ s.condition?, ∀ o ∈ c.operands, o.Regular

/-- A well-formed name is regular. -/
theorem Identifier.WellFormed.regular {i : Identifier} (h : i.WellFormed) : i.Regular := by
  obtain ⟨hkind, hlexeme⟩ := h
  rw [Token.IsLexeme, hkind, TokenKind.lexeme_identifier_iff] at hlexeme
  exact ⟨hkind, rfl, hlexeme⟩

/-- A well-formed operand is regular. -/
theorem Operand.WellFormed.regular {o : Operand} (h : o.WellFormed) : o.Regular := by
  obtain ⟨hmade, hlexeme⟩ := h
  rw [Token.IsLexeme] at hlexeme
  unfold ofToken? at hmade
  split at hmade
  next hkind =>
    rw [hkind, TokenKind.lexeme_number_iff] at hlexeme
    cases o with
    | number n => exact ⟨rfl, hkind, rfl, hlexeme⟩
    | _ => cases hmade
  next hkind =>
    cases o with
    | identifier i => exact ⟨rfl, Identifier.WellFormed.regular ⟨hkind, hlexeme⟩⟩
    | _ => cases hmade
  next hkind =>
    rw [hkind] at hlexeme
    obtain ⟨body, hbody, htext⟩ := TokenKind.exists_body_of_lexeme hlexeme
    cases o with
    | string l =>
      have hvalue : l.value = .ofList body := by
        rw [StringLiteral.value, show l.token.text = _ from htext, StringLiteral.unquote_quoted]
      refine ⟨rfl, hkind, ?_, by rwa [hvalue, String.toList_ofList]⟩
      rw [show l.token.text = _ from htext, hvalue]
      simp [String.append_assoc]
    | _ => cases hmade
  next => cases hmade

/-- A well-formed column is regular. -/
theorem Column.WellFormed.regular {c : Column} (h : c.WellFormed) : c.Regular :=
  ⟨rfl, h.name.regular, fun a ha ↦ (h.alias? a ha).regular⟩

namespace Condition.WellFormed

variable {c : Condition}

/-- A well-formed condition is regular. -/
theorem regular (h : c.WellFormed) : c.Regular := by
  cases c with
  | comparison c => exact ⟨h.kind, h.text.symm⟩
  | boolean t op l r => exact ⟨h.1.1, h.1.2.symm⟩
  | negation t e => exact h.1

/-- The nodes of a well-formed condition are well-formed. -/
theorem of_mem_nodes (h : c.WellFormed) : ∀ node ∈ c.nodes, node.WellFormed := by
  induction c with
  | comparison c => exact List.forall_mem_singleton.mpr h
  | boolean t op l r ihl ihr =>
    exact List.forall_mem_cons.mpr
      ⟨h, List.forall_mem_append.mpr ⟨ihl h.2.1, ihr h.2.2⟩⟩
  | negation t e ih => exact List.forall_mem_cons.mpr ⟨h, ih h.2⟩

/-- So are its operands. -/
theorem of_mem_operands (h : c.WellFormed) : ∀ o ∈ c.operands, o.WellFormed := by
  induction c with
  | comparison c => simpa [operands] using ⟨h.left, h.right⟩
  | boolean t op l r ihl ihr => exact List.forall_mem_append.mpr ⟨ihl h.2.1, ihr h.2.2⟩
  | negation t e ih => exact ih h.2

end Condition.WellFormed

private theorem Projection.ColumnsSpelled.exists_head {columns : List Column} {tokens : List Token}
    (h : ColumnsSpelled columns tokens) : ∃ t rest, tokens = t :: rest ∧ t.kind = .identifier := by
  induction h with
  | single hc =>
    cases hc with
    | name hn => exact ⟨_, _, rfl, hn⟩
    | aliased hn => exact ⟨_, _, rfl, hn⟩
  | more _ _ _ ih =>
    obtain ⟨t, rest, rfl, ht⟩ := ih
    exact ⟨t, _, rfl, ht⟩

private theorem Projection.Spelled.eq_wildcard_iff {p : Projection} {tokens : List Token}
    (h : p.Spelled tokens) (rest : List Token) (star : Token) :
    p = .wildcard star ↔ (tokens ++ rest)[0]? = some star ∧ star.kind = .star := by
  cases p with
  | wildcard star' =>
    obtain ⟨hstar, rfl⟩ := h
    simp only [wildcard.injEq, List.singleton_append, List.getElem?_cons_zero, Option.some.injEq]
    exact ⟨fun heq ↦ ⟨heq, heq ▸ hstar⟩, And.left⟩
  | columns list =>
    obtain ⟨t, rest', rfl, ht⟩ := ColumnsSpelled.exists_head h
    simp only [reduceCtorEq, List.cons_append, List.getElem?_cons_zero, Option.some.injEq,
      false_iff, not_and]
    rintro rfl hstar
    rw [ht] at hstar
    cases hstar

private theorem Statement.Spelled.exists_projection {s : Statement} {n : Nat} {tokens : List Token}
    (h : s.Spelled n tokens) :
    ∃ list rest, tokens = s.token :: (list ++ rest) ∧ s.projection.Spelled list := by
  cases h with
  | @unconditional h e _ hh _ =>
    cases hh with
    | @intro f list _ hp _ _ => exact ⟨list, [f, h.table.token, e], by simp [Header.statement], hp⟩
  | @conditional h l w e _ hh _ _ _ =>
    cases hh with
    | @intro f list _ hp _ _ =>
      exact ⟨list, [f, h.table.token, w] ++ l.tokens ++ [e], by simp [Header.statement], hp⟩

/-- The second of the tokens that spell a statement decides what it selects. -/
theorem Statement.Spelled.projection_eq_wildcard_iff {s : Statement} {n : Nat} {tokens : List Token}
    (h : s.Spelled n tokens) (behind : List Token) (star : Token) :
    s.projection = .wildcard star ↔
      (tokens ++ behind)[1]? = some star ∧ star.kind = .star := by
  obtain ⟨list, rest, rfl, hp⟩ := h.exists_projection
  rw [List.cons_append, List.getElem?_cons_succ, List.append_assoc]
  exact hp.eq_wildcard_iff _ star

/-- A well-formed statement is regular, given how its projection begins. -/
theorem Statement.WellFormed.regular {s : Statement} (h : s.WellFormed) {tokens : List Token}
    (hstar : ∀ star, s.projection = .wildcard star ↔ tokens[1]? = some star ∧ star.kind = .star) :
    s.Regular tokens where
  name := h.name
  token := ⟨h.kind, h.text.trans h.name⟩
  wildcard_iff := hstar
  wildcard := by
    intro star hp
    have hwf := h.projection
    rw [hp] at hwf ⊢
    exact ⟨hwf.2, rfl⟩
  columns := by
    intro list hp
    have hwf := h.projection
    rw [hp] at hwf
    exact ⟨hwf.1, fun c hc ↦ (hwf.2 c hc).regular⟩
  table := h.table.regular
  nodes c hc node hnode := ((h.condition? c hc).of_mem_nodes node hnode).regular
  operands c hc o ho := ((h.condition? c hc).of_mem_operands o ho).regular

/-- Every node of a statement that was parsed is regular, whatever the source and the limit. -/
theorem exists_regular_of_parseWithin {limit : Nat} {source : String} {s : Statement}
    (h : parseWithin limit source = .ok s) :
    ∃ tokens, tokenize source = .ok tokens ∧ s.Regular tokens := by
  obtain ⟨n, -, hspelled, offset, hending⟩ := parseWithin_eq_ok_iff_spelled.mp h
  exact ⟨_, tokenize_eq_ok_iff.mpr ⟨offset, hending, rfl⟩,
    (hspelled.wellFormed hspelled.isLexeme).regular (hspelled.projection_eq_wildcard_iff _)⟩

/-- Names with and without an alias, a negation, both joins, and a string with a character of two
bytes. -/
def everyKindOfNode : String :=
  "SELECT a AS b, _c1 FROM t WHERE NOT (x != \"é\" AND 10 <= y OR z = \"\");"

/-- What is regular here are six nodes and six operands. -/
theorem exists_regular_of_parseWithin_everyKindOfNode : ∃ s tokens,
    parseWithin 3 everyKindOfNode = .ok s ∧ tokenize everyKindOfNode = .ok tokens ∧
      s.Regular tokens ∧
      s.condition?.map (fun c ↦ c.nodes.map fun node ↦ node.token.text) =
        some ["NOT", "OR", "AND", "!=", "<=", "="] ∧
      s.condition?.map (fun c ↦ c.operands.map fun o ↦ o.token.text) =
        some ["x", "\"é\"", "10", "y", "z", "\"\""] := by
  have hparts : (parseWithin 3 everyKindOfNode).toOption.map (fun s ↦
      (s.condition?.map (fun c ↦ c.nodes.map fun node ↦ node.token.text),
        s.condition?.map (fun c ↦ c.operands.map fun o ↦ o.token.text))) =
      some (some ["NOT", "OR", "AND", "!=", "<=", "="],
        some ["x", "\"é\"", "10", "y", "z", "\"\""]) := by decide +kernel
  obtain ⟨s, h, hparts⟩ := exists_parseWithin_eq_ok hparts
  obtain ⟨tokens, htokens, hregular⟩ := exists_regular_of_parseWithin h
  obtain ⟨hnodes, hoperands⟩ := Prod.mk.inj hparts
  exact ⟨s, tokens, h, htokens, hregular, hnodes, hoperands⟩

end SelectQuery
