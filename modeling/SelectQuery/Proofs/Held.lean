import SelectQuery.Proofs.Consumed
import SelectQuery.Proofs.Slice

/-!
# The tokens that a statement holds

A statement holds tokens of its source and no others, each once and in the order of the source
(`tokens_eq_filter_isHeld`). What is not held only separates or encloses: it is left out by kind.
-/

namespace SelectQuery

/-- Whether tokens of a kind are held by statements. The others only separate or enclose what is
held. -/
def TokenKind.isHeld : TokenKind → Bool
  | fromKw | whereKw | asKw | comma | leftParen | rightParen | semicolon | eof => false
  | _ => true

/-- The tokens of a condition from left to right. -/
def Condition.tokens : Condition → List Token
  | comparison c => [c.left.token, c.token, c.right.token]
  | boolean t _ l r => l.tokens ++ t :: r.tokens
  | negation t c => t :: c.tokens

/-- The name of a column, and its alias if there is one. -/
def Column.tokens (c : Column) : List Token :=
  c.name.token :: c.alias?.toList.map Identifier.token

/-- The tokens of the columns in order; a star stands for itself. -/
def Projection.tokens (p : Projection) : List Token :=
  p.toList.flatMap Column.tokens

/-- The tokens of a statement in the order in which they are written. -/
def Statement.tokens (s : Statement) : List Token :=
  s.token :: (s.projection.tokens ++ s.table.token :: s.condition?.elim [] Condition.tokens)

private theorem TokenKind.isHeld_of_isCompared {k : TokenKind} (h : k.isCompared = true) :
    k.isHeld = true := by
  cases k <;> trivial

/-- So is the token of an operator. -/
theorem TokenKind.isHeld_of_ofKind? {k : TokenKind} {op : BooleanOperator}
    (h : BooleanOperator.ofKind? k = some op) : k.isHeld = true := by
  cases k <;> simp_all [BooleanOperator.ofKind?, isHeld]

/-- The tree of a layout holds all but its parentheses. -/
theorem Layout.Marked.filter_isHeld {l : Layout} (h : l.Marked) :
    l.tokens.filter (·.kind.isHeld) = l.tree.tokens := by
  induction l with
  | comparison c =>
    exact List.filter_eq_self.mpr fun t ht ↦
      TokenKind.isHeld_of_isCompared (Proper.isCompared h t ht)
  | paren p l q ih =>
    obtain ⟨hp, hl, hq⟩ := h
    have hopening : p.kind.isHeld = false := congrArg TokenKind.isHeld hp
    have hclosing : q.kind.isHeld = false := congrArg TokenKind.isHeld hq
    simp [tokens, tree, hopening, hclosing, ih hl]
  | negation t l ih =>
    obtain ⟨ht, hl⟩ := h
    have hheld : t.kind.isHeld = true := congrArg TokenKind.isHeld ht
    simp [tokens, tree, Condition.tokens, hheld, ih hl]
  | boolean t op l r ihl ihr =>
    obtain ⟨ht, hl, hr⟩ := h
    have hheld : t.kind.isHeld = true := TokenKind.isHeld_of_ofKind? ht
    simp [tokens, tree, Condition.tokens, hheld, ihl hl, ihr hr]

private theorem Column.Spelled.filter_isHeld {c : Column} {tokens : List Token}
    (h : c.Spelled tokens) : tokens.filter (·.kind.isHeld) = c.tokens := by
  cases h with
  | name hn => simp [Column.tokens, hn, TokenKind.isHeld]
  | aliased hn ht ha => simp [Column.tokens, hn, ht, ha, TokenKind.isHeld]

private theorem Projection.ColumnsSpelled.filter_isHeld {columns : List Column}
    {tokens : List Token} (h : ColumnsSpelled columns tokens) :
    tokens.filter (·.kind.isHeld) = columns.reverse.flatMap Column.tokens := by
  induction h with
  | single hc => simpa using hc.filter_isHeld
  | @more c columns t _ _ _ ht hc ih =>
    have hcomma : t.kind.isHeld = false := congrArg TokenKind.isHeld ht
    simp [hcomma, ih, hc.filter_isHeld]

private theorem Projection.Spelled.filter_isHeld {p : Projection} {tokens : List Token}
    (h : p.Spelled tokens) : tokens.filter (·.kind.isHeld) = p.tokens := by
  cases p with
  | wildcard star =>
    obtain ⟨hstar, rfl⟩ := h
    simp [Projection.tokens, toList, Column.ofStar, Column.tokens, hstar, TokenKind.isHeld]
  | columns list =>
    have hlist := ColumnsSpelled.filter_isHeld h
    rwa [List.reverse_reverse] at hlist

private theorem Header.Spelled.filter_isHeld {h : Header} {tokens : List Token}
    (hh : h.Spelled tokens) (condition? : Option Condition) :
    tokens.filter (·.kind.isHeld) ++ condition?.elim [] Condition.tokens =
      (h.statement condition?).tokens := by
  obtain ⟨htoken, hp, ht, htable⟩ := hh
  rename_i t _
  have hselect : h.token.kind.isHeld = true := congrArg TokenKind.isHeld htoken
  have hfrom : t.kind.isHeld = false := congrArg TokenKind.isHeld ht
  have htable : h.table.token.kind.isHeld = true := congrArg TokenKind.isHeld htable
  simp [Header.statement, Statement.tokens, hselect, hfrom, htable, hp.filter_isHeld]

/-- Of the tokens that spell a statement it holds those that do more than separate or enclose. -/
theorem Statement.Spelled.filter_isHeld {s : Statement} {n : Nat} {tokens : List Token}
    (h : s.Spelled n tokens) : tokens.filter (·.kind.isHeld) = s.tokens := by
  cases h with
  | @unconditional h t _ hh ht =>
    have hend : t.kind.isHeld = false := congrArg TokenKind.isHeld ht
    rw [← hh.filter_isHeld]
    simp [hend]
  | @conditional h l w t _ hh hw hl ht =>
    have hwhere : w.kind.isHeld = false := congrArg TokenKind.isHeld hw
    have hend : t.kind.isHeld = false := congrArg TokenKind.isHeld ht
    rw [← hh.filter_isHeld]
    simp [hwhere, hend, hl.marked.filter_isHeld]

/-- The tokens that a parsed statement holds are the tokens of the source in order, without those
that only separate or enclose, and each is the slice of the source at its span. -/
theorem tokens_eq_filter_isHeld {limit : Nat} {source : String} {s : Statement}
    (h : parseWithin limit source = .ok s) :
    ∃ tokens, tokenize source = .ok tokens ∧ s.tokens = tokens.filter (·.kind.isHeld) ∧
      ∀ t ∈ s.tokens, t.span.Covers source t.text := by
  obtain ⟨hrun, offset, hending⟩ := parseWithin_eq_ok_iff.mp h
  obtain ⟨n, -, hspelled⟩ := Parser.State.run?_start_eq_complete_iff.mp hrun
  have hheld := hspelled.filter_isHeld
  refine ⟨_, tokenize_eq_ok_iff.mpr ⟨offset, hending, rfl⟩, ?_, fun t ht ↦ ?_⟩
  · rw [List.filter_append, hheld]
    simp [Token.eof, TokenKind.isHeld]
  · rw [← hheld] at ht
    obtain ⟨front, behind, hsplit⟩ := List.append_of_mem (List.mem_filter.mp ht).1
    rw [hsplit] at hspelled
    have hcovers := Lexer.covers_of_remaining (Lexer.isAt_ofSource source) hsplit
    exact hcovers.resolve_right hspelled.not_open

/-- A source with an alias, a negation in parentheses, and a string with a parenthesis and with
characters of several bytes. -/
def stringBehindNegation : String :=
  "SELECT a AS b, c FROM t WHERE (NOT x = \"é, (ü\") OR y >= 10 ;"

/-- The words and marks in between are gone, those inside the string are not. -/
theorem tokens_eq_filter_isHeld_stringBehindNegation : ∃ s tokens,
    parseWithin 3 stringBehindNegation = .ok s ∧ tokenize stringBehindNegation = .ok tokens ∧
      s.tokens = tokens.filter (·.kind.isHeld) ∧
      s.tokens.map Token.text =
        ["SELECT", "a", "b", "c", "t", "NOT", "x", "=", "\"é, (ü\"", "OR", "y", ">=", "10"] ∧
      ∀ t ∈ s.tokens, t.span.Covers stringBehindNegation t.text := by
  have htexts : (parseWithin 3 stringBehindNegation).toOption.map
      (fun s ↦ s.tokens.map Token.text) =
      some ["SELECT", "a", "b", "c", "t", "NOT", "x", "=", "\"é, (ü\"", "OR", "y", ">=", "10"] := by
    decide +kernel
  obtain ⟨s, h, htexts⟩ := exists_parseWithin_eq_ok htexts
  obtain ⟨tokens, htokens, hheld, hcovers⟩ := tokens_eq_filter_isHeld h
  exact ⟨s, tokens, h, htokens, hheld, htexts, hcovers⟩

end SelectQuery
