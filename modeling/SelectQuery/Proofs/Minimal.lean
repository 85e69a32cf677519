import SelectQuery.Proofs.Brackets
import SelectQuery.Proofs.Clause
import SelectQuery.Proofs.Unfenced

/-!
# Minimal parentheses

A condition is written with no more parentheses than it takes to read it back, but for those around
a negation that nothing follows inside the parentheses around it: without any other pair the text
is read as another condition (`parseWithin_without_pair`).
-/

namespace SelectQuery

private theorem Token.atClose_iff {tokens : List Token} (h : ∀ t ∈ tokens, t.IsLexeme) {q : Token}
    (hq : q.kind ≠ .leftParen) :
    AtClose tokens ↔ q.gap tokens ++ write tokens = [] ∨
      (q.gap tokens ++ write tokens).head? = some ')' := by
  cases tokens with
  | nil => simp [AtClose, gap, write]
  | cons t tokens =>
    have ht : t.IsLexeme := h t (List.mem_cons_self ..)
    have hclose : AtClose (t :: tokens) ↔ t.kind = .rightParen := by simp [AtClose]
    rw [hclose, write]
    cases hkind : t.kind with
    | rightParen => simp [gap, apart, hkind, TokenKind.clings, ht.text_eq hkind rfl]
    | comma => simp [gap, apart, hkind, TokenKind.clings, ht.text_eq hkind rfl]
    | semicolon => simp [gap, apart, hkind, TokenKind.clings, ht.text_eq hkind rfl]
    | _ => simp [gap, apart, hkind, hq, TokenKind.clings]

namespace Condition

/-- The parentheses of a text are those of its layout. What stands in one of its pairs is the text
of a condition, and without the pair the text holds the tokens that are left. -/
theorem WellFormed.exists_drop_of_matchingPair {c : Condition} (hc : c.WellFormed)
    {front inside behind : List Char}
    (hpair : Lexer.MatchingPair c.render.toList front inside behind) :
    ∃ (x : Condition) (l' : Layout) (before after : List Token), x.WellFormed ∧
      Layout.Drop x.layout before after c.layout l' ∧ inside = x.render.toList ∧
      Token.Laid (before ++ x.layout.tokens ++ after) (front ++ inside ++ behind) ∧
      (Token.AtClose after ↔ behind = [] ∨ behind.head? = some ')') := by
  obtain ⟨hsplit, houtside, hclosed⟩ := hpair
  have hlexeme := hc.written.isLexeme
  rw [← hc.written.write_eq] at hsplit
  obtain ⟨total, htotal⟩ := Option.isSome_iff_exists.mp houtside
  obtain ⟨before, p, rest, htokens, hp, hbefore, hrest⟩ :=
    Token.exists_of_write_eq hlexeme (by rfl) htotal hsplit
  rw [htokens, List.forall_mem_append, List.forall_mem_cons] at hlexeme
  obtain ⟨hlbefore, hlp, hlrest⟩ := hlexeme
  have hgap : p.gap rest = [] := by cases rest <;> simp [Token.gap, Token.apart, hp]
  rw [hgap, List.nil_append] at hrest
  obtain ⟨middle, q, after, rfl, hq, hmiddle, hafter⟩ :=
    Token.exists_of_write_eq hlrest (by rfl) hclosed hrest.symm
  rw [List.forall_mem_append, List.forall_mem_cons] at hlrest
  obtain ⟨hlmiddle, hlq, hlafter⟩ := hlrest
  -- The closing parenthesis is written right behind what stands in the pair.
  have hinside : Token.write middle = inside := by
    rw [Token.write_concat_of_clings (by rw [hq]; rfl)] at hmiddle
    exact List.append_cancel_right hmiddle
  have hdepth : Token.depthAfter? 0 middle = some 0 := by
    rw [← Token.depthAfter?_write hlmiddle, hinside, hclosed]
  obtain ⟨inner, l', hdrop, rfl⟩ := hc.proper_layout.marked.exists_drop hp hq hdepth htokens
  obtain ⟨x, hx, rfl⟩ := hc.exists_of_drop hdrop
  rw [hx.written.write_eq] at hinside
  have hwrite : Token.write (before ++ x.layout.tokens ++ after) = front ++ inside ++ behind := by
    rw [hx.written.write_between (by rw [hp]; rfl) (by rw [hq]; decide) hbefore, hinside, hafter]
  refine ⟨x, l', before, after, hx, hdrop, hinside.symm, ?_, ?_⟩
  · have hall : ∀ t ∈ before ++ x.layout.tokens ++ after, t.IsLexeme :=
      List.forall_mem_append.mpr ⟨List.forall_mem_append.mpr ⟨hlbefore, hlmiddle⟩, hlafter⟩
    have hlaid : Token.Laid _ ([] ++ Token.write _) := Token.laid_write hall (by simp)
    rwa [List.nil_append, hwrite] at hlaid
  · rw [hafter]
    exact Token.atClose_iff hlafter (by rw [hq]; decide)

/-- Whether two conditions are negations does not depend on places. -/
theorem isNegation_bare (c : Condition) : c.bare.isNegation = c.isNegation := by
  cases c <;> rfl

end Condition

/-- Parentheses are minimal but for a trailing negation. Take any pair out of the text of a
condition: the statement is still read, if the limit is high enough, but with the same condition
only if a negation stands in the pair and a closing parenthesis, or nothing, right behind it. -/
theorem parseWithin_without_pair {s : Statement} (hs : s.WellFormed) {c : Condition}
    (hc : s.condition? = some c) {front inside behind : List Char}
    (hpair : Lexer.MatchingPair c.render.toList front inside behind) :
    ∃ c' : Condition, s.ReadsAs (.ofList (front ++ inside ++ behind)) c' ∧
      (c'.bare = c.bare ↔
        (∃ t e, (Condition.negation t e).WellFormed ∧
          inside = (Condition.negation t e).render.toList) ∧
        (behind = [] ∨ behind.head? = some ')')) := by
  have hwf : c.WellFormed := hs.condition? c hc
  obtain ⟨x, l', before, after, hx, hdrop, hinside, hlaid, hclose⟩ :=
    hwf.exists_drop_of_matchingPair hpair
  obtain ⟨l, hl, htokens, hiff⟩ := hwf.exists_proper_of_drop hdrop
  rw [← htokens, ← String.toList_ofList (l := front ++ inside ++ behind)] at hlaid
  have hnegation : x.isNegation ↔ ∃ t e, (Condition.negation t e).WellFormed ∧
      inside = (Condition.negation t e).render.toList := by
    constructor
    · intro hneg
      cases x with
      | negation t e => exact ⟨t, e, hx, hinside⟩
      | _ => cases hneg
    · rintro ⟨t, e, hneg, hrender⟩
      have hsame : x.render = (Condition.negation t e).render := by
        rw [← String.toList_inj, ← hinside, hrender]
      rw [← x.isNegation_bare, hs.bare_eq_of_render_eq hx hneg hsame]
      rfl
  exact ⟨l.tree, ⟨1 + l.depth, fun limit hlimit ↦ hs.parseWithin_layout hl hlaid hlimit⟩,
    by rw [hiff, hclose, hnegation]⟩

/-- A statement with the condition `(a = 1 OR (NOT b = ")")) AND c < 2`. -/
def Statement.negationInside : Statement :=
  { Statement.fencedOnBothSides with
    condition? := some (.boolean (.ofKind .andKw) .and
      (.boolean (.ofKind .orKw) .or
        (.comparison ⟨.ofKind .equal, .equal, name "a", number "1"⟩)
        (.negation (.ofKind .notKw) (.comparison negated)))
      (.comparison ⟨.ofKind .less, .less, name "c", number "2"⟩)) }
where
  name (text : String) : Operand := .identifier ⟨⟨.identifier, text, ⟨0, 0⟩⟩⟩
  number (text : String) : Operand := .number ⟨⟨.number, text, ⟨0, 0⟩⟩⟩
  string : Operand := .string ⟨⟨.string, "\")\"", ⟨0, 0⟩⟩⟩
  negated : Comparison := ⟨.ofKind .equal, .equal, name "b", string⟩

/-- The outer pair is needed, the pair around the negation, with the outer one behind it, is not.
The parenthesis in the string is part of neither. -/
theorem parseWithin_without_pair_negationInside : ∃ c,
    Statement.negationInside.condition? = some c ∧
      (∃ c', Statement.negationInside.ReadsAs "a = 1 OR (NOT b = \")\") AND c < 2" c' ∧
        c'.bare ≠ c.bare) ∧
      ∃ c', Statement.negationInside.ReadsAs "(a = 1 OR NOT b = \")\") AND c < 2" c' ∧
        c'.bare = c.bare := by
  have hs : Statement.negationInside.WellFormed := by decide +kernel
  obtain ⟨c, hc, hrender⟩ : ∃ c, Statement.negationInside.condition? = some c ∧
      c.render = "(a = 1 OR (NOT b = \")\")) AND c < 2" := ⟨_, rfl, by decide +kernel⟩
  refine ⟨c, hc, ?_, ?_⟩
  · have hpair : Lexer.MatchingPair "(a = 1 OR (NOT b = \")\")) AND c < 2".toList []
        "a = 1 OR (NOT b = \")\")".toList " AND c < 2".toList :=
      ⟨by decide +kernel, by decide +kernel, by decide +kernel⟩
    obtain ⟨c', hreads, hiff⟩ := parseWithin_without_pair hs hc (hrender ▸ hpair)
    refine ⟨c', by simpa using hreads, fun hbare ↦ ?_⟩
    exact absurd (hiff.mp hbare).2 (by decide +kernel)
  · have hpair : Lexer.MatchingPair "(a = 1 OR (NOT b = \")\")) AND c < 2".toList
        "(a = 1 OR ".toList "NOT b = \")\"".toList ") AND c < 2".toList :=
      ⟨by decide +kernel, by decide +kernel, by decide +kernel⟩
    obtain ⟨c', hreads, hiff⟩ := parseWithin_without_pair hs hc (hrender ▸ hpair)
    exact ⟨c', by simpa using hreads, hiff.mpr ⟨⟨.ofKind .notKw,
      .comparison Statement.negationInside.negated, by decide +kernel, by decide +kernel⟩,
      by decide +kernel⟩⟩

end SelectQuery
