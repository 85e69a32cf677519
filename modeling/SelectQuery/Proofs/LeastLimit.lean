import Mathlib.Data.List.Chain
import Mathlib.Order.Bounds.Basic
import SelectQuery.Proofs.RoundTrip
import SelectQuery.Proofs.Splitting

/-!
# Least limits

Under which limits on nesting a source is parsed: under those that are not below its nesting
(`parseWithin_of_spelled`), so that there is a least one. The text of the statement has a least
limit as well. It is less than twice that of the source, and no higher than that of the source if
every `NOT` there begins an expression (`exists_isLeast_render`): what the text nests deeper than
the source is in parentheses around a negation behind an operator.
-/

namespace SelectQuery

/-- The limits on nesting under which a source is parsed. -/
def acceptingLimits (source : String) : Set Nat :=
  {limit | ∃ s, parseWithin limit source = .ok s}

/-- Every `NOT` stands right behind `WHERE`, an opening parenthesis or another `NOT`, and so none is
a side of an `AND` or `OR` without parentheses of its own. -/
def Token.NegationsLead (tokens : List Token) : Prop :=
  tokens.IsChain fun t u ↦
    u.kind = .notKw → t.kind = .whereKw ∨ t.kind = .leftParen ∨ t.kind = .notKw

/-- Whether negations lead is decided pair by pair. -/
instance (tokens : List Token) : Decidable (Token.NegationsLead tokens) :=
  inferInstanceAs (Decidable (tokens.IsChain _))

namespace Layout

/-- Where every negation begins an expression, none is bare. -/
theorem Marked.bareNegations_eq_zero {l : Layout} (h : l.Marked)
    (hlead : Token.NegationsLead l.tokens) : l.bareNegations = 0 := by
  induction l with
  | comparison c => rfl
  | paren p l q ih =>
    have hinner : Token.NegationsLead (l.tokens ++ [q]) := List.IsChain.tail hlead
    exact ih h.2.1 hinner.left_of_append
  | negation t l ih => exact ih h.2 (List.IsChain.tail hlead)
  | boolean t op l r ihl ihr =>
    obtain ⟨ht, hl, hr⟩ := h
    have hright : Token.NegationsLead (t :: r.tokens) := hlead.right_of_append
    have hbare : r.isNegation = false := by
      cases r with
      | negation u e =>
        -- A negation would stand right behind the operator.
        exfalso
        have hbehind := (List.isChain_cons_cons.mp hright).1 hr.1
        cases hk : t.kind <;> simp_all [BooleanOperator.ofKind?]
      | _ => rfl
    have hzero := ihr hr (List.IsChain.tail hright)
    have hzero' := ihl hl hlead.left_of_append
    simp [bareNegations, hbare, hzero, hzero']

end Layout

/-- A source that spells a statement is parsed under the limits that are not below its nesting, and
always as that statement. -/
theorem parseWithin_of_spelled {source : String} {s : Statement} {n stop : Nat}
    (h : s.Spelled n (Lexer.ofSource source).remaining.1)
    (hstop : (Lexer.ofSource source).remaining.2 = .ok stop) {limit : Nat} {s' : Statement} :
    parseWithin limit source = .ok s' ↔ n ≤ limit ∧ s' = s := by
  rw [parseWithin_eq_ok_iff, Parser.State.run?_of_spelled h]
  by_cases hlimit : n ≤ limit
  · simp [hlimit, hstop, eq_comm]
  · simp [hlimit]

/-- What spells a statement nests exactly as deep as the least limit under which it is parsed. -/
theorem isLeast_acceptingLimits_of_spelled {source : String} {s : Statement} {n stop : Nat}
    (h : s.Spelled n (Lexer.ofSource source).remaining.1)
    (hstop : (Lexer.ofSource source).remaining.2 = .ok stop) :
    IsLeast (acceptingLimits source) n := by
  constructor
  · exact ⟨s, (parseWithin_of_spelled h hstop).mpr ⟨Nat.le_refl n, rfl⟩⟩
  · rintro limit ⟨s', hs'⟩
    exact ((parseWithin_of_spelled h hstop).mp hs').1

/-- What a well-formed statement needs is the least limit under which its text is parsed. -/
theorem Statement.WellFormed.isLeast_acceptingLimits {s : Statement} (h : s.WellFormed) :
    IsLeast (acceptingLimits (s.render ++ ";")) s.need := by
  constructor
  · obtain ⟨s', hs', -⟩ := h.parseWithin_of_need_le (Nat.le_refl s.need)
    exact ⟨s', hs'⟩
  · rintro limit ⟨s', hs'⟩
    by_contra hlt
    obtain ⟨span, herror⟩ := h.parseWithin_of_lt_need (Nat.lt_of_not_le hlt)
    rw [hs'] at herror
    cases herror

/-- The text of a statement nests no deeper than a source that spells it and has no bare
negation. -/
theorem Statement.Spelled.need_le_of_negationsLead {s : Statement} {n : Nat} {tokens : List Token}
    (h : s.Spelled n tokens) (hlead : Token.NegationsLead tokens) : s.need ≤ n := by
  cases h with
  | unconditional => exact Nat.le_refl _
  | @conditional h l w t tokens hh hw hl ht =>
    have hinside : Token.NegationsLead l.tokens :=
      hlead.infix ⟨tokens ++ [w], [t], by simp⟩
    have hle := hl.depth_layout_tree_le
    rw [hl.marked.bareNegations_eq_zero hinside] at hle
    have hneed : (h.statement (some l.tree)).need = 1 + l.tree.layout.depth := l.tree.need_eq
    omega

/-- A `WHERE` is one level. -/
theorem Statement.Spelled.pos_of_whereKw {s : Statement} {n : Nat} {tokens : List Token}
    (h : s.Spelled n tokens) (hw : ∃ t ∈ tokens, t.kind = .whereKw) : 0 < n := by
  cases h with
  | conditional => omega
  | @unconditional h e tokens hh he =>
    obtain ⟨w, hmem, hw⟩ := hw
    rcases List.mem_append.mp hmem with hmem | hmem
    · exact absurd hw (hh.kind_ne_whereKw w hmem)
    · rw [List.mem_singleton.mp hmem, he] at hw
      cases hw

/-- A source with a `WHERE` that some limit lets through has a least limit, and so has the text of
its statement: less than twice the one of the source, and no higher than that if no negation of the
source is a side of an `AND` or `OR` without parentheses of its own. -/
theorem exists_isLeast_render {source : String} {tokens : List Token}
    (htokens : tokenize source = .ok tokens) (hw : ∃ t ∈ tokens, t.kind = .whereKw)
    (haccepted : (acceptingLimits source).Nonempty) :
    ∃ s d d', IsLeast (acceptingLimits source) d ∧
      (∀ limit ∈ acceptingLimits source, parseWithin limit source = .ok s) ∧
      IsLeast (acceptingLimits (s.render ++ ";")) d' ∧ d' + 1 ≤ 2 * d ∧
      (Token.NegationsLead tokens → d' ≤ d) := by
  obtain ⟨limit, s, h⟩ := haccepted
  obtain ⟨n, -, hspelled, stop, hstop⟩ := parseWithin_eq_ok_iff_spelled.mp h
  obtain ⟨offset, -, rfl⟩ := tokenize_eq_ok_iff.mp htokens
  have hwellFormed := hspelled.wellFormed hspelled.isLexeme
  refine ⟨s, n, s.need, isLeast_acceptingLimits_of_spelled hspelled hstop, ?_,
    hwellFormed.isLeast_acceptingLimits, ?_, fun hlead ↦ ?_⟩
  · rintro limit' ⟨s', hs'⟩
    rwa [((parseWithin_of_spelled hspelled hstop).mp hs').2] at hs'
  · have hpos := hspelled.pos_of_whereKw (by simpa [Token.eof] using hw)
    have hneed := hspelled.need_le
    omega
  · exact hspelled.need_le_of_negationsLead hlead.left_of_append

private theorem le_of_mem_acceptingLimits {source : String} {n limit : Nat}
    (hlimit : limit ∈ acceptingLimits source)
    (hnone : ∀ m < n, (parseWithin m source).toOption = none) : n ≤ limit := by
  obtain ⟨s, hs⟩ := hlimit
  by_contra hlt
  have h := hnone limit (Nat.lt_of_not_le hlt)
  rw [hs] at h
  cases h

/-- Two bare negations, one inside the other. -/
def negationInsideNegation : String := "SELECT a FROM t WHERE a = 1 AND NOT b = 2 OR NOT c = 3;"

/-- A negation in two pairs of parentheses. -/
def negationInPairs : String := "SELECT a FROM t WHERE ((NOT a = 1)) AND b = 2;"

/-- Three levels become five where both negations get parentheses, as many as there can be; four
become three where one of two pairs is dropped. -/
theorem exists_isLeast_render_negations :
    (∃ s, parseWithin 3 negationInsideNegation = .ok s ∧
      IsLeast (acceptingLimits negationInsideNegation) 3 ∧
      IsLeast (acceptingLimits (s.render ++ ";")) 5) ∧
    ∃ s d, parseWithin 4 negationInPairs = .ok s ∧
      IsLeast (acceptingLimits negationInPairs) 4 ∧
      IsLeast (acceptingLimits (s.render ++ ";")) d ∧ d ≤ 4 := by
  constructor
  · have htokens : tokenize negationInsideNegation =
        .ok ((Lexer.ofSource negationInsideNegation).remaining.1 ++ [.eof 55]) :=
      tokenize_eq_ok_iff.mpr ⟨55, by decide +kernel, rfl⟩
    have htext : (parseWithin 3 negationInsideNegation).toOption.map Statement.render =
        some "SELECT a FROM t WHERE a = 1 AND (NOT b = 2 OR (NOT c = 3))" := by decide +kernel
    obtain ⟨s, h, hrender⟩ := exists_parseWithin_eq_ok htext
    obtain ⟨s', d, d', hd, hs, hd', hle, -⟩ :=
      exists_isLeast_render htokens (by decide +kernel) ⟨3, s, h⟩
    obtain rfl : s' = s := Except.ok.inj ((hs 3 ⟨s, h⟩).symm.trans h)
    have hthree : 3 ≤ d := le_of_mem_acceptingLimits hd.1 (by decide +kernel)
    have hfive : 5 ≤ d' := le_of_mem_acceptingLimits hd'.1 (by rw [hrender]; decide +kernel)
    have hle' : d ≤ 3 := hd.2 ⟨s', h⟩
    obtain ⟨rfl, rfl⟩ : d = 3 ∧ d' = 5 := by omega
    exact ⟨s', h, hd, hd'⟩
  · have htokens : tokenize negationInPairs =
        .ok ((Lexer.ofSource negationInPairs).remaining.1 ++ [.eof 46]) :=
      tokenize_eq_ok_iff.mpr ⟨46, by decide +kernel, rfl⟩
    have hsome : (parseWithin 4 negationInPairs).toOption.map (fun _ ↦ ()) = some () := by
      decide +kernel
    obtain ⟨s, h, -⟩ := exists_parseWithin_eq_ok hsome
    obtain ⟨s', d, d', hd, hs, hd', -, hlead⟩ :=
      exists_isLeast_render htokens (by decide +kernel) ⟨4, s, h⟩
    obtain rfl : s' = s := Except.ok.inj ((hs 4 ⟨s, h⟩).symm.trans h)
    have hfour : 4 ≤ d := le_of_mem_acceptingLimits hd.1 (by decide +kernel)
    obtain rfl : d = 4 := Nat.le_antisymm (hd.2 ⟨s', h⟩) hfour
    exact ⟨s', d', h, hd, hd', hlead (by decide +kernel)⟩

end SelectQuery
