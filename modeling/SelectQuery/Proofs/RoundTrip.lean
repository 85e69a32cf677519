import SelectQuery.Proofs.Rendering

/-!
# Round trips

What is parsed is well-formed, so its text is read back. The text need not nest like the source: the
parentheses of the source are gone, and each negation inside a boolean node has got parentheses of
its own. It nests less than twice as deep (`Statement.Spelled.need_le`).
-/

namespace SelectQuery

private theorem Layout.Proper.wellFormed {l : Layout} (h : l.Proper)
    (hlexeme : ∀ t ∈ l.tokens, t.IsLexeme) : l.tree.WellFormed := by
  induction l with
  | comparison c =>
    obtain ⟨hleft, hop, hright⟩ := h
    simp only [tokens, List.forall_mem_cons] at hlexeme
    obtain ⟨hl, ht, hr, -⟩ := hlexeme
    exact ⟨⟨hleft, hl⟩, ⟨hright, hr⟩, hop,
      (TokenKind.lexeme_iff (ComparisonOperator.text?_of_ofKind? hop)).mp ht⟩
  | paren p l q ih => exact ih h.2.1 fun t ht ↦ hlexeme t (by simp [tokens, ht])
  | negation t l ih =>
    obtain ⟨hkind, hl⟩ := h
    have ht : t.IsLexeme := hlexeme t (by simp [tokens])
    rw [Token.IsLexeme, hkind, TokenKind.lexeme_iff rfl] at ht
    exact ⟨⟨hkind, ht⟩, ih hl fun u hu ↦ hlexeme u (by simp [tokens, hu])⟩
  | boolean t op l r ihl ihr =>
    obtain ⟨⟨hkind, hl, hr⟩, -⟩ := h
    have ht : t.IsLexeme := hlexeme t (by simp [tokens])
    rw [Token.IsLexeme, TokenKind.lexeme_iff (BooleanOperator.text?_of_ofKind? hkind)] at ht
    exact ⟨⟨hkind, ht⟩, ihl hl fun u hu ↦ hlexeme u (by simp [tokens, hu]),
      ihr hr fun u hu ↦ hlexeme u (by simp [tokens, hu])⟩

private theorem Column.Spelled.wellFormed {c : Column} {tokens : List Token}
    (h : c.Spelled tokens) (hlexeme : ∀ t ∈ tokens, t.IsLexeme) : c.WellFormed := by
  cases h with
  | name hn => exact ⟨⟨hn, hlexeme _ (by simp)⟩, fun a ha ↦ by cases ha⟩
  | aliased hn ht ha =>
    refine ⟨⟨hn, hlexeme _ (by simp)⟩, fun a' ha' ↦ ?_⟩
    obtain rfl := Option.some.inj ha'
    exact ⟨ha, hlexeme _ (by simp)⟩

private theorem Projection.ColumnsSpelled.wellFormed {columns : List Column} {tokens : List Token}
    (h : ColumnsSpelled columns tokens) (hlexeme : ∀ t ∈ tokens, t.IsLexeme) :
    columns ≠ [] ∧ ∀ c ∈ columns, c.WellFormed := by
  induction h with
  | single hc => simpa using hc.wellFormed hlexeme
  | more h ht hc ih =>
    have hcolumns := ih fun t ht ↦ hlexeme t (List.mem_append_left _ ht)
    have hcolumn := hc.wellFormed fun t ht ↦
      hlexeme t (List.mem_append_right _ (List.mem_cons_of_mem _ ht))
    exact ⟨by simp, List.forall_mem_cons.mpr ⟨hcolumn, hcolumns.2⟩⟩

private theorem Projection.Spelled.wellFormed {p : Projection} {tokens : List Token}
    (h : p.Spelled tokens) (hlexeme : ∀ t ∈ tokens, t.IsLexeme) : p.WellFormed := by
  cases p with
  | wildcard star =>
    obtain ⟨hkind, rfl⟩ := h
    have hstar : star.IsLexeme := hlexeme star (by simp)
    rw [Token.IsLexeme, hkind, TokenKind.lexeme_iff rfl] at hstar
    exact ⟨hkind, hstar⟩
  | columns list =>
    obtain ⟨hne, hlist⟩ := ColumnsSpelled.wellFormed h hlexeme
    exact ⟨by simpa using hne, fun c hc ↦ hlist c (List.mem_reverse.mpr hc)⟩

private theorem Header.Spelled.wellFormed {h : Header} {tokens : List Token} (hh : h.Spelled tokens)
    (hlexeme : ∀ t ∈ tokens, t.IsLexeme) {condition? : Option Condition}
    (hcondition : ∀ c ∈ condition?, c.WellFormed) : (h.statement condition?).WellFormed := by
  obtain ⟨hkind, hp, -, htable⟩ := hh
  have htoken : h.token.IsLexeme := hlexeme _ (by simp)
  rw [Token.IsLexeme, hkind, TokenKind.lexeme_iff rfl] at htoken
  exact ⟨rfl, hkind, htoken, hp.wellFormed fun t ht ↦ hlexeme t (by simp [ht]),
    ⟨htable, hlexeme h.table.token (by simp)⟩, hcondition⟩

/-- A statement that is spelled by lexemes is well-formed. -/
theorem Statement.Spelled.wellFormed {s : Statement} {n : Nat} {tokens : List Token}
    (h : s.Spelled n tokens) (hlexeme : ∀ t ∈ tokens, t.IsLexeme) : s.WellFormed := by
  cases h with
  | unconditional hh ht =>
    exact hh.wellFormed (fun t ht ↦ hlexeme t (by simp [ht])) fun c hc ↦ by cases hc
  | conditional hh hw hl ht =>
    refine hh.wellFormed (fun t ht ↦ hlexeme t (by simp [ht])) fun c hc ↦ ?_
    obtain rfl := Option.some.inj hc
    exact hl.wellFormed fun t ht ↦ hlexeme t (by simp [ht])

/-- No string is left open in what spells a statement, so it consists of lexemes. -/
theorem Statement.Spelled.isLexeme {s : Statement} {n : Nat} {l : Lexer}
    (h : s.Spelled n l.remaining.1) : ∀ t ∈ l.remaining.1, t.IsLexeme := by
  intro t ht
  obtain ⟨front, behind, hsplit⟩ := List.append_of_mem ht
  rw [hsplit] at h
  exact (Lexer.isLexeme_of_remaining hsplit).resolve_right h.not_open

namespace Layout

/-- Whether the layout is a `NOT`, without parentheses around it. -/
def isNegation : Layout → Bool
  | negation _ _ => true
  | _ => false

/-- How many negations stand behind an operator without parentheses of their own, one inside
another, where most do. -/
def bareNegations : Layout → Nat
  | comparison _ => 0
  | paren _ l _ => l.bareNegations
  | negation _ l => l.bareNegations
  | boolean _ _ l r => max l.bareNegations (r.bareNegations + if r.isNegation then 1 else 0)

/-- Each of them is open inside the one before. -/
theorem bareNegations_le_depth (l : Layout) :
    l.bareNegations + (if l.isNegation then 1 else 0) ≤ l.depth := by
  induction l with
  | comparison c => exact Nat.le_refl _
  | paren p l q ih =>
    simp only [bareNegations, isNegation, depth, Bool.false_eq_true, ite_false]
    omega
  | negation t l ih =>
    simp only [bareNegations, isNegation, depth, ite_true]
    omega
  | boolean t op l r ihl ihr =>
    have hbare : (boolean t op l r).bareNegations =
        max l.bareNegations (r.bareNegations + if r.isNegation then 1 else 0) := rfl
    have hnone : (boolean t op l r).isNegation = false := rfl
    have hdepth : (boolean t op l r).depth = max l.depth r.depth := rfl
    simp only [hbare, hnone, hdepth, Bool.false_eq_true, ite_false]
    omega

-- As a side of an operator, the text of a tree gets a pair of parentheses only where the layout
-- has one or is a bare negation.
private theorem depth_fence_tree {l : Layout} (parent : BooleanOperator) (side : Side)
    (hleft : side = .left → parent.binding ≤ l.binding)
    (hright : side = .right → parent.binding < l.binding)
    (hle : l.tree.layout.depth ≤ l.depth + l.bareNegations)
    (hparen : ∀ p inner q, l = paren p inner q →
      l.tree.layout.depth + 1 ≤ l.depth + l.bareNegations) :
    (l.tree.layout.fence (l.tree.needsParens parent side)).depth ≤
      l.depth + (l.bareNegations + if l.isNegation then 1 else 0) := by
  have hfence : (l.tree.layout.fence (l.tree.needsParens parent side)).depth ≤
      l.tree.layout.depth + 1 := by
    rw [depth_fence]
    split <;> omega
  cases l with
  | comparison c => exact Nat.le_refl _
  | paren p l q => exact hfence.trans (hparen p l q rfl)
  | negation t l => exact hfence.trans (Nat.succ_le_succ hle)
  | boolean t op l r =>
    -- Without parentheses around it, no chain stands where it would need them.
    have hnone : (boolean t op l r).tree.needsParens parent side = false := by
      cases side with
      | left =>
        have hop : parent.binding ≤ op.binding := hleft rfl
        simpa [tree, Condition.needsParens] using hop
      | right =>
        have hop : parent.binding < op.binding := hright rfl
        have hne : op.binding ≠ parent.binding := Nat.ne_of_gt hop
        simpa [tree, Condition.needsParens, hne] using Nat.le_of_lt hop
    rw [hnone]
    exact hle

-- Each bare negation makes room for the parentheses that its text gets. What stands in parentheses
-- has room for one more pair.
private theorem depth_layout_tree {l : Layout} (h : l.Proper) :
    l.tree.layout.depth ≤ l.depth + l.bareNegations ∧
      ∀ p inner q, l = paren p inner q → l.tree.layout.depth + 1 ≤ l.depth + l.bareNegations := by
  induction l with
  | comparison c => exact ⟨Nat.le_refl _, by simp⟩
  | paren p l q ih =>
    obtain ⟨hle, -⟩ := ih h.2.1
    have hroom : (paren p l q).tree.layout.depth + 1 ≤
        (paren p l q).depth + (paren p l q).bareNegations := by
      simp only [tree, depth, bareNegations]
      omega
    exact ⟨Nat.le_of_succ_le hroom, fun _ _ _ _ ↦ hroom⟩
  | negation t l ih =>
    obtain ⟨hle, -⟩ := ih h.2
    refine ⟨?_, by simp⟩
    simp only [tree, Condition.layout, depth, bareNegations]
    omega
  | boolean t op l r ihl ihr =>
    obtain ⟨⟨-, hl, hr⟩, hopen, hopl, hopr⟩ := h
    obtain ⟨hlel, hparenl⟩ := ihl hl
    obtain ⟨hler, hparenr⟩ := ihr hr
    have hleft := depth_fence_tree op .left (fun _ ↦ hopl) (by simp) hlel hparenl
    have hright := depth_fence_tree op .right (by simp) (fun _ ↦ hopr) hler hparenr
    have hbare : l.isNegation = false := by
      cases l with
      | negation t l => cases hopen
      | _ => rfl
    simp only [hbare, Bool.false_eq_true, ite_false] at hleft
    refine ⟨?_, by simp⟩
    simp only [tree, Condition.layout, depth, bareNegations]
    omega

/-- The text of a tree nests deeper than a layout that it was read from by one level for each bare
negation at most. -/
theorem Proper.depth_layout_tree_le {l : Layout} (h : l.Proper) :
    l.tree.layout.depth ≤ l.depth + l.bareNegations :=
  (depth_layout_tree h).1

end Layout

/-- The text of a statement nests less than twice as deep as a source that spells it. -/
theorem Statement.Spelled.need_le {s : Statement} {n : Nat} {tokens : List Token}
    (h : s.Spelled n tokens) : s.need ≤ 2 * n - 1 := by
  cases h with
  | unconditional => exact Nat.le_refl _
  | @conditional h l w t tokens hh hw hl ht =>
    have hle := hl.depth_layout_tree_le
    have hbare := l.bareNegations_le_depth
    have hneed : (h.statement (some l.tree)).need = 1 + l.tree.layout.depth := l.tree.need_eq
    omega

/-- What is parsed is well-formed, and needs less than twice the limit it was parsed under. -/
theorem wellFormed_of_parseWithin {limit : Nat} {source : String} {s : Statement}
    (h : parseWithin limit source = .ok s) : s.WellFormed ∧ s.need ≤ 2 * limit - 1 := by
  obtain ⟨n, hn, hspelled, -⟩ := parseWithin_eq_ok_iff_spelled.mp h
  have hneed := hspelled.need_le
  exact ⟨hspelled.wellFormed hspelled.isLexeme, by omega⟩

/-- The text of a statement that was parsed is read back, with the same outline and the same text,
under every limit that is not below its need, and is nested too deeply for all others. The need is
less than twice the limit under which the source was parsed. -/
theorem parseWithin_render_of_parsed {limit : Nat} {source : String} {s : Statement}
    (h : parseWithin limit source = .ok s) :
    s.need ≤ 2 * limit - 1 ∧ ∀ limit',
      (s.need ≤ limit' → ∃ s', parseWithin limit' (s.render ++ ";") = .ok s' ∧
        s'.outline = s.outline ∧ s'.render = s.render) ∧
      (limit' < s.need → ∃ span, parseWithin limit' (s.render ++ ";") =
        .error (.syntactic ⟨.nestedTooDeeply, span⟩)) := by
  obtain ⟨hs, hneed⟩ := wellFormed_of_parseWithin h
  refine ⟨hneed, fun limit' ↦ ⟨fun hle ↦ ?_, hs.parseWithin_of_lt_need⟩⟩
  obtain ⟨s', hs', hbare⟩ := hs.parseWithin_of_need_le hle
  exact ⟨s', hs', outline_render_of_bare hbare⟩

/-- The source is parsed under a limit of two; its text needs three, and gets no further under two
because the negation stands in parentheses. -/
theorem parseWithin_render_of_parsed_negation : ∃ s,
    parseWithin 2 "SELECT a FROM t WHERE a = 1 AND NOT b = 2;" = .ok s ∧
      (∃ s', parseWithin 3 (s.render ++ ";") = .ok s' ∧ s'.outline = s.outline ∧
        s'.render = s.render) ∧
      ∃ span, parseWithin 2 (s.render ++ ";") =
        .error (.syntactic ⟨.nestedTooDeeply, span⟩) := by
  have hneed : (parseWithin 2 "SELECT a FROM t WHERE a = 1 AND NOT b = 2;").toOption.map
      Statement.need = some 3 := by decide +kernel
  cases h : parseWithin 2 "SELECT a FROM t WHERE a = 1 AND NOT b = 2;" with
  | error e =>
    rw [h] at hneed
    cases hneed
  | ok s =>
    rw [h] at hneed
    have hs : s.need = 3 := Option.some.inj hneed
    obtain ⟨-, hrender⟩ := parseWithin_render_of_parsed h
    exact ⟨s, rfl, (hrender 3).1 (by omega), (hrender 2).2 (by omega)⟩

/-- The limit under which a source is parsed does not always do for its text. -/
theorem not_forall_parseWithin_render : ¬ ∀ (limit : Nat) (source : String) (s : Statement),
    parseWithin limit source = .ok s →
      ∃ s', parseWithin limit (s.render ++ ";") = .ok s' ∧ s'.outline = s.outline ∧
        s'.render = s.render := by
  intro hall
  have htext : (parseWithin 2 "SELECT a FROM t WHERE a = 1 AND NOT b = 2;").toOption.map
      Statement.render = some "SELECT a FROM t WHERE a = 1 AND (NOT b = 2)" := by decide +kernel
  have hfail : (parseWithin 2 ("SELECT a FROM t WHERE a = 1 AND (NOT b = 2)" ++ ";")).toOption =
      none := by decide +kernel
  cases h : parseWithin 2 "SELECT a FROM t WHERE a = 1 AND NOT b = 2;" with
  | error e =>
    rw [h] at htext
    cases htext
  | ok s =>
    rw [h] at htext
    have hs : s.render = "SELECT a FROM t WHERE a = 1 AND (NOT b = 2)" := Option.some.inj htext
    obtain ⟨s', hs', -⟩ := hall 2 _ s h
    rw [hs] at hs'
    rw [hs'] at hfail
    cases hfail

end SelectQuery
