import SelectQuery.Proofs.Rendering

/-!
# The text of a condition

A text may stand in a statement where its condition is written (`Statement.sourceWith`). If it
holds the tokens of a proper layout, the statement is read with the tree of the layout for its
condition (`Statement.WellFormed.parseWithin_layout`). So a text is that of one condition.
-/

namespace SelectQuery

open Parser.State (start complete)

/-- A source that holds tokens is parsed as the tokens lead to a statement, but for places. -/
theorem Token.Laid.parseWithin_iff {tokens : List Token} {source : String}
    (h : Laid tokens source.toList) (limit : Nat) (bare : Statement) :
    (∃ s, parseWithin limit source = .ok s ∧ s.bare = bare) ↔
      (start.run? limit tokens).map Parser.State.bare = some (complete bare) := by
  obtain ⟨tokens', stop, hremaining, hbare⟩ := h.remaining 0
  have hsource : (Lexer.ofSource source).remaining = (tokens', .ok stop) := hremaining
  exact parseWithin_iff_of_map_bare (by rw [hsource, hbare]) (by rw [hsource]) limit bare

namespace Statement

/-- A statement with the given text for its condition, and a semicolon. -/
def sourceWith (s : Statement) (condition : String) : String :=
  { s with condition? := none }.render ++ " WHERE " ++ condition ++ ";"

/-- With the text of its own condition it is the text of the statement. -/
theorem sourceWith_render {s : Statement} {c : Condition} (h : s.condition? = some c) :
    s.sourceWith c.render = s.render ++ ";" := by
  simp [sourceWith, render, h]

/-- Under every limit that is high enough, a statement with the text for its condition is read with
that condition, but for places. -/
def ReadsAs (s : Statement) (text : String) (c : Condition) : Prop :=
  ∃ n, ∀ limit, n ≤ limit → ∃ s', parseWithin limit (s.sourceWith text) = .ok s' ∧
    s'.bare = { s with condition? := some c }.bare

namespace WellFormed

variable {s : Statement} {text : String} {tokens : List Token}

/-- The tokens of the text stand between those of the header and a semicolon. -/
theorem exists_laid (h : s.WellFormed) (htext : Token.Laid tokens text.toList) :
    ∃ front, (Header.mk s.token s.projection s.table).Spelled front ∧
      Token.Laid (front ++ [.ofKind .whereKw] ++ tokens ++ [.ofKind .semicolon])
        (s.sourceWith text).toList := by
  obtain ⟨front, hfront, hwritten⟩ := h.exists_header
  have hwhere : Token.Written "WHERE" [.ofKind .whereKw] := .supplied rfl rfl
  have hblank : ∀ c ∈ [' '], Lexer.isBlank c := List.forall_mem_singleton.mpr (by decide)
  have hend : Token.Laid [.ofKind .semicolon] ([] ++ (";".toList ++ [])) :=
    .cons (by simp) (Token.isLexeme_ofKind rfl) (TokenKind.endsBefore_nil _) (.nil (by simp))
  have hrest := (htext.behind_blanks hblank).append hend (Lexer.separate_cons.mpr (by decide))
  have hlaid := (hwritten.join hwhere).laid.append hrest (Lexer.separate_cons.mpr (by decide))
  refine ⟨front, hfront, ?_⟩
  simpa [sourceWith, render, String.append_assoc] using hlaid

/-- A text that holds the tokens of a proper layout is read as the tree of the layout, under every
limit that reaches as deep. -/
theorem parseWithin_layout (h : s.WellFormed) {l : Layout} (hl : l.Proper)
    (htext : Token.Laid l.tokens text.toList) {limit : Nat} (hlimit : 1 + l.depth ≤ limit) :
    ∃ s', parseWithin limit (s.sourceWith text) = .ok s' ∧
      s'.bare = { s with condition? := some l.tree }.bare := by
  obtain ⟨front, hfront, hlaid⟩ := h.exists_laid htext
  have hspelled := Spelled.conditional hfront (Token.kind_ofKind .whereKw) hl
    (Token.kind_ofKind .semicolon)
  rw [hlaid.parseWithin_iff, Parser.State.run?_of_spelled hspelled, if_pos hlimit, Option.map_some]
  simp [Header.statement, Parser.State.bare, Statement.bare, h.name]

/-- Well-formed conditions with one text differ in places at most. -/
theorem bare_eq_of_render_eq (h : s.WellFormed) {c c' : Condition} (hc : c.WellFormed)
    (hc' : c'.WellFormed) (hrender : c.render = c'.render) : c.bare = c'.bare := by
  have hread {c : Condition} (hc : c.WellFormed) {limit : Nat}
      (hlimit : 1 + c.layout.depth ≤ limit) :
      ∃ s', parseWithin limit (s.sourceWith c.render) = .ok s' ∧
        s'.bare = { s with condition? := some c }.bare := by
    have hlayout := h.parseWithin_layout hc.proper_layout hc.written.laid hlimit
    rwa [c.tree_layout] at hlayout
  obtain ⟨s₁, hs₁, hbare₁⟩ := hread hc (Nat.le_max_left _ (1 + c'.layout.depth))
  obtain ⟨s₂, hs₂, hbare₂⟩ := hread hc' (Nat.le_max_right (1 + c.layout.depth) _)
  rw [hrender, hs₂] at hs₁
  rw [← Except.ok.inj hs₁, hbare₂] at hbare₁
  simpa [Statement.bare] using hbare₁.symm

end WellFormed

end Statement

end SelectQuery
