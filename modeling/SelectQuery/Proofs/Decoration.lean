import SelectQuery.Proofs.Clause

/-!
# Redundant parentheses and spacing

A condition is read back from every text that shows the parentheses of its own text, and perhaps
more of them around any of its parts, with any blanks between the tokens
(`parseWithin_of_decorated`).
-/

namespace SelectQuery

namespace Token

/-- The text holds the tokens in order, with blanks between any two of them and perhaps around
them. -/
inductive Spaced : List Token → List Char → Prop where
  | nil {blanks : List Char} : (∀ c ∈ blanks, Lexer.isBlank c) → Spaced [] blanks
  | cons {t : Token} {tokens : List Token} {lead behind : List Char} :
      (∀ c ∈ lead, Lexer.isBlank c) → (∀ c ∈ behind.head?, Lexer.isBlank c) →
      Spaced tokens behind → Spaced (t :: tokens) (lead ++ (t.text.toList ++ behind))

/-- Lexemes are told apart by blanks. -/
theorem Spaced.laid {tokens : List Token} {text : List Char} (h : Spaced tokens text)
    (ht : ∀ t ∈ tokens, t.IsLexeme) : Laid tokens text := by
  induction h with
  | nil hblanks => exact .nil hblanks
  | cons hlead hbehind _ ih =>
    obtain ⟨ht, htokens⟩ := List.forall_mem_cons.mp ht
    exact .cons hlead ht ((Lexer.separate_of_isBlank hbehind).endsBefore _) (ih htokens)

/-- Takes tokens off a text, each with the blanks before it, as long as a blank follows. -/
def spacedIn : List Token → List Char → Bool
  | [], text => text.all Lexer.isBlank
  | t :: tokens, text =>
    let rest := text.dropWhile Lexer.isBlank
    let behind := rest.drop t.text.toList.length
    t.text.toList.isPrefixOf rest && behind.head?.all Lexer.isBlank && spacedIn tokens behind

/-- Tokens that can be taken off so are spaced. -/
theorem spaced_of_spacedIn {tokens : List Token} {text : List Char} (h : spacedIn tokens text) :
    Spaced tokens text := by
  induction tokens generalizing text with
  | nil => exact .nil (List.all_eq_true.mp h)
  | cons t tokens ih =>
    simp only [spacedIn, Bool.and_eq_true, Option.all_eq_true, List.isPrefixOf_iff_prefix] at h
    obtain ⟨⟨⟨behind, hrest⟩, hblank⟩, hspaced⟩ := h
    rw [← hrest, List.drop_left] at hblank hspaced
    rw [← List.takeWhile_append_dropWhile (p := Lexer.isBlank) (l := text), ← hrest]
    exact .cons (fun c hc ↦ List.all_eq_true.mp List.all_takeWhile c hc) hblank (ih hspaced)

end Token

/-- Redundant parentheses and spacing are not seen: from every text of a condition that has the
parentheses of its rendering, any more of them around its parts and any blanks between its tokens,
the statement is read back but for places, and so with the same outline and rendering. -/
theorem parseWithin_of_decorated {s : Statement} (hs : s.WellFormed) {c : Condition}
    (hc : s.condition? = some c) {l : Layout} (hl : c.Decorated l) {text : String}
    (htext : Token.Spaced l.tokens text.toList) {limit : Nat} (hlimit : 1 + l.depth ≤ limit) :
    ∃ s', parseWithin limit (s.sourceWith text) = .ok s' ∧ s'.bare = s.bare ∧
      s'.outline = s.outline ∧ s'.render = s.render := by
  have hwf : c.WellFormed := hs.condition? c hc
  have hlaid := htext.laid (hl.isLexeme hwf)
  obtain ⟨s', hs', hbare⟩ := hs.parseWithin_layout (hl.proper hwf) hlaid hlimit
  have hself : { s with condition? := some l.tree } = s := by rw [hl.tree_eq, ← hc]
  rw [hself] at hbare
  exact ⟨s', hs', hbare, outline_render_of_bare hbare⟩

/-- Parentheses around the whole condition, the comparison that is negated and the sides of both
conjunctions change nothing, and nor do line breaks and tabs. -/
theorem parseWithin_of_decorated_fencedOnBothSides :
    ∃ s', parseWithin 6 (Statement.fencedOnBothSides.sourceWith
        "( \n (\tNOT ( ( c < 1\r\n) ) ) AND ( ( c = 2 AND\t\t( d = \"x\" ) ) ) )") = .ok s' ∧
      s'.bare = Statement.fencedOnBothSides.bare ∧
      s'.outline = Statement.fencedOnBothSides.outline ∧
      s'.render = Statement.fencedOnBothSides.render := by
  have hs : Statement.fencedOnBothSides.WellFormed := by decide +kernel
  exact parseWithin_of_decorated hs rfl
    (.paren (.boolean (.negation (.paren (.paren (.comparison _))))
      (.paren (.boolean (.comparison _) (.paren (.comparison _))))))
    (Token.spaced_of_spacedIn (by decide +kernel)) (by decide +kernel)

end SelectQuery
