import SelectQuery.Proofs.Clause
import SelectQuery.Text.WhiteSpace

/-!
# The ends of a source

Blanks aside, a source that is parsed begins with `SELECT` and ends with a semicolon. What lies
between its outer blanks is parsed alike (`exists_core_of_parseWithin`), and it is what trimming
leaves (`IsCore.trim`).
-/

namespace SelectQuery

namespace Token

/-- What is read of a text up to its end is laid out in it, if no string is left open. -/
theorem laid_remaining {l : Lexer} {stop : Nat} (hending : l.remaining.2 = .ok stop)
    (hclosed : ∀ t ∈ l.remaining.1.getLast?, t.kind ≠ .string) : Laid l.remaining.1 l.rest := by
  induction l using Lexer.scan_induction with
  | failed l e hs =>
    rw [Lexer.remaining_of_failed hs] at hending
    cases hending
  | atEnd l stop hs =>
    rw [Lexer.remaining_of_atEnd hs]
    exact .nil (Lexer.scan_eq_atEnd_iff.mp hs).1
  | token l t rest stop hs ih =>
    rw [Lexer.remaining_of_token hs] at hending hclosed ⊢
    obtain ⟨lead, text, htext, hlead, hreads, ht, hends⟩ := Lexer.scan_eq_token_iff.mp hs
    rw [htext]
    cases hreads with
    | lexeme _ hsplit =>
      rw [hsplit]
      refine .cons hlead ht hends (ih hending fun u hu ↦ hclosed u ?_)
      rw [List.getLast?_cons, hu]
      rfl
    | unclosed =>
      -- An open string takes all that is left, so it is the last token.
      rw [Lexer.remaining_of_atEnd (l := ⟨[], _, _⟩) rfl] at hclosed
      exact absurd rfl (hclosed _ rfl)

namespace Laid

variable {t u : Token} {tokens : List Token} {text : List Char}

/-- Behind the last token there are blanks, which may be left out. -/
theorem exists_last (h : Laid (tokens ++ [t]) text) :
    ∃ front trail, text = front ++ (t.text.toList ++ trail) ∧
      (∀ c ∈ trail, Lexer.isBlank c) ∧ Laid (tokens ++ [t]) (front ++ t.text.toList) := by
  induction tokens generalizing text with
  | nil =>
    cases h with
    | @cons _ _ lead behind hlead ht _ h =>
      cases h with
      | nil hblanks =>
        have hlaid : Laid [t] (lead ++ (t.text.toList ++ [])) :=
          .cons hlead ht (TokenKind.endsBefore_nil _) (.nil (by simp))
        rw [List.append_nil] at hlaid
        exact ⟨lead, behind, rfl, hblanks, hlaid⟩
  | cons u tokens ih =>
    cases h with
    | @cons _ _ lead behind hlead hu hends h =>
      obtain ⟨front, trail, rfl, htrail, hlaid⟩ := ih h
      rw [← List.append_assoc] at hends
      refine ⟨lead ++ (u.text.toList ++ front), trail, by simp, htrail, ?_⟩
      rw [List.append_assoc, List.append_assoc]
      exact .cons hlead hu (TokenKind.endsBefore_of_append hends) hlaid

/-- In front of the first token and behind the last there are blanks, which may be left out. -/
theorem exists_core (h : Laid (t :: (tokens ++ [u])) text) :
    ∃ lead between trail,
      text = lead ++ (t.text.toList ++ (between ++ u.text.toList)) ++ trail ∧
        (∀ c ∈ lead, Lexer.isBlank c) ∧ (∀ c ∈ trail, Lexer.isBlank c) ∧
          Laid (t :: (tokens ++ [u])) (t.text.toList ++ (between ++ u.text.toList)) := by
  cases h with
  | @cons _ _ lead behind hlead ht hends h =>
    obtain ⟨between, trail, rfl, htrail, hlaid⟩ := h.exists_last
    rw [← List.append_assoc] at hends
    have hcore : Laid (t :: (tokens ++ [u]))
        ([] ++ (t.text.toList ++ (between ++ u.text.toList))) :=
      .cons (by simp) ht (TokenKind.endsBefore_of_append hends) hlaid
    exact ⟨lead, between, trail, by simp, hlead, htrail, hcore⟩

end Laid

end Token

namespace Text

/-- Blanks are white space. -/
theorem isWhiteSpace_of_isBlank {c : Char} (h : Lexer.isBlank c) : isWhiteSpace c := by
  rcases Lexer.isBlank_iff.mp h with rfl | rfl | rfl | rfl <;> decide

/-- White space around a text is cut off, and nothing else if the text has none at its ends. -/
theorem trimChars_around {lead core trail : List Char} (hlead : ∀ c ∈ lead, isWhiteSpace c)
    (htrail : ∀ c ∈ trail, isWhiteSpace c) (hcore : core ≠ [])
    (hfirst : ∀ c ∈ core.head?, isWhiteSpace c = false)
    (hlast : ∀ c ∈ core.getLast?, isWhiteSpace c = false) :
    trimChars (lead ++ core ++ trail) = core := by
  have hfront : (lead ++ (core ++ trail)).dropWhile isWhiteSpace = core ++ trail := by
    refine (Lexer.takeWhile_append_stop hlead ?_).2
    cases core with
    | nil => exact absurd rfl hcore
    | cons c core => exact hfirst
  have hback : (trail.reverse ++ core.reverse).dropWhile isWhiteSpace = core.reverse := by
    refine (Lexer.takeWhile_append_stop (by simpa using htrail) ?_).2
    rwa [List.head?_reverse]
  rw [trimChars, List.append_assoc, hfront, List.reverse_append, hback, List.reverse_reverse]

end Text

/-- The core of a source: it begins with the `S` of `SELECT` and ends with a semicolon, and around
it there are blanks. -/
structure IsCore (core source : String) : Prop where
  around : ∃ lead trail, source.toList = lead ++ core.toList ++ trail ∧
    (∀ c ∈ lead, Lexer.isBlank c) ∧ ∀ c ∈ trail, Lexer.isBlank c
  first : core.toList.head? = some 'S'
  last : core.toList.getLast? = some ';'

namespace IsCore

variable {core source : String}

/-- Trimming leaves the core, also with more white space behind the source. -/
theorem trim_append (h : IsCore core source) {feed : String}
    (hfeed : ∀ c ∈ feed.toList, Text.isWhiteSpace c) : Text.trim (source ++ feed) = core := by
  obtain ⟨lead, trail, hsource, hlead, htrail⟩ := h.around
  have hcore : core.toList ≠ [] := by
    intro hnil
    have hfirst := h.first
    rw [hnil] at hfirst
    cases hfirst
  have htrim : Text.trimChars (lead ++ core.toList ++ (trail ++ feed.toList)) = core.toList := by
    apply Text.trimChars_around _ _ hcore
    · rw [h.first]
      rintro c ⟨⟩
      decide
    · rw [h.last]
      rintro c ⟨⟩
      decide
    · exact fun c hc ↦ Text.isWhiteSpace_of_isBlank (hlead c hc)
    · exact List.forall_mem_append.mpr
        ⟨fun c hc ↦ Text.isWhiteSpace_of_isBlank (htrail c hc), hfeed⟩
  rw [Text.trim, String.toList_append, hsource, List.append_assoc _ trail, htrim,
    String.ofList_toList]

/-- So it does with nothing behind the source. -/
theorem trim (h : IsCore core source) : Text.trim source = core := by
  have hfeed : ∀ c ∈ "".toList, Text.isWhiteSpace c := by simp
  rw [← h.trim_append hfeed, String.append_empty]

/-- The source ends with the semicolon or with a blank. -/
theorem getLast (h : IsCore core source) :
    ∃ c, source.toList.getLast? = some c ∧ (c = ';' ∨ Lexer.isBlank c) := by
  obtain ⟨lead, trail, hsource, -, htrail⟩ := h.around
  rw [hsource]
  rcases List.eq_nil_or_concat trail with rfl | ⟨front, c, rfl⟩
  · exact ⟨';', by simp [h.last], .inl rfl⟩
  · exact ⟨c, by simp, .inr (htrail c (by simp))⟩

/-- The source begins with the `S` or with a blank. -/
theorem head (h : IsCore core source) :
    ∃ c, source.toList.head? = some c ∧ (c = 'S' ∨ Lexer.isBlank c) := by
  obtain ⟨lead, trail, hsource, hlead, -⟩ := h.around
  rw [hsource]
  cases lead with
  | nil => exact ⟨'S', by simp [h.first], .inl rfl⟩
  | cons c lead => exact ⟨c, by simp, .inr (hlead c (by simp))⟩

end IsCore

/-- A source that is parsed has a core, which is parsed alike but for places. -/
theorem exists_core_of_parseWithin {limit : Nat} {source : String} {s : Statement}
    (h : parseWithin limit source = .ok s) :
    ∃ core s', IsCore core source ∧ parseWithin limit core = .ok s' ∧ s'.bare = s.bare := by
  obtain ⟨hrun, stop, hending⟩ := parseWithin_eq_ok_iff.mp h
  obtain ⟨n, -, hspelled⟩ := Parser.State.run?_start_eq_complete_iff.mp hrun
  obtain ⟨t, middle, e, htokens, ht, he⟩ := hspelled.exists_ends
  have hclosed : ∀ u ∈ (Lexer.ofSource source).remaining.1.getLast?, u.kind ≠ .string := by
    intro u hu
    rw [htokens, ← List.cons_append, List.getLast?_concat] at hu
    rw [← Option.some.inj hu, he]
    decide
  have hlaid := Token.laid_remaining hending hclosed
  rw [htokens] at hlaid hrun
  obtain ⟨lead, between, trail, hsource, hlead, htrail, hcore⟩ := hlaid.exists_core
  obtain ⟨hselect, hrest⟩ := List.forall_mem_cons.mp hlaid.isLexeme
  rw [hselect.text_eq ht rfl, (hrest e (by simp)).text_eq he rfl] at hsource hcore
  rw [← String.toList_ofList (l := "SELECT".toList ++ (between ++ ";".toList))] at hsource hcore
  obtain ⟨s', hs', hbare⟩ := (hcore.parseWithin_iff limit s.bare).mpr (by rw [hrun]; rfl)
  exact ⟨_, s', ⟨⟨lead, trail, hsource, hlead, htrail⟩, by simp, by simp [List.getLast?_cons]⟩,
    hs', hbare⟩

end SelectQuery
