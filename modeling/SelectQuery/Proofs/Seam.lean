import SelectQuery.Proofs.Reading

/-!
# Reading across a seam

A text in which every quote has its partner is read on its own, whatever follows that does not go
on with its last token: first come its tokens, and then what is read behind it
(`Lexer.remaining_append`). Its tokens and its error do not reach out of it
(`Lexer.remaining_within`).
-/

namespace SelectQuery

namespace Lexer

/-- Every quote in the text has its partner. -/
def Paired (text : List Char) : Prop := text.count '"' % 2 = 0

/-- Whether quotes are paired is decided by counting them. -/
instance (text : List Char) : Decidable (Paired text) :=
  inferInstanceAs (Decidable (text.count '"' % 2 = 0))

/-- A text without quotes has nothing to pair. -/
theorem paired_of_all {p : Char → Bool} (hp : p '"' = false) {text : List Char}
    (h : ∀ c ∈ text, p c) : Paired text := by
  have hcount : text.count '"' = 0 := by
    rw [List.count_eq_zero]
    intro hmem
    rw [h _ hmem] at hp
    cases hp
  rw [Paired, hcount]

/-- Behind a text that is paired quotes pair as they do on their own. -/
theorem paired_append_iff {text behind : List Char} (h : Paired text) :
    Paired (text ++ behind) ↔ Paired behind := by
  unfold Paired at *
  rw [List.count_append]
  omega

/-- Blanks are no quotes. -/
theorem paired_of_blank {lead : List Char} (h : ∀ c ∈ lead, isBlank c) : Paired lead :=
  paired_of_all (by decide) h

/-- A quote without another has no partner. -/
theorem not_paired_open {body : List Char} (h : '"' ∉ body) : ¬ Paired ('"' :: body) := by
  rw [Paired, List.count_cons_self, List.count_eq_zero.mpr h]
  decide

/-- A lexeme pairs its quotes. -/
theorem paired_of_lexeme {kind : TokenKind} {text : String} (h : kind.Lexeme text) :
    Paired text.toList := by
  cases h with
  | word hc hrest =>
    rw [String.toList_ofList]
    exact paired_of_all (by decide) (isWordPart_of_mem hc hrest)
  | number hdigits =>
    rw [String.toList_ofList]
    exact paired_of_all (by decide) hdigits
  | string hbody =>
    rw [String.toList_ofList, Paired, List.count_append, List.count_cons_self,
      List.count_eq_zero.mpr hbody]
    rfl
  | mark h =>
    have hmarks : ∀ m ∈ marks, Paired m.2.toList := by decide
    exact hmarks (kind, text) (mem_marks h).1

section

variable {offset : Nat} {text behind : List Char}

/-- A token that is read on its own is read in front of other text, and leaves quotes paired. -/
theorem scan_append_of_token {stop : Nat} {rest : List Char} {t : Token} (htext : Paired text)
    (hbehind : Separate behind) (h : scan offset text = .token t rest stop) :
    scan offset (text ++ behind) = .token t (rest ++ behind) stop ∧ Paired rest := by
  obtain ⟨lead, text', rfl, hlead, hreads, ht, hends⟩ := scan_eq_token_iff.mp h
  rw [paired_append_iff (paired_of_blank hlead)] at htext
  cases hreads with
  | @lexeme kind s rest hs hsplit =>
    rw [hsplit] at htext ⊢
    refine ⟨?_, (paired_append_iff (paired_of_lexeme hs)).mp htext⟩
    rw [List.append_assoc, List.append_assoc]
    exact scan_eq_token_iff.mpr
      ⟨lead, _, rfl, hlead, .lexeme hs rfl, ht, endsBefore_append hends hbehind⟩
  | unclosed =>
    obtain ⟨body, hbody, rfl⟩ := exists_body_of_unclosed ht
    exact absurd htext (not_paired_open hbody)

/-- An error that is met on its own is met in front of other text. -/
theorem scan_append_of_failed {e : LexError} (hbehind : Separate behind)
    (h : scan offset text = .failed e) : scan offset (text ++ behind) = .failed e := by
  obtain ⟨lead, text', rfl, hlead, hrejects⟩ := scan_eq_failed_iff.mp h
  refine scan_eq_failed_iff.mpr ⟨lead, text' ++ behind, List.append_assoc .., hlead, ?_⟩
  cases hrejects with
  | letter hne hdigits hc hsplit =>
    exact .letter hne hdigits hc (by rw [hsplit, List.append_assoc, List.cons_append])
  | @character c rest hblank hpart hquote hmark hsplit =>
    refine .character hblank hpart hquote ?_ (by rw [hsplit, List.cons_append])
    obtain ⟨hc, hequal⟩ := mark?_eq_none_iff.mp hmark
    refine mark?_eq_none_iff.mpr ⟨hc, fun hbang ↦ ?_⟩
    cases rest with
    | nil =>
      intro hhead
      exact (hbehind '=' hhead).2 rfl
    | cons d rest => exact hequal hbang

/-- Behind the end of the text the other text is read. -/
theorem scan_append_of_atEnd {stop : Nat} (h : scan offset text = .atEnd stop) :
    scan offset (text ++ behind) = scan stop behind := by
  obtain ⟨hblank, rfl⟩ := scan_eq_atEnd_iff.mp h
  exact scan_blank_append hblank offset behind

end

/-- What remains of a text in front of another: its tokens and what remains behind, or its error. -/
theorem remaining_append {l : Lexer} {behind : List Char} (hl : Paired l.rest)
    (hbehind : Separate behind) :
    (Lexer.mk (l.rest ++ behind) l.offset l.ended).remaining =
      match l.remaining.2 with
      | .error e => (l.remaining.1, .error e)
      | .ok stop =>
        (l.remaining.1 ++ (Lexer.mk behind stop l.ended).remaining.1,
          (Lexer.mk behind stop l.ended).remaining.2) := by
  induction l using scan_induction with
  | failed l e hs =>
    have hscan := scan_append_of_failed hbehind hs
    rw [remaining_of_failed hs]
    exact remaining_of_failed hscan
  | atEnd l stop hs =>
    have hscan : scan l.offset (l.rest ++ behind) = scan stop behind := scan_append_of_atEnd hs
    rw [remaining_of_atEnd hs]
    exact remaining_congr hscan
  | token l t rest stop hs ih =>
    obtain ⟨hscan, hrest⟩ := scan_append_of_token hl hbehind hs
    rw [remaining_of_token hs, remaining_of_token hscan, ih hrest]
    cases (Lexer.mk rest stop l.ended).remaining.2 <;> rfl

/-- The tokens and the error of a text do not reach out of it, and it ends where it ends. -/
theorem remaining_within (l : Lexer) :
    (∀ t ∈ l.remaining.1, t.span.start < t.span.stop ∧ t.span.stop ≤ l.endOffset) ∧
      match l.remaining.2 with
      | .error e => e.position ≤ l.endOffset
      | .ok stop => stop = l.endOffset := by
  induction l using scan_induction with
  | failed l e hs =>
    obtain ⟨lead, text', htext, -, hrejects⟩ := scan_eq_failed_iff.mp hs
    rw [remaining_of_failed hs]
    refine ⟨by simp, ?_⟩
    rw [endOffset, htext, byteLength_append]
    cases hrejects with
    | letter hne hdigits hc hsplit =>
      rw [hsplit, byteLength_append]
      simp only [LexError.position]
      omega
    | character hblank hpart hquote hmark hsplit =>
      simp only [LexError.position]
      omega
  | atEnd l stop hs =>
    rw [remaining_of_atEnd hs]
    exact ⟨by simp, (scan_eq_atEnd_iff.mp hs).2⟩
  | token l t rest stop hs ih =>
    obtain ⟨lead, text', htext, -, hreads, ht, -⟩ := scan_eq_token_iff.mp hs
    obtain ⟨taken, hne, rfl, rfl, hspan⟩ := hreads.exists_split ht
    have hpos : 0 < byteLength taken := Nat.pos_of_ne_zero (mt byteLength_eq_zero_iff.mp hne)
    have hend : (Lexer.mk rest (l.offset + byteLength lead + byteLength taken) l.ended).endOffset =
        l.endOffset := by
      simp only [endOffset, htext, byteLength_append]
      omega
    rw [hend] at ih
    rw [remaining_of_token hs]
    refine ⟨List.forall_mem_cons.mpr ⟨?_, ih.1⟩, ih.2⟩
    rw [hspan, endOffset, htext, byteLength_append, byteLength_append]
    dsimp only
    omega

end Lexer

end SelectQuery
