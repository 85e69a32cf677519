import Mathlib.Data.List.Basic
import Mathlib.Data.List.Induction
import SelectQuery.Proofs.Seam

/-!
# Flaws of a source

What is wrong with a source, said by its characters alone: a character that may not stand outside of
strings, or a letter right behind a number. Reading passes over what has no flaw (`Flawless`), and
where a token may begin (`Between`) it is the first flaw that keeps it from being read. So a source
can be split into tokens if it has no flaw, and the error is that of its first one
(`tokenize_error_iff_flawed`).
-/

namespace SelectQuery

namespace Lexer

/-- The character may stand in front of `behind`, outside of strings: a blank, a part of words or
numbers, a quote or a mark. The exclamation mark is one in front of an equals sign only. -/
def isAdmitted (c : Char) (behind : List Char) : Bool :=
  isBlank c || isWordPart c || c == '"' || [',', '=', '*', '(', ')', ';', '<', '>'].contains c ||
    c == '!' && behind.head? == some '='

/-- The character is admitted whatever follows, and begins no word. -/
def isPlain (c : Char) : Bool := isAdmitted c [] && !isWordStart c

/-- The text ends with a run of digits, which neither goes on with a word nor with other digits. -/
def EndsInNumber (text : List Char) : Prop :=
  ∃ front digits, text = front ++ digits ∧ digits ≠ [] ∧ (∀ d ∈ digits, d.isDigit) ∧
    ∀ d ∈ front.getLast?, isWordPart d = false

/-- What is wrong with a character that stands between two texts, outside of strings. -/
inductive Flaw (passed : List Char) (c : Char) (behind : List Char) : LexError → Prop where
  | character : isAdmitted c behind = false →
      Flaw passed c behind (.unexpectedCharacter c (byteLength passed))
  | letter : EndsInNumber passed → isWordStart c →
      Flaw passed c behind (.letterInNumber (byteLength passed))

/-- The source has a flaw. It stands outside of strings: each of them runs from a quote to the next
one, or to the end of the source, so that all quotes in front of the flaw have partners. -/
def Flawed (source : String) (e : LexError) : Prop :=
  ∃ passed c behind, source.toList = passed ++ c :: behind ∧ Paired passed ∧ Flaw passed c behind e

/-- No character of the stretch has a flaw, where it stands between the two other texts. -/
def Flawless (passed stretch behind : List Char) : Prop :=
  ∀ front c rest e, stretch = front ++ c :: rest → Paired (passed ++ front) →
    ¬ Flaw (passed ++ front) c (rest ++ behind) e

/-- The text has a flaw, and no other in front of that. -/
def FirstFlaw (passed text : List Char) (e : LexError) : Prop :=
  ∃ front c behind, text = front ++ c :: behind ∧ Paired (passed ++ front) ∧
    Flaw (passed ++ front) c behind e ∧ Flawless passed front (c :: behind)

section

variable {passed text behind : List Char} {c : Char} {e : LexError}

/-- The error of a flaw points at the character. -/
theorem Flaw.position_eq (h : Flaw passed c behind e) : e.position = byteLength passed := by
  cases h <;> rfl

/-- What is admitted whatever follows is admitted in front of every text. -/
theorem isAdmitted_of_nil (h : isAdmitted c [] = true) (behind : List Char) :
    isAdmitted c behind = true := by
  simp only [isAdmitted, List.head?_nil, Bool.or_eq_true, Bool.and_eq_true] at h ⊢
  rcases h with h | ⟨-, h⟩
  · exact .inl h
  · cases h

/-- A part of a word is admitted. -/
theorem isAdmitted_of_isWordPart (h : isWordPart c) (behind : List Char) :
    isAdmitted c behind = true := by
  simp [isAdmitted, h]

/-- What is not admitted is no blank, no part of a word and no quote, and begins no mark. -/
theorem isAdmitted_eq_false_iff : isAdmitted c behind = false ↔
    isBlank c = false ∧ isWordPart c = false ∧ c ≠ '"' ∧ mark? (c :: behind) = none := by
  simp only [isAdmitted, mark?_eq_none_iff, Bool.or_eq_false_iff, beq_eq_false_iff_ne,
    Bool.and_eq_false_imp, beq_iff_eq, and_assoc]
  simp

/-- A character has at most one flaw. -/
theorem Flaw.unique {e' : LexError} (h : Flaw passed c behind e) (h' : Flaw passed c behind e') :
    e = e' := by
  have hstart (hadmitted : isAdmitted c behind = false) : ¬ isWordStart c := by
    intro hstart
    rw [isAdmitted_of_isWordPart (isWordPart_of_isWordStart hstart)] at hadmitted
    cases hadmitted
  cases h with
  | character hadmitted =>
    cases h' with
    | character => rfl
    | letter _ hc => exact absurd hc (hstart hadmitted)
  | letter _ hc =>
    cases h' with
    | character hadmitted => exact absurd hc (hstart hadmitted)
    | letter => rfl

/-- What is admitted and begins no word has no flaw. -/
theorem not_flaw (hadmitted : isAdmitted c behind = true) (hstart : isWordStart c = false) :
    ¬ Flaw passed c behind e := by
  rintro (hflaw | ⟨-, hflaw⟩)
  · rw [hadmitted] at hflaw
    cases hflaw
  · rw [hstart] at hflaw
    cases hflaw

/-- A run of digits goes on with one more digit, or begins with it. -/
theorem endsInNumber_concat_iff : EndsInNumber (passed ++ [c]) ↔
    c.isDigit ∧ (EndsInNumber passed ∨ ∀ d ∈ passed.getLast?, isWordPart d = false) := by
  constructor
  · rintro ⟨front, digits, hsplit, hne, hdigits, hfront⟩
    obtain ⟨digits, d, rfl⟩ := (List.eq_nil_or_concat' digits).resolve_left hne
    rw [← List.append_assoc] at hsplit
    obtain ⟨rfl, hc⟩ := List.append_inj' hsplit rfl
    obtain rfl : c = d := by simpa using hc
    obtain ⟨hdigits, hc⟩ := List.forall_mem_append.mp hdigits
    refine ⟨hc c (List.mem_singleton_self c), ?_⟩
    by_cases hnil : digits = []
    · rw [hnil, List.append_nil]
      exact .inr hfront
    · exact .inl ⟨front, digits, rfl, hnil, hdigits, hfront⟩
  · rintro ⟨hc, ⟨front, digits, rfl, -, hdigits, hfront⟩ | hpassed⟩
    · refine ⟨front, digits ++ [c], List.append_assoc .., by simp, ?_, hfront⟩
      exact List.forall_mem_append.mpr ⟨hdigits, by simpa using hc⟩
    · exact ⟨passed, [c], rfl, by simp, by simpa using hc, hpassed⟩

/-- Behind what is no part of a word no number ends. -/
theorem not_endsInNumber (h : ∀ d ∈ passed.getLast?, isWordPart d = false) :
    ¬ EndsInNumber passed := by
  rintro ⟨front, digits, rfl, hne, hdigits, -⟩
  obtain ⟨digits, d, rfl⟩ := (List.eq_nil_or_concat' digits).resolve_left hne
  have hd : d.isDigit := hdigits d (by simp)
  have hpart : isWordPart d = false := h d (by simp [← List.append_assoc])
  rw [isWordPart_of_isDigit hd] at hpart
  cases hpart

/-- The digits in a word are no number. -/
theorem not_endsInNumber_of_word {word : List Char} (hc : isWordStart c)
    (hword : ∀ d ∈ word, isWordPart d) : ¬ EndsInNumber (passed ++ c :: word) := by
  induction word using List.reverseRecOn with
  | nil =>
    rw [endsInNumber_concat_iff, isDigit_of_isWordStart hc]
    rintro ⟨hdigit, -⟩
    cases hdigit
  | append_singleton word d ih =>
    obtain ⟨hword, -⟩ := List.forall_mem_append.mp hword
    rw [← List.cons_append, ← List.append_assoc, endsInNumber_concat_iff]
    rintro ⟨-, hnumber | hlast⟩
    · exact ih hword hnumber
    · have hne : c :: word ≠ [] := List.cons_ne_nil c word
      rw [List.getLast?_append_of_ne_nil _ hne, List.getLast?_eq_some_getLast hne] at hlast
      have hnone := hlast _ rfl
      rw [isWordPart_of_mem hc hword _ (List.getLast_mem hne)] at hnone
      cases hnone

end

section

variable {passed stretch text behind : List Char} {c : Char} {e : LexError}

/-- There is nothing wrong with no text. -/
theorem flawless_nil (passed behind : List Char) : Flawless passed [] behind := by
  intro front c rest e hsplit
  simp at hsplit

/-- A stretch is looked through from its first character on. -/
theorem flawless_cons_iff : Flawless passed (c :: stretch) behind ↔
    (Paired passed → ∀ e, ¬ Flaw passed c (stretch ++ behind) e) ∧
      Flawless (passed ++ [c]) stretch behind := by
  constructor
  · intro h
    constructor
    · intro hpassed e
      simpa using h [] c stretch e rfl (by simpa using hpassed)
    · intro front d rest e hsplit
      simpa using h (c :: front) d rest e (by rw [hsplit]; rfl)
  · rintro ⟨hc, hstretch⟩ front d rest e hsplit hpaired
    cases front with
    | nil =>
      obtain ⟨rfl, rfl⟩ := List.cons.inj hsplit
      rw [List.append_nil] at hpaired ⊢
      exact hc hpaired e
    | cons d' front =>
      obtain ⟨rfl, hbehind⟩ := List.cons.inj hsplit
      simpa using hstretch front d rest e hbehind (by simpa using hpaired)

/-- Two stretches are looked through one after the other. -/
theorem flawless_append_iff {first second : List Char} :
    Flawless passed (first ++ second) behind ↔
      Flawless passed first (second ++ behind) ∧ Flawless (passed ++ first) second behind := by
  induction first generalizing passed with
  | nil => simp [flawless_nil]
  | cons c first ih =>
    simp [flawless_cons_iff, ih, and_assoc]

/-- Plain characters have no flaw. -/
theorem flawless_of_plain (h : stretch.all isPlain) : Flawless passed stretch behind := by
  rintro front c rest e rfl -
  have hc := List.all_eq_true.mp h c (by simp)
  rw [isPlain, Bool.and_eq_true, Bool.not_eq_true'] at hc
  exact not_flaw (isAdmitted_of_nil hc.1 _) hc.2

/-- Blanks hold no flaw. -/
theorem flawless_of_blank (h : ∀ c ∈ stretch, isBlank c) : Flawless passed stretch behind := by
  apply flawless_of_plain
  rw [List.all_eq_true]
  intro c hc
  have hstart := isWordStart_eq_false (isWordPart_of_isBlank (h c hc))
  simp [isPlain, isAdmitted, h c hc, hstart]

/-- Digits by themselves hold no flaw. -/
theorem flawless_of_digits (h : ∀ c ∈ stretch, c.isDigit) : Flawless passed stretch behind := by
  apply flawless_of_plain
  rw [List.all_eq_true]
  intro c hc
  have hstart : isWordStart c = false := by
    cases hstart : isWordStart c with
    | false => rfl
    | true =>
      have hdigit := h c hc
      rw [isDigit_of_isWordStart hstart] at hdigit
      cases hdigit
  rw [isPlain, isAdmitted_of_isWordPart (isWordPart_of_isDigit (h c hc)), hstart]
  rfl

/-- What stands in a string has no flaw, also where the source leaves it open. -/
theorem flawless_of_open {body : List Char} (hpassed : Paired passed) (hbody : '"' ∉ body) :
    Flawless passed ('"' :: body) behind := by
  rw [flawless_cons_iff]
  constructor
  · intro _ e
    exact not_flaw rfl (by decide)
  · rintro front c rest e rfl hpaired
    rw [List.append_assoc, paired_append_iff hpassed] at hpaired
    exact absurd hpaired (not_paired_open fun hmem ↦ hbody (List.mem_append_left _ hmem))

/-- A word that is not glued to another or to a number has no flaw. -/
theorem flawless_of_word {word : List Char} (hpassed : ∀ d ∈ passed.getLast?, isWordPart d = false)
    (hc : isWordStart c) (hword : ∀ d ∈ word, isWordPart d) :
    Flawless passed (c :: word) behind := by
  rintro front d rest e hsplit - (hadmitted | ⟨hnumber, -⟩)
  · have hpart := isWordPart_of_mem hc hword d (by simp [hsplit])
    rw [isAdmitted_of_isWordPart hpart] at hadmitted
    cases hadmitted
  · cases front with
    | nil =>
      rw [List.append_nil] at hnumber
      exact not_endsInNumber hpassed hnumber
    | cons c' front =>
      obtain ⟨rfl, rfl⟩ := List.cons.inj hsplit
      exact not_endsInNumber_of_word hc (List.forall_mem_append.mp hword).1 hnumber

/-- An operator or a punctuation mark has no flaw. -/
theorem flawless_of_mark {kind : TokenKind} {mark : String} (h : (kind, mark) ∈ marks) :
    Flawless passed mark.toList behind := by
  by_cases hbang : mark = "!="
  · -- The exclamation mark is admitted because of what follows.
    rw [hbang]
    exact flawless_cons_iff.mpr
      ⟨fun _ e ↦ not_flaw rfl (by decide), flawless_of_plain (by decide)⟩
  · have hmarks : ∀ m ∈ marks, m.2 ≠ "!=" → m.2.toList.all isPlain := by decide
    exact flawless_of_plain (hmarks (kind, mark) h hbang)

/-- A token may begin between the two texts: no string is open there, and what follows does not go
on with a word or a number. -/
structure Between (passed rest : List Char) : Prop where
  paired : Paired passed
  parted : ∀ d ∈ passed.getLast?, ∀ c ∈ rest.head?, isWordPart c → isWordPart d = false

/-- A lexeme where a token may begin has no flaw. -/
theorem Between.flawless {kind : TokenKind} {s : String} (h : Between passed (s.toList ++ behind))
    (hs : kind.Lexeme s) : Flawless passed s.toList behind := by
  cases hs with
  | @word c word hc hword =>
    rw [String.toList_ofList] at h ⊢
    apply flawless_of_word _ hc hword
    intro d hd
    exact h.parted d hd c rfl (isWordPart_of_isWordStart hc)
  | number hdigits =>
    rw [String.toList_ofList]
    exact flawless_of_digits hdigits
  | string hbody =>
    rw [String.toList_ofList]
    exact flawless_append_iff.mpr
      ⟨flawless_of_open h.paired hbody, flawless_of_plain (by decide)⟩
  | mark hmark => exact flawless_of_mark (mem_marks hmark).1

/-- A word or a number does not go on behind the token that it is, and no other token ends like
one. -/
theorem parted_of_lexeme {kind : TokenKind} {s : String} (hs : kind.Lexeme s)
    (hends : kind.EndsBefore behind) :
    ∀ d ∈ s.toList.getLast?, ∀ c ∈ behind.head?, isWordPart c → isWordPart d = false := by
  intro d hd c hc hpart
  cases hs with
  | word _ _ =>
    have hnone := TokenKind.endsBefore_ofWord.mp hends c hc
    rw [hpart] at hnone
    cases hnone
  | number _ =>
    have hnone := TokenKind.endsBefore_number.mp hends c hc
    rw [hpart] at hnone
    cases hnone
  | string _ =>
    rw [String.toList_ofList, List.getLast?_concat] at hd
    obtain rfl := Option.some.inj hd
    decide
  | mark hmark =>
    have hmarks : ∀ m ∈ marks, m.2.toList.getLast?.all fun d ↦ !isWordPart d := by decide
    have hlast := hmarks (kind, s) (mem_marks hmark).1
    rw [Option.mem_def] at hd
    rw [hd] at hlast
    simpa using hlast

/-- Behind a lexeme a token may begin. -/
theorem Between.behind_lexeme {kind : TokenKind} {s : String}
    (h : Between passed (s.toList ++ behind)) (hs : kind.Lexeme s)
    (hends : kind.EndsBefore behind) : Between (passed ++ s.toList) behind := by
  obtain ⟨c, tail, hsplit, -⟩ := head_of_lexeme hs
  have hne : s.toList ≠ [] := by simp [hsplit]
  constructor
  case paired => exact (paired_append_iff h.paired).mpr (paired_of_lexeme hs)
  case parted =>
    rw [List.getLast?_append_of_ne_nil _ hne]
    exact parted_of_lexeme hs hends

/-- Behind blanks a token may begin. -/
theorem Between.behind_blanks {lead : List Char} (h : Between passed (lead ++ text))
    (hlead : ∀ c ∈ lead, isBlank c) : Between (passed ++ lead) text := by
  by_cases hne : lead = []
  · rw [hne, List.append_nil]
    rwa [hne] at h
  · constructor
    case paired => exact (paired_append_iff h.paired).mpr (paired_of_blank hlead)
    case parted =>
      intro d hd _ _ _
      rw [List.getLast?_append_of_ne_nil _ hne] at hd
      exact isWordPart_of_isBlank (hlead d (List.mem_of_getLast? hd))

/-- What keeps a token from being read where one may begin is a flaw. -/
theorem Between.firstFlaw (h : Between passed text) (he : Rejects (byteLength passed) text e) :
    FirstFlaw passed text e := by
  cases he with
  | @letter digits rest c hne hdigits hc hsplit =>
    have hnumber : EndsInNumber (passed ++ digits) := by
      obtain ⟨d, digits', rfl⟩ := List.exists_cons_of_ne_nil hne
      have hd : isWordPart d := isWordPart_of_isDigit (hdigits d (by simp))
      refine ⟨passed, d :: digits', rfl, hne, hdigits, fun d' hd' ↦ ?_⟩
      exact h.parted d' hd' d (by simp [hsplit]) hd
    have hpaired : Paired (passed ++ digits) :=
      (paired_append_iff h.paired).mpr (paired_of_all (by decide) hdigits)
    refine ⟨digits, c, rest, hsplit, hpaired, ?_, flawless_of_digits hdigits⟩
    rw [← byteLength_append]
    exact .letter hnumber hc
  | @character c rest hblank hpart hquote hmark hsplit =>
    have hpaired : Paired (passed ++ []) := by
      rw [List.append_nil]
      exact h.paired
    refine ⟨[], c, rest, hsplit, hpaired, ?_, flawless_nil _ _⟩
    rw [List.append_nil]
    exact .character (isAdmitted_eq_false_iff.mpr ⟨hblank, hpart, hquote, hmark⟩)

/-- What reading a text ends with says what is wrong with it: its first flaw, or nothing. -/
def Verdict (passed text : List Char) : Except LexError Nat → Prop
  | .ok _ => Flawless passed text []
  | .error e => FirstFlaw passed text e

/-- A stretch without flaws in front of a text changes no verdict. -/
theorem Verdict.append {ending : Except LexError Nat} (hstretch : Flawless passed stretch text)
    (h : Verdict (passed ++ stretch) text ending) : Verdict passed (stretch ++ text) ending := by
  cases ending with
  | ok stop =>
    refine flawless_append_iff.mpr ⟨?_, h⟩
    rwa [List.append_nil]
  | error e =>
    obtain ⟨front, c, behind, rfl, hpaired, hflaw, hfront⟩ := h
    rw [List.append_assoc] at hpaired hflaw
    exact ⟨stretch ++ front, c, behind, by rw [List.append_assoc], hpaired, hflaw,
      flawless_append_iff.mpr ⟨hstretch, hfront⟩⟩

/-- Where a token may begin, what remains ends with a verdict on the text that is left. -/
theorem Between.verdict {l : Lexer} (h : Between passed l.rest)
    (hl : l.offset = byteLength passed) : Verdict passed l.rest l.remaining.2 := by
  induction l using scan_induction generalizing passed with
  | failed l e hs =>
    obtain ⟨lead, text, htext, hlead, hrejects⟩ := scan_eq_failed_iff.mp hs
    rw [htext] at h
    rw [hl, ← byteLength_append] at hrejects
    rw [remaining_of_failed hs, htext]
    exact .append (flawless_of_blank hlead) ((h.behind_blanks hlead).firstFlaw hrejects)
  | atEnd l stop hs =>
    rw [remaining_of_atEnd hs]
    exact flawless_of_blank (scan_eq_atEnd_iff.mp hs).1
  | token l t rest stop hs ih =>
    obtain ⟨lead, text, htext, hlead, hreads, ht, hends⟩ := scan_eq_token_iff.mp hs
    rw [htext] at h
    have hbehind := h.behind_blanks hlead
    rw [remaining_of_token hs, htext]
    apply Verdict.append (flawless_of_blank hlead)
    cases hreads with
    | @lexeme kind s rest hlexeme hsplit =>
      rw [hsplit] at hbehind ⊢
      apply Verdict.append (hbehind.flawless hlexeme)
      apply ih (hbehind.behind_lexeme hlexeme hends)
      rw [byteLength_append, byteLength_append, byteLength_toList, hl]
    | unclosed =>
      -- A string that is left open is the last that is read.
      obtain ⟨body, hbody, rfl⟩ := exists_body_of_unclosed ht
      have hend (stop : Nat) : scan stop [] = .atEnd stop := rfl
      rw [remaining_of_atEnd (hend _)]
      exact flawless_of_open hbehind.paired hbody

/-- A source without flaws has none. -/
theorem Flawless.not_flawed {source : String} (h : Flawless [] source.toList []) :
    ¬ Flawed source e := by
  rintro ⟨passed, c, behind, hsource, hpassed, hflaw⟩
  apply h passed c behind e hsource hpassed
  rwa [List.append_nil]

/-- The first flaw of a source is one of its flaws. -/
theorem FirstFlaw.flawed {source : String} (h : FirstFlaw [] source.toList e) :
    Flawed source e := by
  obtain ⟨front, c, behind, hsource, hpaired, hflaw, -⟩ := h
  exact ⟨front, c, behind, hsource, hpaired, hflaw⟩

/-- Every other flaw of a source stands behind the first. -/
theorem FirstFlaw.lt_of_flawed {source : String} {e' : LexError}
    (h : FirstFlaw [] source.toList e) (he' : Flawed source e') :
    e' = e ∨ e.position < e'.position := by
  obtain ⟨front, c, behind, hsource, hpaired, hflaw, hfront⟩ := h
  obtain ⟨passed, c', behind', hsource', hpassed, hflaw'⟩ := he'
  rw [List.nil_append] at hflaw
  by_cases hlt : e.position < e'.position
  · exact .inr hlt
  · left
    rw [hflaw.position_eq, hflaw'.position_eq, Nat.not_lt] at hlt
    obtain ⟨more, rfl⟩ := prefix_of_byteLength_le ⟨_, hsource'.symm⟩ ⟨_, hsource.symm⟩ hlt
    rw [hsource', List.append_assoc] at hsource
    have hmore := List.append_cancel_left hsource
    cases more with
    | nil =>
      obtain ⟨rfl, rfl⟩ := List.cons.inj hmore
      rw [List.append_nil] at hflaw
      exact hflaw'.unique hflaw
    | cons d more =>
      obtain ⟨rfl, rfl⟩ := List.cons.inj hmore
      exact absurd hflaw' (hfront passed c' more e' rfl hpassed)

/-- The first flaw of a source is the one whose error points nearest to the front. -/
theorem FirstFlaw.eq_iff {source : String} {e' : LexError} (h : FirstFlaw [] source.toList e) :
    e = e' ↔
      Flawed source e' ∧ ∀ other, Flawed source other → e'.position ≤ other.position := by
  constructor
  · rintro rfl
    refine ⟨h.flawed, fun other hother ↦ ?_⟩
    rcases h.lt_of_flawed hother with rfl | hlt
    · exact Nat.le_refl _
    · exact Nat.le_of_lt hlt
  · rintro ⟨he', hleast⟩
    rcases h.lt_of_flawed he' with rfl | hlt
    · rfl
    · exact absurd (hleast e h.flawed) (Nat.not_le.mpr hlt)

end

end Lexer

/-- A source that cannot be split into tokens has a flaw, and a source that has one cannot be split;
the error is that of the first flaw. -/
theorem tokenize_error_iff_flawed (source : String) :
    ((∃ e, tokenize source = .error e) ↔ ∃ e, Lexer.Flawed source e) ∧
      ∀ e, tokenize source = .error e ↔
        Lexer.Flawed source e ∧ ∀ e', Lexer.Flawed source e' → e.position ≤ e'.position := by
  have hstart : Lexer.Between [] (Lexer.ofSource source).rest := ⟨rfl, by simp⟩
  have hverdict := hstart.verdict rfl
  simp only [tokenize_eq_error_iff]
  cases hending : (Lexer.ofSource source).remaining.2 with
  | ok stop =>
    rw [hending] at hverdict
    have hnone (e : LexError) : ¬ Lexer.Flawed source e := Lexer.Flawless.not_flawed hverdict
    simp [hnone]
  | error first =>
    rw [hending] at hverdict
    have hfirst : Lexer.FirstFlaw [] source.toList first := hverdict
    constructor
    · exact ⟨fun _ ↦ ⟨first, hfirst.flawed⟩, fun _ ↦ ⟨first, rfl⟩⟩
    · intro e
      rw [Except.error.injEq]
      exact hfirst.eq_iff

end SelectQuery
