import Mathlib.Data.List.TakeWhile
import SelectQuery.Lexer

/-!
# Lexemes

Which texts are read as one token. A lexeme is read as a token of its kind as long as nothing
follows that goes on with it (`Lexer.scan_lexeme`), and all that is read are lexemes, but for a
string that is still open where the source ends (`Lexer.isLexeme_of_scan`). That string gains a
quote, and so every text of a token is a lexeme (`Lexer.scanLexeme_eq_token_iff`). What is found at
a place is a token, the end of the source or an error, and for each of them there is an equivalence
that says when: `Lexer.scan_eq_token_iff`, `Lexer.scan_eq_atEnd_iff` and `Lexer.scan_eq_failed_iff`.
-/

namespace SelectQuery

/-- The texts of the tokens of a kind: words, which are keywords or identifiers; runs of digits;
closed strings; and the operators and punctuation marks. -/
inductive TokenKind.Lexeme : TokenKind → String → Prop where
  | word {c : Char} {rest : List Char} : Lexer.isWordStart c → (∀ d ∈ rest, Lexer.isWordPart d) →
      Lexeme (.ofWord (.ofList (c :: rest))) (.ofList (c :: rest))
  | number {c : Char} {rest : List Char} : (∀ d ∈ c :: rest, d.isDigit) →
      Lexeme .number (.ofList (c :: rest))
  | string {body : List Char} : '"' ∉ body → Lexeme .string (.ofList ('"' :: body ++ ['"']))
  | mark {kind : TokenKind} {text : String} : Lexer.mark? text.toList = some (kind, text, []) →
      Lexeme kind text

/-- The text is a word of ASCII letters, digits and underscores that does not begin with a digit,
and it spells no keyword. -/
def IsName (text : String) : Prop :=
  (∃ c rest, text.toList = c :: rest ∧ Lexer.isWordStart c ∧ ∀ d ∈ rest, Lexer.isWordPart d) ∧
    TokenKind.keyword? text = none

/-- The text is a run of ASCII digits that is not empty. -/
def IsDigits (text : String) : Prop := text.toList ≠ [] ∧ ∀ c ∈ text.toList, c.isDigit

/-- The text of a kind whose tokens all have one text: a keyword, an operator or a mark. -/
def TokenKind.text? : TokenKind → Option String
  | selectKw => some "SELECT"
  | fromKw => some "FROM"
  | whereKw => some "WHERE"
  | andKw => some "AND"
  | orKw => some "OR"
  | notKw => some "NOT"
  | asKw => some "AS"
  | comma => some ","
  | equal => some "="
  | notEqual => some "!="
  | less => some "<"
  | lessEqual => some "<="
  | greater => some ">"
  | greaterEqual => some ">="
  | star => some "*"
  | leftParen => some "("
  | rightParen => some ")"
  | semicolon => some ";"
  | identifier | number | string | eof => none

namespace TokenKind

/-- Whether words are of this kind. -/
def isWord : TokenKind → Bool
  | selectKw | fromKw | whereKw | andKw | orKw | notKw | asKw | identifier => true
  | _ => false

/-- A word is a keyword or an identifier. -/
theorem isWord_ofWord (word : String) : (ofWord word).isWord = true := by
  unfold ofWord keyword?
  split <;> rfl

/-- What a word is not, by its kind. -/
theorem ofWord_ne {kind : TokenKind} (h : kind.isWord = false) (word : String) :
    ofWord word ≠ kind := by
  rintro rfl
  rw [isWord_ofWord] at h
  cases h

/-- A word is an identifier if it spells no keyword. -/
theorem ofWord_eq_identifier_iff {word : String} :
    ofWord word = identifier ↔ keyword? word = none := by
  unfold ofWord keyword?
  split <;> simp

/-- Whether the character, right behind a token of the kind, would belong to the token. Words and
numbers go on with what words are made of, and two of the marks with an equals sign. -/
def goesOn (kind : TokenKind) (c : Char) : Bool :=
  (kind.isWord || kind == number) && Lexer.isWordPart c ||
    (kind == less || kind == greater) && c == '='

/-- The text does not go on with a token of the kind. -/
def EndsBefore (kind : TokenKind) (rest : List Char) : Prop :=
  ∀ c ∈ rest.head?, kind.goesOn c = false

/-- Every token ends with the source. -/
theorem endsBefore_nil (kind : TokenKind) : kind.EndsBefore [] := by
  intro c hc
  cases hc

/-- A token that ends before a text ends before the beginnings of that text. -/
theorem endsBefore_of_append {kind : TokenKind} {rest behind : List Char}
    (h : kind.EndsBefore (rest ++ behind)) : kind.EndsBefore rest := by
  cases rest with
  | nil => exact endsBefore_nil kind
  | cons c rest => exact h

/-- A word ends before the first character that is no part of it. -/
theorem endsBefore_ofWord {word : String} {rest : List Char} :
    (ofWord word).EndsBefore rest ↔ ∀ c ∈ rest.head?, Lexer.isWordPart c = false := by
  have hgoesOn (c : Char) : (ofWord word).goesOn c = Lexer.isWordPart c := by
    have hless : (ofWord word == less) = false := beq_eq_false_iff_ne.mpr (ofWord_ne rfl word)
    have hgreater : (ofWord word == greater) = false :=
      beq_eq_false_iff_ne.mpr (ofWord_ne rfl word)
    simp [goesOn, isWord_ofWord, hless, hgreater]
  simp only [EndsBefore, hgoesOn]

/-- A number ends before the first character that is no part of a word. -/
theorem endsBefore_number {rest : List Char} :
    number.EndsBefore rest ↔ ∀ c ∈ rest.head?, Lexer.isWordPart c = false := by
  simp [EndsBefore, goesOn]

/-- A closed string ends whatever follows. -/
theorem endsBefore_string (rest : List Char) : string.EndsBefore rest := by
  intro c hc
  simp [goesOn, isWord]

end TokenKind

/-- The text of the token is one that is read as a token of its kind. -/
def Token.IsLexeme (t : Token) : Prop := t.kind.Lexeme t.text

namespace Lexer

/-- The text begins with nothing that would go on with a word, a number or an operator. -/
def Separate (text : List Char) : Prop := ∀ c ∈ text.head?, isWordPart c = false ∧ c ≠ '='

/-- Only the first character counts. -/
theorem separate_cons {c : Char} {text : List Char} :
    Separate (c :: text) ↔ isWordPart c = false ∧ c ≠ '=' := by
  simp [Separate]

/-- What goes on with no token ends every token. -/
theorem Separate.endsBefore {text : List Char} (h : Separate text) (kind : TokenKind) :
    kind.EndsBefore text := by
  intro c hc
  obtain ⟨hpart, hequal⟩ := h c hc
  simp [TokenKind.goesOn, hpart, hequal]

/-- A token that ends before a text still ends before it where more follows that goes on with no
token. -/
theorem endsBefore_append {kind : TokenKind} {rest behind : List Char} (h : kind.EndsBefore rest)
    (hbehind : Separate behind) : kind.EndsBefore (rest ++ behind) := by
  cases rest with
  | nil => exact hbehind.endsBefore kind
  | cons c rest => exact h

/-- No digit begins a word. -/
theorem isDigit_of_isWordStart {c : Char} (h : isWordStart c) : c.isDigit = false := by
  change ((decide (c.val ≥ 65 ∧ c.val ≤ 90) || (c.val ≥ 97 && c.val ≤ 122)) || c == '_') = true at h
  change (c.val ≥ 48 && c.val ≤ 57) = false
  simp only [Bool.or_eq_true, Bool.and_eq_true, decide_eq_true_eq, beq_iff_eq,
    Bool.and_eq_false_iff, decide_eq_false_iff_not, UInt32.le_iff_toNat_le, ge_iff_le] at h ⊢
  rcases h with h | rfl
  · simp at h ⊢
    omega
  · decide

/-- A digit may stand in a word. -/
theorem isWordPart_of_isDigit {c : Char} (h : c.isDigit) : isWordPart c := by
  simp [isWordPart, Char.isAlphanum, h]

/-- A word is made of parts of words. -/
theorem isWordPart_of_mem {c : Char} {rest : List Char} (hc : isWordStart c)
    (hrest : ∀ d ∈ rest, isWordPart d) : ∀ d ∈ c :: rest, isWordPart d :=
  List.forall_mem_cons.mpr ⟨isWordPart_of_isWordStart hc, hrest⟩

private theorem isDigit_eq_false {c : Char} (h : isWordPart c = false) : c.isDigit = false := by
  simp only [isWordPart, Char.isAlphanum, Bool.or_eq_false_iff] at h
  exact h.1.2

/-- What is no part of a word begins none. -/
theorem isWordStart_eq_false {c : Char} (h : isWordPart c = false) :
    isWordStart c = false := by
  simp only [isWordPart, Char.isAlphanum, Bool.or_eq_false_iff] at h
  rw [isWordStart, h.1.1, h.2]
  rfl

/-- There are four blanks. -/
theorem isBlank_iff {c : Char} : isBlank c ↔ c = ' ' ∨ c = '\n' ∨ c = '\r' ∨ c = '\t' := by
  simp [isBlank, or_assoc]

/-- A blank is no part of a word. -/
theorem isWordPart_of_isBlank {c : Char} (h : isBlank c) : isWordPart c = false := by
  rcases isBlank_iff.mp h with rfl | rfl | rfl | rfl <;> rfl

/-- No part of a word is a blank. -/
theorem isBlank_of_isWordPart {c : Char} (h : isWordPart c) : isBlank c = false := by
  cases hblank : isBlank c with
  | false => rfl
  | true =>
    rw [isWordPart_of_isBlank hblank] at h
    cases h

/-- No token goes on with a blank. -/
theorem separate_of_isBlank {text : List Char} (h : ∀ c ∈ text.head?, isBlank c) :
    Separate text := by
  intro c hc
  have hblank := h c hc
  refine ⟨isWordPart_of_isBlank hblank, ?_⟩
  rintro rfl
  cases hblank

/-- A text that a predicate holds of ends before one that it does not go on to hold of. -/
theorem takeWhile_append_stop {p : Char → Bool} {text rest : List Char}
    (htext : ∀ c ∈ text, p c) (hrest : ∀ c ∈ rest.head?, p c = false) :
    (text ++ rest).takeWhile p = text ∧ (text ++ rest).dropWhile p = rest := by
  rw [List.takeWhile_append_of_pos htext, List.dropWhile_append_of_pos htext]
  cases rest with
  | nil => simp
  | cons c rest =>
    have hc : p c = false := hrest c rfl
    simp [hc]

private theorem bne_quote_of_mem {body : List Char} (h : '"' ∉ body) :
    ∀ d ∈ body, (d != '"') = true := by
  intro d hd
  rw [bne_iff_ne]
  rintro rfl
  exact h hd

/-- The operators and punctuation marks with their kinds. -/
def marks : List (TokenKind × String) :=
  [(.lessEqual, "<="), (.greaterEqual, ">="), (.notEqual, "!="), (.comma, ","), (.equal, "="),
    (.star, "*"), (.leftParen, "("), (.rightParen, ")"), (.semicolon, ";"), (.less, "<"),
    (.greater, ">")]

/-- What is found at the head of a text is one of the marks, and the rest stands behind it. -/
theorem mem_marks {kind : TokenKind} {s : String} {text rest : List Char}
    (h : mark? text = some (kind, s, rest)) : (kind, s) ∈ marks ∧ text = s.toList ++ rest := by
  unfold mark? at h
  split at h <;> simp only [Option.some.injEq, Prod.mk.injEq, reduceCtorEq] at h
  all_goals
    obtain ⟨rfl, rfl, rfl⟩ := h
    exact ⟨by decide, rfl⟩

private theorem text?_of_mark {kind : TokenKind} {s : String} {text rest : List Char}
    (h : mark? text = some (kind, s, rest)) : kind.text? = some s := by
  have hmarks : ∀ m ∈ marks, m.1.text? = some m.2 := by decide
  exact hmarks (kind, s) (mem_marks h).1

private theorem mark?_append {kind : TokenKind} {s : String} {text rest : List Char}
    (h : mark? text = some (kind, s, [])) (hrest : kind.EndsBefore rest) :
    mark? (text ++ rest) = some (kind, s, rest) := by
  unfold mark? at h
  split at h <;> simp only [Option.some.injEq, Prod.mk.injEq, reduceCtorEq] at h
  all_goals
    obtain ⟨rfl, rfl, rfl⟩ := h
    rcases rest with _ | ⟨c, rest⟩
    · rfl
    · simp_all [mark?, TokenKind.EndsBefore, TokenKind.goesOn, TokenKind.isWord]

private theorem endsBefore_of_mark {kind : TokenKind} {s : String} {text rest : List Char}
    (h : mark? text = some (kind, s, rest)) : kind.EndsBefore rest := by
  unfold mark? at h
  split at h <;> simp only [Option.some.injEq, Prod.mk.injEq, reduceCtorEq] at h
  all_goals
    obtain ⟨rfl, -, rfl⟩ := h
    intro c hc
    obtain ⟨tail, rfl⟩ := List.head?_eq_some_iff.mp hc
    simp_all [TokenKind.goesOn, TokenKind.isWord]

private theorem head_of_mark {kind : TokenKind} {s : String} {text rest : List Char}
    (h : mark? text = some (kind, s, rest)) : ∃ c tail, text = c :: tail ∧ isBlank c = false ∧
      c.isDigit = false ∧ isWordStart c = false ∧ c ≠ '"' := by
  unfold mark? at h
  split at h <;> first
    | exact ⟨_, _, rfl, by decide, by decide, by decide, by decide⟩
    | cases h

/-- Every lexeme begins with a character that is no blank. -/
theorem head_of_lexeme {kind : TokenKind} {text : String} (h : kind.Lexeme text) :
    ∃ c tail, text.toList = c :: tail ∧ isBlank c = false := by
  cases h with
  | @word c rest hc hrest =>
    exact ⟨c, rest, String.toList_ofList, isBlank_of_isWordPart (isWordPart_of_isWordStart hc)⟩
  | @number c rest h =>
    have hc : c.isDigit := h c (List.mem_cons_self ..)
    exact ⟨c, rest, String.toList_ofList, isBlank_of_isWordPart (isWordPart_of_isDigit hc)⟩
  | @string body h => exact ⟨'"', body ++ ['"'], String.toList_ofList, by decide⟩
  | mark h =>
    obtain ⟨c, tail, htext, hc, -⟩ := head_of_mark h
    exact ⟨c, tail, htext, hc⟩

/-- A lexeme is read as a token of its kind if nothing follows that goes on with it. -/
theorem scanLexeme_of_endsBefore {kind : TokenKind} {text : String} (h : kind.Lexeme text)
    {rest : List Char} (hrest : kind.EndsBefore rest) (offset : Nat) :
    scanLexeme offset (text.toList ++ rest) = .ofText kind text offset rest := by
  cases h with
  | @word c tail hc htail =>
    obtain ⟨htake, hdrop⟩ :=
      takeWhile_append_stop (isWordPart_of_mem hc htail) (TokenKind.endsBefore_ofWord.mp hrest)
    rw [String.toList_ofList, List.cons_append, scanLexeme, if_neg (by
      rw [isDigit_of_isWordStart hc]; decide), if_pos hc, ← List.cons_append, scanWord, htake,
      hdrop]
  | @number c tail hdigits =>
    have hpart := TokenKind.endsBefore_number.mp hrest
    have hstop : ∀ d ∈ rest.head?, d.isDigit = false := by
      intro d hd
      exact isDigit_eq_false (hpart d hd)
    have hstart : rest.head?.any isWordStart = false := by
      cases hhead : rest.head? with
      | none => rfl
      | some d => exact isWordStart_eq_false (hpart d hhead)
    obtain ⟨htake, hdrop⟩ := takeWhile_append_stop hdigits hstop
    have hc : c.isDigit := hdigits c (List.mem_cons_self ..)
    rw [String.toList_ofList, List.cons_append, scanLexeme, if_pos hc, ← List.cons_append,
      scanNumber]
    simp only [htake, hdrop, hstart, Bool.false_eq_true, ite_false]
  | @string body hbody =>
    have hstop : ∀ d ∈ ('"' :: rest).head?, (d != '"') = false := by simp
    obtain ⟨htake, hdrop⟩ := takeWhile_append_stop (bne_quote_of_mem hbody) hstop
    have hl : '"' :: body ++ ['"'] ++ rest = '"' :: (body ++ '"' :: rest) := by simp
    rw [String.toList_ofList, hl, scanLexeme, if_neg (by decide), if_neg (by decide),
      if_pos (by decide), scanString]
    simp only [htake, hdrop]
  | mark hmark =>
    obtain ⟨c, tail, htext, -, hdigit, hstart, hquote⟩ := head_of_mark hmark
    have hm := mark?_append hmark hrest
    rw [htext, List.cons_append] at hm ⊢
    simp only [scanLexeme, hdigit, hstart, Bool.false_eq_true, ite_false, beq_iff_eq, hquote, hm]

/-- A lexeme is read as a token of its kind if what follows goes on with no token. Nothing goes on
with an opening parenthesis. -/
theorem scanLexeme_lexeme {kind : TokenKind} {text : String} (h : kind.Lexeme text)
    {rest : List Char} (hrest : kind = .leftParen ∨ Separate rest) (offset : Nat) :
    scanLexeme offset (text.toList ++ rest) = .ofText kind text offset rest := by
  apply scanLexeme_of_endsBefore h
  rcases hrest with rfl | hrest
  · intro c hc
    simp [TokenKind.goesOn, TokenKind.isWord]
  · exact hrest.endsBefore kind

/-- A lexeme behind blanks is read as a token of its kind if what follows does not go on with it. -/
theorem scan_lexeme {kind : TokenKind} {text : String} (h : kind.Lexeme text) {lead : List Char}
    (hlead : ∀ c ∈ lead, isBlank c) {rest : List Char}
    (hrest : kind.EndsBefore rest) (offset : Nat) :
    scan offset (lead ++ (text.toList ++ rest)) =
      .ofText kind text (offset + byteLength lead) rest := by
  have hhead : ∀ c ∈ (text.toList ++ rest).head?, isBlank c = false := by
    obtain ⟨c, tail, htext, hc⟩ := head_of_lexeme h
    rw [htext]
    rintro d hd
    obtain rfl : c = d := Option.some.inj hd
    exact hc
  obtain ⟨htake, hdrop⟩ := takeWhile_append_stop hlead hhead
  rw [scan, htake, hdrop, scanLexeme_of_endsBefore h hrest]

/-- Behind blanks alone the source is at its end. -/
theorem scan_blank {text : List Char} (htext : ∀ c ∈ text, isBlank c) (offset : Nat) :
    scan offset text = .atEnd (offset + byteLength text) := by
  have hstop : ∀ c ∈ ([] : List Char).head?, isBlank c = false := by simp
  obtain ⟨htake, hdrop⟩ := takeWhile_append_stop htext hstop
  rw [List.append_nil] at htake hdrop
  rw [scan, htake, hdrop]
  rfl

/-- What can be read at the head of a text: a lexeme, or a string that the text does not close. That
string takes all of the text, and its token has a quote that the text has not. -/
inductive Reads (offset : Nat) (text : List Char) : Token → List Char → Nat → Prop where
  | lexeme {kind : TokenKind} {s : String} {rest : List Char} : kind.Lexeme s →
      text = s.toList ++ rest →
      Reads offset text (.ofText kind s offset) rest (offset + s.utf8ByteSize)
  | unclosed : Reads offset text
      ⟨.string, .ofList (text ++ ['"']), ⟨offset, offset + byteLength text⟩⟩ []
      (offset + byteLength text)

private theorem reads_of_ofText {kind : TokenKind} {s : String} {offset stop : Nat}
    {text rest rest' : List Char} {t : Token}
    (h : Scan.ofText kind s offset rest = .token t rest' stop) (hs : kind.Lexeme s)
    (htext : text = s.toList ++ rest) (hends : kind.EndsBefore rest) :
    Reads offset text t rest' stop ∧ t.IsLexeme ∧ t.kind.EndsBefore rest' := by
  simp only [Scan.ofText, Scan.token.injEq] at h
  obtain ⟨rfl, rfl, rfl⟩ := h
  exact ⟨.lexeme hs htext, hs, hends⟩

private theorem reads_of_scanNumber {offset stop : Nat} {c : Char} {tail rest : List Char}
    {t : Token} (hc : c.isDigit) (h : scanNumber offset (c :: tail) = .token t rest stop) :
    Reads offset (c :: tail) t rest stop ∧ t.IsLexeme ∧ t.kind.EndsBefore rest := by
  have hhead := List.head?_dropWhile_not Char.isDigit (c :: tail)
  unfold scanNumber at h
  dsimp only at h
  split at h
  next => cases h
  next hstart =>
    refine reads_of_ofText h ?_ ?_ (TokenKind.endsBefore_number.mpr fun d hd ↦ ?_)
    · rw [List.takeWhile_cons_of_pos hc]
      exact .number (List.forall_mem_cons.mpr ⟨hc, fun d hd ↦ List.mem_takeWhile_imp hd⟩)
    · rw [String.toList_ofList, List.takeWhile_append_dropWhile]
    · have hd : ((c :: tail).dropWhile Char.isDigit).head? = some d := hd
      rw [hd] at hhead hstart
      simp only [Option.any_some, isWordStart, Bool.or_eq_true, not_or,
        Bool.not_eq_true] at hhead hstart
      simp [isWordPart, Char.isAlphanum, hhead, hstart]

private theorem reads_of_scanWord {offset stop : Nat} {c : Char} {tail rest : List Char}
    {t : Token} (hc : isWordStart c) (h : scanWord offset (c :: tail) = .token t rest stop) :
    Reads offset (c :: tail) t rest stop ∧ t.IsLexeme ∧ t.kind.EndsBefore rest := by
  have hhead := List.head?_dropWhile_not isWordPart (c :: tail)
  refine reads_of_ofText h ?_ ?_ (TokenKind.endsBefore_ofWord.mpr fun d hd ↦ ?_)
  · rw [List.takeWhile_cons_of_pos (isWordPart_of_isWordStart hc)]
    exact .word hc fun d hd ↦ List.mem_takeWhile_imp hd
  · rw [String.toList_ofList, List.takeWhile_append_dropWhile]
  · have hd : ((c :: tail).dropWhile isWordPart).head? = some d := hd
    rwa [hd] at hhead

private theorem reads_of_scanString {offset stop : Nat} {body rest : List Char} {t : Token}
    (h : scanString offset body = .token t rest stop) :
    Reads offset ('"' :: body) t rest stop ∧ t.IsLexeme ∧ t.kind.EndsBefore rest := by
  have hsplit := List.takeWhile_append_dropWhile (p := (· != '"')) (l := body)
  have hbody : '"' ∉ body.takeWhile (· != '"') := by
    intro hmem
    simpa using List.mem_takeWhile_imp hmem
  unfold scanString at h
  dsimp only at h
  split at h
  next c tail hdrop =>
    have hc : c = '"' := by simpa [hdrop] using List.head?_dropWhile_not (· != '"') body
    refine reads_of_ofText h (.string hbody) ?_ (TokenKind.endsBefore_string tail)
    rw [hdrop, hc] at hsplit
    rw [String.toList_ofList, List.cons_append, List.cons_append, List.append_assoc,
      List.singleton_append, hsplit]
  next hdrop =>
    rw [hdrop, List.append_nil] at hsplit
    rw [hsplit] at hbody
    simp only [Scan.token.injEq, hsplit] at h
    obtain ⟨rfl, rfl, rfl⟩ := h
    exact ⟨.unclosed, .string hbody, TokenKind.endsBefore_nil _⟩

private theorem lexeme_of_mark {text rest : List Char} {kind : TokenKind} {s : String}
    (h : mark? text = some (kind, s, rest)) : kind.Lexeme s ∧ text = s.toList ++ rest := by
  obtain ⟨hmem, htext⟩ := mem_marks h
  have hmarks : ∀ m ∈ marks, mark? m.2.toList = some (m.1, m.2, []) := by decide
  exact ⟨.mark (hmarks (kind, s) hmem), htext⟩

/-- What is read has a lexeme as its text, which ends before the rest. -/
theorem reads_of_scanLexeme {offset stop : Nat} {text rest : List Char} {t : Token}
    (h : scanLexeme offset text = .token t rest stop) :
    Reads offset text t rest stop ∧ t.IsLexeme ∧ t.kind.EndsBefore rest := by
  match text, h with
  | [], h => cases h
  | c :: tail, h =>
    simp only [scanLexeme] at h
    split at h
    next hc => exact reads_of_scanNumber hc h
    next =>
      split at h
      next hc => exact reads_of_scanWord hc h
      next =>
        split at h
        next hquote =>
          rw [eq_of_beq hquote]
          exact reads_of_scanString h
        next =>
          split at h
          next hm =>
            obtain ⟨hs, htext⟩ := lexeme_of_mark hm
            exact reads_of_ofText h hs htext (endsBefore_of_mark hm)
          next => cases h

/-- What is read at a place of the source is a lexeme, or a string that the source does not
close. -/
theorem isLexeme_of_scan {offset stop : Nat} {text rest : List Char} {t : Token}
    (h : scan offset text = .token t rest stop) :
    t.IsLexeme ∨ (t.kind = .string ∧ rest = []) := by
  cases (reads_of_scanLexeme h).1 with
  | lexeme hs htext => exact .inl hs
  | unclosed => exact .inr ⟨rfl, rfl⟩

/-- The lexemes of a kind are what is read as one token of that kind. -/
theorem lexeme_iff_scanLexeme {kind : TokenKind} {text : String} :
    kind.Lexeme text ↔ scanLexeme 0 text.toList = .ofText kind text 0 [] := by
  constructor
  · intro h
    simpa using scanLexeme_of_endsBefore h (TokenKind.endsBefore_nil kind) 0
  · intro h
    exact (reads_of_scanLexeme h).2.1

/-- Whether a text is a lexeme is decided by scanning it. -/
instance (kind : TokenKind) (text : String) : Decidable (kind.Lexeme text) :=
  decidable_of_iff _ lexeme_iff_scanLexeme.symm

/-- Whether a token is a lexeme is decided by its kind and text. -/
instance (t : Token) : Decidable t.IsLexeme := inferInstanceAs (Decidable (t.kind.Lexeme t.text))

end Lexer

namespace TokenKind

/-- A kind with one text has no other lexeme. -/
theorem lexeme_iff {kind : TokenKind} {s text : String} (hs : kind.text? = some s) :
    kind.Lexeme text ↔ text = s := by
  constructor
  · intro h
    cases h with
    | word hc hrest =>
      unfold ofWord keyword? at hs
      split at hs
      all_goals simp_all [text?]
    | number h => cases hs
    | string h => cases hs
    | mark h => exact Option.some.inj ((Lexer.text?_of_mark h).symm.trans hs)
  · rintro rfl
    have hword (kind : TokenKind) (c : Char) (rest : List Char)
        (hkind : ofWord (.ofList (c :: rest)) = kind) (hc : Lexer.isWordStart c)
        (hrest : rest.all Lexer.isWordPart) : kind.Lexeme (.ofList (c :: rest)) :=
      hkind ▸ .word hc (List.all_eq_true.mp hrest)
    cases kind <;> cases hs
    case selectKw.refl => exact hword _ 'S' ['E', 'L', 'E', 'C', 'T'] rfl rfl rfl
    case fromKw.refl => exact hword _ 'F' ['R', 'O', 'M'] rfl rfl rfl
    case whereKw.refl => exact hword _ 'W' ['H', 'E', 'R', 'E'] rfl rfl rfl
    case andKw.refl => exact hword _ 'A' ['N', 'D'] rfl rfl rfl
    case orKw.refl => exact hword _ 'O' ['R'] rfl rfl rfl
    case notKw.refl => exact hword _ 'N' ['O', 'T'] rfl rfl rfl
    case asKw.refl => exact hword _ 'A' ['S'] rfl rfl rfl
    all_goals exact .mark rfl

/-- The text of a string has quotes at both ends and none in between. -/
theorem exists_body_of_lexeme {text : String} (h : Lexeme string text) :
    ∃ body, '"' ∉ body ∧ text = .ofList ('"' :: body ++ ['"']) := by
  generalize hkind : string = kind at h
  cases h with
  | string hbody => exact ⟨_, hbody, rfl⟩
  | number h => cases hkind
  | word hc hrest => exact absurd hkind.symm (ofWord_ne rfl _)
  | mark h =>
    have htext := Lexer.text?_of_mark h
    rw [← hkind] at htext
    cases htext

/-- The lexemes of identifiers are names. -/
theorem lexeme_identifier_iff {text : String} : Lexeme identifier text ↔ IsName text := by
  constructor
  · intro h
    generalize hkind : identifier = kind at h
    cases h with
    | @word c rest hc hrest =>
      exact ⟨⟨c, rest, by simp, hc, hrest⟩, ofWord_eq_identifier_iff.mp hkind.symm⟩
    | number h => cases hkind
    | string h => cases hkind
    | mark h =>
      have htext := Lexer.text?_of_mark h
      rw [← hkind] at htext
      cases htext
  · rintro ⟨⟨c, rest, htext, hc, hrest⟩, hkeyword⟩
    obtain rfl : text = .ofList (c :: rest) := by rw [← htext, String.ofList_toList]
    have hword : Lexeme (ofWord (.ofList (c :: rest))) (.ofList (c :: rest)) := .word hc hrest
    rwa [ofWord_eq_identifier_iff.mpr hkeyword] at hword

/-- The lexemes of numbers are runs of digits. -/
theorem lexeme_number_iff {text : String} : Lexeme number text ↔ IsDigits text := by
  constructor
  · intro h
    generalize hkind : number = kind at h
    cases h with
    | number h => exact ⟨by simp, by simpa using h⟩
    | word hc hrest => exact absurd hkind.symm (ofWord_ne rfl _)
    | string h => cases hkind
    | mark h =>
      have htext := Lexer.text?_of_mark h
      rw [← hkind] at htext
      cases htext
  · rintro ⟨hne, hdigits⟩
    obtain ⟨c, rest, htext⟩ := List.exists_cons_of_ne_nil hne
    obtain rfl : text = .ofList (c :: rest) := by rw [← htext, String.ofList_toList]
    exact .number (by simpa using hdigits)

/-- The end of the source is no lexeme. -/
theorem ne_eof_of_lexeme {kind : TokenKind} {text : String} (h : kind.Lexeme text) :
    kind ≠ eof := by
  cases h with
  | word hc hrest => exact ofWord_ne rfl _
  | number h => decide
  | string h => decide
  | mark h =>
    have htext := Lexer.text?_of_mark h
    rintro rfl
    cases htext

end TokenKind

/-- A token of a kind with one text has that text. -/
theorem Token.IsLexeme.text_eq {t : Token} (h : t.IsLexeme) {kind : TokenKind}
    (hkind : t.kind = kind) {s : String} (hs : kind.text? = some s) : t.text = s := by
  rw [← hkind] at hs
  exact (TokenKind.lexeme_iff hs).mp h

namespace Lexer

/-- A string that is not closed is read with a quote behind it. -/
theorem scanLexeme_unclosed {body : List Char} (hbody : '"' ∉ body) (offset : Nat) :
    scanLexeme offset ('"' :: body) =
      .token ⟨.string, .ofList ('"' :: body ++ ['"']), ⟨offset, offset + byteLength ('"' :: body)⟩⟩
        [] (offset + byteLength ('"' :: body)) := by
  have hstop : ∀ d ∈ ([] : List Char).head?, (d != '"') = false := by simp
  obtain ⟨htake, hdrop⟩ := takeWhile_append_stop (bne_quote_of_mem hbody) hstop
  rw [List.append_nil] at htake hdrop
  rw [scanLexeme, if_neg (by decide), if_neg (by decide), if_pos (by decide), scanString]
  simp only [htake, hdrop]

/-- The text of an unclosed string is closed by the token alone. -/
theorem exists_body_of_unclosed {text : List Char}
    (h : TokenKind.Lexeme .string (.ofList (text ++ ['"']))) :
    ∃ body, '"' ∉ body ∧ text = '"' :: body := by
  obtain ⟨body, hbody, htext⟩ := TokenKind.exists_body_of_lexeme h
  rw [String.ofList_inj] at htext
  exact ⟨body, hbody, List.append_cancel_right htext⟩

/-- A token is read exactly where a lexeme stands with nothing behind it that goes on with it, or a
quote without another behind it. -/
theorem scanLexeme_eq_token_iff {offset stop : Nat} {text rest : List Char} {t : Token} :
    scanLexeme offset text = .token t rest stop ↔
      Reads offset text t rest stop ∧ t.IsLexeme ∧ t.kind.EndsBefore rest := by
  constructor
  · exact reads_of_scanLexeme
  · rintro ⟨hreads, hlexeme, hends⟩
    cases hreads with
    | lexeme hs htext =>
      rw [htext]
      exact scanLexeme_of_endsBefore hs hends offset
    | unclosed =>
      obtain ⟨body, hbody, rfl⟩ := exists_body_of_unclosed hlexeme
      exact scanLexeme_unclosed hbody offset

private theorem Reads.head {offset stop : Nat} {text rest : List Char} {t : Token}
    (h : Reads offset text t rest stop) (ht : t.IsLexeme) :
    ∀ c ∈ text.head?, isBlank c = false := by
  cases h with
  | @lexeme kind s rest hs htext =>
    obtain ⟨c, tail, hc, hblank⟩ := head_of_lexeme hs
    rw [htext, hc]
    rintro d hd
    obtain rfl : c = d := Option.some.inj hd
    exact hblank
  | unclosed =>
    obtain ⟨body, -, rfl⟩ := exists_body_of_unclosed ht
    rintro d hd
    obtain rfl : '"' = d := Option.some.inj hd
    decide

/-- A token is read behind blanks. -/
theorem scan_eq_token_iff {offset stop : Nat} {text rest : List Char} {t : Token} :
    scan offset text = .token t rest stop ↔
      ∃ lead text', text = lead ++ text' ∧ (∀ c ∈ lead, isBlank c) ∧
        Reads (offset + byteLength lead) text' t rest stop ∧ t.IsLexeme ∧
          t.kind.EndsBefore rest := by
  constructor
  · intro h
    refine ⟨text.takeWhile isBlank, text.dropWhile isBlank, ?_, ?_, scanLexeme_eq_token_iff.mp h⟩
    · rw [List.takeWhile_append_dropWhile]
    · intro c hc
      exact List.mem_takeWhile_imp hc
  · rintro ⟨lead, text', rfl, hlead, h⟩
    obtain ⟨htake, hdrop⟩ := takeWhile_append_stop hlead (h.1.head h.2.1)
    rw [scan, htake, hdrop]
    exact scanLexeme_eq_token_iff.mpr h

/-- The source is at its end where only blanks are left. -/
theorem scan_eq_atEnd_iff {offset stop : Nat} {text : List Char} :
    scan offset text = .atEnd stop ↔
      (∀ c ∈ text, isBlank c) ∧ stop = offset + byteLength text := by
  constructor
  · intro h
    have hdrop : text.dropWhile isBlank = [] := by
      cases hd : text.dropWhile isBlank with
      | nil => rfl
      | cons c tail =>
        -- Wherever a character is left, there is a token or an error.
        rw [scan, hd] at h
        simp only [scanLexeme, scanNumber, scanWord, scanString, Scan.ofText] at h
        repeat' split at h
        all_goals cases h
    have hblank : ∀ c ∈ text, isBlank c := List.dropWhile_eq_nil_iff.mp hdrop
    rw [scan_blank hblank] at h
    exact ⟨hblank, (Scan.atEnd.inj h).symm⟩
  · rintro ⟨hblank, rfl⟩
    exact scan_blank hblank offset

/-- A character begins a mark if it is one, or if it is an exclamation mark in front of an equals
sign. -/
theorem mark?_eq_none_iff {c : Char} {rest : List Char} :
    mark? (c :: rest) = none ↔
      c ∉ [',', '=', '*', '(', ')', ';', '<', '>'] ∧ (c = '!' → rest.head? ≠ some '=') := by
  unfold mark?
  split <;> simp_all [List.head?_eq_some_iff]

/-- What keeps a token from being read at the head of a text: a letter or an underscore right behind
digits, or a character that is no blank and begins no token. -/
inductive Rejects (offset : Nat) (text : List Char) : LexError → Prop where
  | letter {digits rest : List Char} {c : Char} : digits ≠ [] → (∀ d ∈ digits, d.isDigit) →
      isWordStart c → text = digits ++ c :: rest →
      Rejects offset text (.letterInNumber (offset + byteLength digits))
  | character {c : Char} {rest : List Char} : isBlank c = false → isWordPart c = false → c ≠ '"' →
      mark? (c :: rest) = none → text = c :: rest →
      Rejects offset text (.unexpectedCharacter c offset)

private theorem rejects_of_scanLexeme {offset : Nat} {c : Char} {tail : List Char} {e : LexError}
    (hc : isBlank c = false) (h : scanLexeme offset (c :: tail) = .failed e) :
    Rejects offset (c :: tail) e := by
  simp only [scanLexeme] at h
  split at h
  next hdigit =>
    simp only [scanNumber] at h
    split at h
    next hstart =>
      obtain rfl := Scan.failed.inj h
      have hsplit := List.takeWhile_append_dropWhile (p := Char.isDigit) (l := c :: tail)
      have hne : (c :: tail).takeWhile Char.isDigit ≠ [] := by
        rw [List.takeWhile_cons_of_pos hdigit]
        simp
      cases hrest : (c :: tail).dropWhile Char.isDigit with
      | nil =>
        rw [hrest] at hstart
        cases hstart
      | cons d rest =>
        rw [hrest] at hsplit hstart
        refine .letter hne ?_ hstart hsplit.symm
        intro e he
        exact List.mem_takeWhile_imp he
    next => cases h
  next hdigit =>
    split at h
    next => cases h
    next hstart =>
      split at h
      next =>
        simp only [scanString, Scan.ofText] at h
        split at h <;> cases h
      next hquote =>
        split at h
        next => cases h
        next hmark =>
          obtain rfl := Scan.failed.inj h
          refine .character hc ?_ (by simpa using hquote) hmark rfl
          simp only [Bool.not_eq_true, isWordStart, Bool.or_eq_false_iff] at hdigit hstart
          simp [isWordPart, Char.isAlphanum, hdigit, hstart]

private theorem Rejects.scanLexeme_eq {offset : Nat} {text : List Char} {e : LexError}
    (h : Rejects offset text e) :
    scanLexeme offset text = .failed e ∧ ∀ c ∈ text.head?, isBlank c = false := by
  cases h with
  | @letter digits rest c hne hdigits hc htext =>
    rw [htext]
    have hstop : ∀ d ∈ (c :: rest).head?, d.isDigit = false := by
      rintro d hd
      obtain rfl : c = d := Option.some.inj hd
      exact isDigit_of_isWordStart hc
    obtain ⟨htake, hdrop⟩ := takeWhile_append_stop hdigits hstop
    cases digits with
    | nil => exact absurd rfl hne
    | cons d digits =>
      have hd : d.isDigit := hdigits d (List.mem_cons_self ..)
      rw [List.cons_append, scanLexeme, if_pos hd, ← List.cons_append, scanNumber]
      refine ⟨by simp only [htake, hdrop, List.head?_cons, Option.any_some, hc, ite_true], ?_⟩
      rintro d' hd'
      obtain rfl : d = d' := Option.some.inj hd'
      exact isBlank_of_isWordPart (isWordPart_of_isDigit hd)
  | @character c rest hblank hpart hquote hmark htext =>
    rw [htext]
    constructor
    · simp only [scanLexeme, isDigit_eq_false hpart, isWordStart_eq_false hpart,
        Bool.false_eq_true, ite_false, beq_iff_eq, hquote, hmark]
    · rintro d hd
      obtain rfl : c = d := Option.some.inj hd
      exact hblank

/-- An error is met exactly where something keeps a token from being read. -/
theorem scan_eq_failed_iff {offset : Nat} {text : List Char} {e : LexError} :
    scan offset text = .failed e ↔
      ∃ lead text', text = lead ++ text' ∧ (∀ c ∈ lead, isBlank c) ∧
        Rejects (offset + byteLength lead) text' e := by
  constructor
  · intro h
    refine ⟨text.takeWhile isBlank, text.dropWhile isBlank, ?_, ?_, ?_⟩
    · rw [List.takeWhile_append_dropWhile]
    · intro c hc
      exact List.mem_takeWhile_imp hc
    · have hhead := List.head?_dropWhile_not isBlank text
      rw [scan] at h
      cases hd : text.dropWhile isBlank with
      | nil =>
        rw [hd] at h
        cases h
      | cons c tail =>
        rw [hd] at h hhead
        exact rejects_of_scanLexeme (by simpa using hhead) h
  · rintro ⟨lead, text', rfl, hlead, h⟩
    obtain ⟨hscan, hhead⟩ := h.scanLexeme_eq
    obtain ⟨htake, hdrop⟩ := takeWhile_append_stop hlead hhead
    rw [scan, htake, hdrop, hscan]

end Lexer

end SelectQuery
