import SelectQuery.Proofs.Bare

/-!
# Writing tokens

How tokens are written so that they are read back. `Token.write` puts a blank between two tokens,
but none inside brackets and none in front of a comma or semicolon. A text that holds tokens apart
(`Token.Laid`), as one that is written does, gives them back when it is lexed, with their places in
it (`Token.Laid.remaining`). A text that is built from the texts of its parts is written from the
tokens of its parts (`Token.Written`).
-/

namespace SelectQuery

/-- Whether a token is written right behind the token before it. -/
def TokenKind.clings : TokenKind → Bool
  | rightParen | comma | semicolon => true
  | _ => false

/-- Whether a token is written apart from the tokens around it, unless it is they that cling. -/
def TokenKind.isFree (kind : TokenKind) : Bool := kind != leftParen && !kind.clings

namespace Token

/-- Whether a blank is written between two tokens. -/
def apart (t u : Token) : Bool := t.kind != .leftParen && !u.kind.clings

/-- What is written between a token and those behind it. -/
def gap (t : Token) : List Token → List Char
  | [] => []
  | u :: _ => if t.apart u then [' '] else []

/-- The text of a list of tokens: their own texts, with blanks where tokens stand apart. -/
def write : List Token → List Char
  | [] => []
  | t :: tokens => t.text.toList ++ (t.gap tokens ++ write tokens)

/-- A gap holds blanks only. -/
theorem isBlank_of_mem_gap {t : Token} {tokens : List Token} :
    ∀ c ∈ t.gap tokens, Lexer.isBlank c := by
  intro c hc
  unfold gap at hc
  split at hc
  next => cases hc
  next =>
    split at hc
    next =>
      rw [List.mem_singleton.mp hc]
      decide
    next => cases hc

private theorem separate_of_clings {kind : TokenKind} {text : String} (h : kind.Lexeme text)
    (hkind : kind.clings) (rest : List Char) : Lexer.Separate (text.toList ++ rest) := by
  have hsep : ∀ c, text.toList = [c] → Lexer.isWordPart c = false ∧ c ≠ '=' →
      Lexer.Separate (text.toList ++ rest) := by
    intro c htext hc
    rw [htext]
    exact Lexer.separate_cons.mpr hc
  cases kind with
  | rightParen =>
    obtain rfl := (TokenKind.lexeme_iff rfl).mp h
    exact hsep ')' rfl (by decide)
  | comma =>
    obtain rfl := (TokenKind.lexeme_iff rfl).mp h
    exact hsep ',' rfl (by decide)
  | semicolon =>
    obtain rfl := (TokenKind.lexeme_iff rfl).mp h
    exact hsep ';' rfl (by decide)
  | _ => cases hkind

private theorem endsBefore_write (t : Token) {tokens : List Token} (h : ∀ u ∈ tokens, u.IsLexeme) :
    t.kind.EndsBefore (t.gap tokens ++ write tokens) := by
  by_cases hparen : t.kind = .leftParen
  · intro c hc
    simp [hparen, TokenKind.goesOn, TokenKind.isWord]
  cases tokens with
  | nil => exact TokenKind.endsBefore_nil t.kind
  | cons u tokens =>
    apply Lexer.Separate.endsBefore
    cases hclings : u.kind.clings with
    | false =>
      have hgap : t.gap (u :: tokens) = [' '] := by simp [gap, apart, hparen, hclings]
      rw [hgap]
      exact Lexer.separate_cons.mpr (by decide)
    | true =>
      have hgap : t.gap (u :: tokens) = [] := by simp [gap, apart, hclings]
      rw [hgap]
      exact separate_of_clings (h u (List.mem_cons_self ..)) hclings _

/-- The text holds the tokens in order, with nothing but blanks around them, and nothing follows a
token that goes on with it. -/
inductive Laid : List Token → List Char → Prop where
  | nil {blanks : List Char} : (∀ c ∈ blanks, Lexer.isBlank c) → Laid [] blanks
  | cons {t : Token} {tokens : List Token} {lead behind : List Char} :
      (∀ c ∈ lead, Lexer.isBlank c) → t.IsLexeme → t.kind.EndsBefore behind → Laid tokens behind →
      Laid (t :: tokens) (lead ++ (t.text.toList ++ behind))

/-- Tokens that are laid out in a text are what is read of it, wherever it stands. -/
theorem Laid.remaining {tokens : List Token} {text : List Char} (h : Laid tokens text)
    (offset : Nat) :
    ∃ tokens' stop, (Lexer.mk text offset false).remaining = (tokens', .ok stop) ∧
      tokens'.map bare = tokens.map bare := by
  induction h generalizing offset with
  | @nil blanks hblanks =>
    have hscan : Lexer.scan offset (blanks ++ []) = .atEnd (offset + Lexer.byteLength blanks) := by
      rw [List.append_nil, Lexer.scan_blank hblanks]
    rw [List.append_nil] at hscan
    exact ⟨[], _, Lexer.remaining_of_atEnd hscan, rfl⟩
  | @cons t tokens lead behind hlead ht hbehind _ ih =>
    have hscan := Lexer.scan_lexeme ht hlead hbehind offset
    obtain ⟨tokens', stop, hrest, hbare⟩ :=
      ih (offset + Lexer.byteLength lead + t.text.utf8ByteSize)
    have hread := Lexer.remaining_of_token
      (l := ⟨lead ++ (t.text.toList ++ behind), offset, false⟩) hscan
    rw [hrest] at hread
    exact ⟨_, stop, hread, by rw [List.map_cons, List.map_cons, hbare]; rfl⟩

/-- Tokens that are laid out in a text are lexemes. -/
theorem Laid.isLexeme {tokens : List Token} {text : List Char} (h : Laid tokens text) :
    ∀ t ∈ tokens, t.IsLexeme := by
  induction h with
  | nil => simp
  | cons _ ht _ _ ih => exact List.forall_mem_cons.mpr ⟨ht, ih⟩

/-- Blanks may be put in front. -/
theorem Laid.behind_blanks {tokens : List Token} {text lead : List Char} (h : Laid tokens text)
    (hlead : ∀ c ∈ lead, Lexer.isBlank c) : Laid tokens (lead ++ text) := by
  cases h with
  | nil hblanks => exact .nil (List.forall_mem_append.mpr ⟨hlead, hblanks⟩)
  | cons hlead' ht hbehind h =>
    rw [← List.append_assoc]
    exact .cons (List.forall_mem_append.mpr ⟨hlead, hlead'⟩) ht hbehind h

/-- One text may be laid out behind another whose last token it does not go on with. -/
theorem Laid.append {tokens tokens' : List Token} {text text' : List Char} (h : Laid tokens text)
    (h' : Laid tokens' text') (hsep : Lexer.Separate text') :
    Laid (tokens ++ tokens') (text ++ text') := by
  induction h with
  | nil hblanks => exact h'.behind_blanks hblanks
  | @cons t tokens lead behind hlead ht hbehind _ ih =>
    rw [List.append_assoc, List.append_assoc, List.cons_append]
    exact .cons hlead ht (Lexer.endsBefore_append hbehind hsep) ih

/-- What is written of tokens holds them, perhaps behind a blank. -/
theorem laid_write {tokens : List Token} (h : ∀ t ∈ tokens, t.IsLexeme) {lead : List Char}
    (hlead : ∀ c ∈ lead, Lexer.isBlank c) : Laid tokens (lead ++ write tokens) := by
  induction tokens generalizing lead with
  | nil => exact .nil (by simpa [write] using hlead)
  | cons t tokens ih =>
    obtain ⟨ht, htokens⟩ := List.forall_mem_cons.mp h
    exact .cons hlead ht (endsBefore_write t htokens) (ih htokens isBlank_of_mem_gap)

/-- Tokens behind others are written behind the last of them. -/
theorem write_append (front : List Token) (t : Token) (tokens : List Token) :
    write (front ++ t :: tokens) = write (front ++ [t]) ++ (t.gap tokens ++ write tokens) := by
  induction front with
  | nil => simp [write, gap]
  | cons u front ih =>
    have hgap : u.gap (front ++ t :: tokens) = u.gap (front ++ [t]) := by cases front <;> rfl
    rw [List.cons_append, List.cons_append, write, write, ih, hgap]
    simp only [List.append_assoc]

/-- In front of tokens that may have a blank before them the same is written. -/
theorem exists_write_append (front : List Token) :
    ∃ text, ∀ t tokens, t.kind.clings = false →
      write (front ++ t :: tokens) = text ++ write (t :: tokens) := by
  induction front with
  | nil => exact ⟨[], fun t tokens _ ↦ rfl⟩
  | cons u front ih =>
    obtain ⟨text, htext⟩ := ih
    cases front with
    | nil =>
      refine ⟨u.text.toList ++ if u.kind != .leftParen then [' '] else [], fun t tokens ht ↦ ?_⟩
      simp [write, gap, apart, ht]
    | cons v front =>
      refine ⟨u.text.toList ++ (u.gap [v] ++ text), fun t tokens ht ↦ ?_⟩
      have hgap : u.gap (v :: front ++ t :: tokens) = u.gap [v] := rfl
      rw [List.cons_append, write, htext t tokens ht, hgap]
      simp only [List.append_assoc]

/-- A token that clings is written right behind what is before it. -/
theorem write_concat_of_clings {t : Token} (ht : t.kind.clings = true) (tokens : List Token) :
    write (tokens ++ [t]) = write tokens ++ t.text.toList := by
  rcases List.eq_nil_or_concat tokens with rfl | ⟨front, u, rfl⟩
  · simp [write, gap]
  · have hgap : u.gap [t] = [] := by simp [gap, apart, ht]
    rw [List.concat_eq_append, List.append_assoc, List.singleton_append, write_append, hgap]
    simp [write, gap]

/-- The token without a place of a kind that has one text. -/
def ofKind (kind : TokenKind) : Token := ⟨kind, kind.text?.getD "", ⟨0, 0⟩⟩

/-- The token made of a kind has that kind. -/
@[simp] theorem kind_ofKind (kind : TokenKind) : (ofKind kind).kind = kind := rfl

/-- Its text is the one of its kind. -/
theorem isLexeme_ofKind {kind : TokenKind} {s : String} (hs : kind.text? = some s) :
    (ofKind kind).IsLexeme := by
  rw [IsLexeme, kind_ofKind, TokenKind.lexeme_iff hs]
  simp [ofKind, hs]

/-- The tokens are lexemes, and the text is what is written of them. It stands free: neither end of
it would be written right beside another token. -/
structure Written (text : String) (tokens : List Token) : Prop where
  isLexeme : ∀ t ∈ tokens, t.IsLexeme
  first : ∃ t rest, tokens = t :: rest ∧ t.kind.clings = false
  last : ∃ front t, tokens = front ++ [t] ∧ t.kind ≠ .leftParen
  write_eq : write tokens = text.toList

namespace Written

variable {text text' : String} {tokens tokens' : List Token}

/-- The text holds its tokens. -/
theorem laid (h : Written text tokens) : Laid tokens text.toList := by
  have hlaid : Laid tokens ([] ++ write tokens) := laid_write h.isLexeme (by simp)
  rwa [List.nil_append, h.write_eq] at hlaid

/-- A single token is written as its text. -/
theorem single {t : Token} (h : t.IsLexeme) (hfree : t.kind.isFree) : Written t.text [t] := by
  rw [TokenKind.isFree, Bool.and_eq_true, bne_iff_ne, Bool.not_eq_true'] at hfree
  constructor
  · intro u hu
    rwa [List.mem_singleton.mp hu]
  · exact ⟨t, [], rfl, hfree.2⟩
  · exact ⟨[], t, rfl, hfree.1⟩
  · simp [write, gap]

/-- So is a token of a kind that has one text. -/
theorem fixed {t : Token} {s : String} (hs : t.kind.text? = some s) (ht : t.text = s)
    (hfree : t.kind.isFree) : Written s [t] := by
  have hlexeme : t.IsLexeme := (TokenKind.lexeme_iff hs).mpr ht
  rw [← ht]
  exact single hlexeme hfree

/-- So is a token that is supplied where a tree does not hold one. -/
theorem supplied {kind : TokenKind} {s : String} (hs : kind.text? = some s)
    (hfree : kind.isFree) : Written s [.ofKind kind] :=
  fixed hs (by simp [Token.ofKind, hs]) hfree

/-- Texts that stand free are written with a blank between them. -/
theorem join (h : Written text tokens) (h' : Written text' tokens') :
    Written (text ++ " " ++ text') (tokens ++ tokens') := by
  obtain ⟨t, rest, htokens, hfirst⟩ := h.first
  obtain ⟨front, u, htokens', hlast⟩ := h.last
  obtain ⟨v, rest', hrest', hclings⟩ := h'.first
  obtain ⟨front', w, hfront', hlast'⟩ := h'.last
  refine ⟨?_, ⟨t, rest ++ tokens', by rw [htokens]; rfl, hfirst⟩,
    ⟨tokens ++ front', w, by rw [hfront', List.append_assoc], hlast'⟩, ?_⟩
  · intro x hx
    rcases List.mem_append.mp hx with hx | hx
    · exact h.isLexeme x hx
    · exact h'.isLexeme x hx
  · have hgap : u.gap tokens' = [' '] := by simp [hrest', gap, apart, hlast, hclings]
    have hsplit : tokens ++ tokens' = front ++ u :: tokens' := by simp [htokens']
    rw [hsplit, Token.write_append, ← htokens', hgap, h.write_eq, h'.write_eq]
    simp

/-- A token that clings to the text before it is written right behind it. -/
theorem write_concat (h : Written text tokens) {t : Token} (ht : t.kind.clings = true) :
    write (tokens ++ [t]) = (text ++ t.text).toList := by
  rw [write_concat_of_clings ht, h.write_eq, String.toList_append]

/-- What follows is written as it would be behind any token that may have a blank behind it. -/
theorem write_append (h : Written text tokens) {t : Token} (ht : t.kind ≠ .leftParen)
    (behind : List Token) :
    write (tokens ++ behind) = text.toList ++ (t.gap behind ++ write behind) := by
  obtain ⟨front, u, htokens, hlast⟩ := h.last
  have hgap : u.gap behind = t.gap behind := by
    cases behind <;> simp [gap, apart, hlast, ht]
  have hsplit : tokens ++ behind = front ++ u :: behind := by simp [htokens]
  rw [hsplit, Token.write_append, ← htokens, hgap, h.write_eq]

/-- A text that stands free is written in the place of a pair of tokens: what is in front of the one
and behind the other is written as it was. -/
theorem write_between (h : Written text tokens) {p q : Token} (hp : p.kind.clings = false)
    (hq : q.kind ≠ .leftParen) {before after : List Token} {front : List Char}
    (hbefore : write (before ++ [p]) = front ++ p.text.toList) :
    write (before ++ tokens ++ after) = front ++ text.toList ++ (q.gap after ++ write after) := by
  obtain ⟨t, rest, hfirst, ht⟩ := h.first
  obtain ⟨text', hwrite⟩ := exists_write_append before
  have hfront : text' = front := by
    have hsingle : write [p] = p.text.toList := by simp [write, gap]
    rw [hwrite p [] hp, hsingle] at hbefore
    exact List.append_cancel_right hbefore
  calc write (before ++ tokens ++ after)
    _ = write (before ++ t :: (rest ++ after)) := by
      rw [hfirst, List.append_assoc, List.cons_append]
    _ = front ++ write (tokens ++ after) := by
      rw [hwrite t _ ht, hfront, hfirst, List.cons_append]
    _ = front ++ text.toList ++ (q.gap after ++ write after) := by
      rw [h.write_append hq, List.append_assoc]

/-- A text in parentheses stands free as well. -/
theorem fence (h : Written text tokens) :
    Written ("(" ++ text ++ ")") (ofKind .leftParen :: (tokens ++ [ofKind .rightParen])) where
  isLexeme t ht := by
    rcases List.mem_cons.mp ht with rfl | ht
    · exact isLexeme_ofKind rfl
    · rcases List.mem_append.mp ht with ht | ht
      · exact h.isLexeme t ht
      · rw [List.mem_singleton.mp ht]
        exact isLexeme_ofKind rfl
  first := ⟨_, _, rfl, rfl⟩
  last := ⟨_ :: tokens, _, rfl, by decide⟩
  write_eq := by
    have hgap : (ofKind .leftParen).gap (tokens ++ [ofKind .rightParen]) = [] := by
      obtain ⟨t, rest, rfl, -⟩ := h.first
      rfl
    rw [write, hgap, h.write_concat rfl]
    simp [ofKind, TokenKind.text?]

/-- A comma is written right behind the text before it. -/
theorem list (h : Written text tokens) (h' : Written text' tokens') :
    Written (text ++ ", " ++ text') (tokens ++ ofKind .comma :: tokens') := by
  obtain ⟨t, rest, htokens, hfirst⟩ := h.first
  obtain ⟨v, rest', hrest', hclings⟩ := h'.first
  obtain ⟨front', w, hfront', hlast'⟩ := h'.last
  refine ⟨?_, ⟨t, rest ++ ofKind .comma :: tokens', by rw [htokens]; rfl, hfirst⟩,
    ⟨tokens ++ ofKind .comma :: front', w, by rw [hfront', List.append_assoc]; rfl, hlast'⟩, ?_⟩
  · intro x hx
    rcases List.mem_append.mp hx with hx | hx
    · exact h.isLexeme x hx
    · rcases List.mem_cons.mp hx with rfl | hx
      · exact isLexeme_ofKind rfl
      · exact h'.isLexeme x hx
  · have hgap : (ofKind .comma).gap tokens' = [' '] := by
      simp [hrest', gap, apart, hclings, ofKind]
    rw [Token.write_append, h.write_concat rfl, hgap, h'.write_eq]
    simp [ofKind, TokenKind.text?]

end Written

end Token

end SelectQuery
