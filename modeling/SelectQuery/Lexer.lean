import SelectQuery.Error
import SelectQuery.Token

/-!
# Lexing

`Lexer.scan` reads one token at the head of a text: it skips blanks, then takes the longest
lexeme that begins there. `Lexer` is a place in a source; `Lexer.next` moves it by one token,
and by blanks alone when no token can be read. The law `Lexer.length_lt_of_scan` says
that every token read makes the rest of the text shorter.
-/

namespace SelectQuery

/-- A place in a source text: the text still unread, the byte offset at which it begins, and
whether iteration over the tokens has ended. -/
structure Lexer where
  rest : List Char
  offset : Nat
  ended : Bool
  deriving DecidableEq, Repr

namespace Lexer

/-- What may stand between tokens: space, line feed, carriage return and tab, and no other
white space. -/
def isBlank (c : Char) : Bool :=
  c == ' ' || c == '\n' || c == '\r' || c == '\t'

/-- A word begins with an ASCII letter or an underscore. -/
def isWordStart (c : Char) : Bool :=
  c.isAlpha || c == '_'

/-- A word goes on with ASCII letters, ASCII digits and underscores. -/
def isWordPart (c : Char) : Bool :=
  c.isAlphanum || c == '_'

/-- The number of bytes of a text in UTF-8. -/
def byteLength (text : List Char) : Nat :=
  text.foldl (fun size c ↦ size + c.utf8Size) 0

/-- What is found at a place of the source: a token with the rest of the text and the offset
at which that rest begins, the end of the source, or a character that begins no token. -/
inductive Scan where
  | token (t : Token) (rest : List Char) (offset : Nat)
  | atEnd (offset : Nat)
  | failed (e : LexError)
  deriving DecidableEq, Repr

/-- The operator or punctuation mark at the head of a text: its kind, its text and the rest.
The marks of two characters come first, so that the longest one is taken. -/
def mark? : List Char → Option (TokenKind × String × List Char)
  | '<' :: '=' :: rest => some (.lessEqual, "<=", rest)
  | '>' :: '=' :: rest => some (.greaterEqual, ">=", rest)
  | '!' :: '=' :: rest => some (.notEqual, "!=", rest)
  | ',' :: rest => some (.comma, ",", rest)
  | '=' :: rest => some (.equal, "=", rest)
  | '*' :: rest => some (.star, "*", rest)
  | '(' :: rest => some (.leftParen, "(", rest)
  | ')' :: rest => some (.rightParen, ")", rest)
  | ';' :: rest => some (.semicolon, ";", rest)
  | '<' :: rest => some (.less, "<", rest)
  | '>' :: rest => some (.greater, ">", rest)
  | _ => none

/-- The token of a given kind and text at `offset`, with the rest of the source. -/
def Scan.ofText (kind : TokenKind) (text : String) (offset : Nat) (rest : List Char) : Scan :=
  .token (.ofText kind text offset) rest (offset + text.utf8ByteSize)

/-- A maximal run of digits is a number, unless a letter or underscore follows it. -/
def scanNumber (offset : Nat) (text : List Char) : Scan :=
  let digits := text.takeWhile Char.isDigit
  let rest := text.dropWhile Char.isDigit
  if rest.head?.any isWordStart then .failed (.letterInNumber (offset + byteLength digits))
  else .ofText .number (.ofList digits) offset rest

/-- A maximal run of word characters is a keyword or an identifier. -/
def scanWord (offset : Nat) (text : List Char) : Scan :=
  let word := String.ofList (text.takeWhile isWordPart)
  .ofText (.ofWord word) word offset (text.dropWhile isWordPart)

/-- A string literal runs from its opening quote, which `body` follows, to the next quote.
Without one it runs to the end of the source and its text is closed all the same, while its
span ends with the source. -/
def scanString (offset : Nat) (body : List Char) : Scan :=
  let text := String.ofList ('"' :: body.takeWhile (· != '"') ++ ['"'])
  match body.dropWhile (· != '"') with
  | _ :: rest => .ofText .string text offset rest
  | [] =>
    let stop := offset + byteLength ('"' :: body)
    .token ⟨.string, text, ⟨offset, stop⟩⟩ [] stop

/-- The token that begins with the first character of a text. -/
def scanLexeme (offset : Nat) : List Char → Scan
  | [] => .atEnd offset
  | c :: rest =>
    if c.isDigit then scanNumber offset (c :: rest)
    else if isWordStart c then scanWord offset (c :: rest)
    else if c == '"' then scanString offset rest
    else
      match mark? (c :: rest) with
      | some (kind, text, rest') => .ofText kind text offset rest'
      | none => .failed (.unexpectedCharacter c offset)

/-- What is found at a place of the source once blanks are skipped. -/
def scan (offset : Nat) (text : List Char) : Scan :=
  scanLexeme (offset + byteLength (text.takeWhile isBlank)) (text.dropWhile isBlank)

private theorem length_dropWhile_le (p : Char → Bool) (text : List Char) :
    (text.dropWhile p).length ≤ text.length :=
  (List.dropWhile_sublist p).length_le

private theorem length_dropWhile_lt {p : Char → Bool} {c : Char} (h : p c) (rest : List Char) :
    ((c :: rest).dropWhile p).length < (c :: rest).length := by
  simpa [h] using Nat.lt_succ_of_le (length_dropWhile_le p rest)

private theorem length_lt_of_mark {text rest : List Char} {kind : TokenKind} {s : String}
    (h : mark? text = some (kind, s, rest)) : rest.length < text.length := by
  unfold mark? at h
  split at h <;> simp only [Option.some.injEq, Prod.mk.injEq, reduceCtorEq] at h
  all_goals
    obtain ⟨-, -, rfl⟩ := h
    simp only [List.length_cons]
    omega

/-- A character that begins words may stand inside of them. -/
theorem isWordPart_of_isWordStart {c : Char} (h : isWordStart c) : isWordPart c := by
  simp only [isWordStart, isWordPart, Char.isAlphanum, Bool.or_eq_true] at h ⊢
  exact h.imp_left .inl

private theorem rest_eq_of_ofText {kind : TokenKind} {s : String} {offset stop : Nat}
    {rest rest' : List Char} {t : Token}
    (h : Scan.ofText kind s offset rest = .token t rest' stop) : rest = rest' := by
  simp only [Scan.ofText, Scan.token.injEq] at h
  exact h.2.1

private theorem length_lt_of_scanNumber {offset stop : Nat} {c : Char} {rest rest' : List Char}
    {t : Token} (hc : c.isDigit) (h : scanNumber offset (c :: rest) = .token t rest' stop) :
    rest'.length < (c :: rest).length := by
  unfold scanNumber at h
  dsimp only at h
  split at h
  · cases h
  · rw [← rest_eq_of_ofText h]
    exact length_dropWhile_lt hc rest

private theorem length_le_of_scanString {offset stop : Nat} {body rest : List Char} {t : Token}
    (h : scanString offset body = .token t rest stop) : rest.length ≤ body.length := by
  have hle := length_dropWhile_le (· != '"') body
  unfold scanString at h
  dsimp only at h
  split at h
  next hd =>
    rw [hd, rest_eq_of_ofText h] at hle
    exact Nat.le_of_succ_le hle
  next hd =>
    simp only [Scan.token.injEq] at h
    simp [← h.2.1]

private theorem length_lt_of_scanLexeme {offset stop : Nat} {text rest : List Char} {t : Token}
    (h : scanLexeme offset text = .token t rest stop) : rest.length < text.length := by
  match text with
  | [] => cases h
  | c :: tail =>
    simp only [scanLexeme] at h
    split at h
    next hc => exact length_lt_of_scanNumber hc h
    next =>
      split at h
      next hc =>
        rw [← rest_eq_of_ofText h]
        exact length_dropWhile_lt (isWordPart_of_isWordStart hc) tail
      next =>
        split at h
        next => exact Nat.lt_succ_of_le (length_le_of_scanString h)
        next =>
          split at h
          next hm =>
            rw [← rest_eq_of_ofText h]
            exact length_lt_of_mark hm
          next => cases h

/-- Every token read takes at least one character from the text. -/
theorem length_lt_of_scan {offset stop : Nat} {text rest : List Char} {t : Token}
    (h : scan offset text = .token t rest stop) : rest.length < text.length :=
  Nat.lt_of_lt_of_le (length_lt_of_scanLexeme h) (length_dropWhile_le isBlank text)

/-- The place before the first character of a source. -/
def ofSource (source : String) : Lexer := ⟨source.toList, 0, false⟩

/-- The offset at which the source ends. -/
def endOffset (l : Lexer) : Nat := l.offset + byteLength l.rest

/-- The lexer behind the blanks that it stands at. -/
def skipBlanks (l : Lexer) : Lexer :=
  { l with
    rest := l.rest.dropWhile isBlank
    offset := l.offset + byteLength (l.rest.takeWhile isBlank) }

/-- Behind the blanks no more text is left. -/
theorem length_skipBlanks_le (l : Lexer) : l.skipBlanks.rest.length ≤ l.rest.length :=
  length_dropWhile_le isBlank l.rest

/-- Reads one token. At the end of the source this is the `eof` token, as often as asked; where
no token can be read the lexer passes no more than blanks, so that the same error is met again. -/
def next (l : Lexer) : Except LexError Token × Lexer :=
  match scan l.offset l.rest with
  | .token t rest offset => (.ok t, { l with rest, offset })
  | .atEnd offset => (.ok (.eof offset), l.skipBlanks)
  | .failed e => (.error e, l.skipBlanks)

/-- Iterates: each token before the end of the source, or the first error, and then nothing
ever again. Reading with `next` neither heeds nor sets the mark that iteration has ended. -/
def step (l : Lexer) : Option (Except LexError Token) × Lexer :=
  if l.ended then (none, l)
  else
    match l.next with
    | (.ok t, l) => if t.kind = .eof then (none, { l with ended := true }) else (some (.ok t), l)
    | (.error e, l) => (some (.error e), { l with ended := true })

/-- The tokens at the head of a text up to its end or its first error, added to those already
read, which come newest first; and the offset of the end, or the error. -/
def readAll (offset : Nat) (text : List Char) (read : List Token) :
    List Token × Except LexError Nat :=
  match _h : scan offset text with
  | .token t rest offset' => readAll offset' rest (t :: read)
  | .atEnd offset' => (read.reverse, .ok offset')
  | .failed e => (read.reverse, .error e)
termination_by text.length
decreasing_by exact length_lt_of_scan _h

/-- The tokens still to be read, and how they end: at the offset of the end of the source, or
with an error. -/
def remaining (l : Lexer) : List Token × Except LexError Nat :=
  readAll l.offset l.rest []

/-- Every token still to be read and the `eof` token, or the first error. An iteration that has
ended leaves the `eof` token alone. -/
def finish (l : Lexer) : Except LexError (List Token) :=
  if l.ended then .ok [.eof l.endOffset]
  else
    match l.remaining with
    | (tokens, .ok offset) => .ok (tokens ++ [.eof offset])
    | (_, .error e) => .error e

end Lexer

/-- Every token of a source, the `eof` token included. -/
def tokenize (source : String) : Except LexError (List Token) :=
  (Lexer.ofSource source).finish

end SelectQuery
