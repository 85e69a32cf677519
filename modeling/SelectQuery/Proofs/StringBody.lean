import SelectQuery.Proofs.Displacement
import SelectQuery.Proofs.Seam

/-!
# The body of a string

What stands between the quotes of a string is seen by nothing but the token of that string. A source
with another body there is parsed to the same result, with the text of that token replaced and with
all that is behind it moved (`parseWithin_replaced_of_body`). The tokens in front are read
on their own, the string ends at its second quote, and from there on the two sources agree.
-/

namespace SelectQuery

/-- The string literal with a body. -/
def quoted (body : String) : String := "\"" ++ body ++ "\""

/-- Where a place of a source is when the string behind `front` has another body: what is behind the
string moves by the difference of the lengths. -/
def placeBeside (front body body' : String) (offset : Nat) : Nat :=
  if offset ≤ front.utf8ByteSize then offset
  else offset + body'.utf8ByteSize - body.utf8ByteSize

/-- Replaces the text of the string that begins behind `front`, and moves what is behind it. -/
def Replacement.body (front body body' : String) : Replacement where
  token t :=
    ⟨t.kind,
      if t.kind = .string ∧ t.span.start = front.utf8ByteSize then quoted body' else t.text,
      ⟨placeBeside front body body' t.span.start, placeBeside front body body' t.span.stop⟩⟩
  place := placeBeside front body body'
  kind_token _ := rfl
  span_token _ := rfl
  token_eof _ := rfl

/-- The quotes take one byte each. -/
theorem utf8ByteSize_quoted (body : String) :
    (quoted body).utf8ByteSize = body.utf8ByteSize + 2 := by
  simp only [quoted, String.utf8ByteSize_append]
  have hquote : "\"".utf8ByteSize = 1 := rfl
  omega

/-- A string literal is read as a string. -/
theorem lexeme_quoted {body : String} (h : '"' ∉ body.toList) :
    TokenKind.Lexeme .string (quoted body) := by
  have hquoted : quoted body = .ofList ('"' :: body.toList ++ ['"']) := by
    rw [← String.toList_inj]
    simp [quoted]
  rw [hquoted]
  exact .string h

section

variable {front body body' behind : String}

/-- A place behind the string is as far behind the other. -/
theorem placeBeside_add (n : Nat) :
    placeBeside front body body' (front.utf8ByteSize + (quoted body).utf8ByteSize + n) =
      front.utf8ByteSize + (quoted body').utf8ByteSize + n := by
  rw [utf8ByteSize_quoted, utf8ByteSize_quoted, placeBeside]
  split <;> omega

/-- What is behind the string is moved. -/
theorem Replacement.moves_body :
    (Replacement.body front body body').Moves
      (front.utf8ByteSize + (quoted body).utf8ByteSize)
      (front.utf8ByteSize + (quoted body').utf8ByteSize) where
  place := placeBeside_add
  text t ht := by
    rw [utf8ByteSize_quoted] at ht
    have hne : t.span.start ≠ front.utf8ByteSize := by omega
    simp only [Replacement.body, hne, and_false, ite_false]

/-- What is in front of the string stays. -/
theorem Replacement.token_body_of_le {t : Token} (hlt : t.span.start < t.span.stop)
    (hle : t.span.stop ≤ front.utf8ByteSize) :
    (Replacement.body front body body').token t = t := by
  have hne : t.span.start ≠ front.utf8ByteSize := by omega
  have hstart : t.span.start ≤ front.utf8ByteSize := by omega
  simp only [Replacement.body, placeBeside, hne, and_false, hstart, hle, ite_true, ite_false]

/-- The string itself is replaced. -/
theorem Replacement.token_body_quoted :
    (Replacement.body front body body').token
        (.ofText .string (quoted body) front.utf8ByteSize) =
      .ofText .string (quoted body') front.utf8ByteSize := by
  have hstart : placeBeside front body body' front.utf8ByteSize = front.utf8ByteSize :=
    if_pos (Nat.le_refl _)
  have hstop : placeBeside front body body' (front.utf8ByteSize + (quoted body).utf8ByteSize) =
      front.utf8ByteSize + (quoted body').utf8ByteSize := placeBeside_add 0
  simp only [Replacement.body, Token.ofText, Span.ofSize, and_self, ite_true, hstart, hstop]

/-- An error in front of the string stays. -/
theorem LexError.replace_body_of_le {e : LexError} (hle : e.position ≤ front.utf8ByteSize) :
    e.replace (.body front body body') = e := by
  have hplace : placeBeside front body body' e.position = e.position := if_pos hle
  cases e with
  | unexpectedCharacter c position => exact congrArg (unexpectedCharacter c) hplace
  | letterInNumber position => exact congrArg letterInNumber hplace

namespace Lexer

private theorem scan_quoted (hbody : '"' ∉ body.toList) (offset : Nat) :
    scan offset (quoted body ++ behind).toList =
      .ofText .string (quoted body) offset behind.toList := by
  have hs := lexeme_quoted hbody
  rw [String.toList_append]
  refine scan_eq_token_iff.mpr ⟨[], _, rfl, by simp, .lexeme hs rfl, hs, ?_⟩
  exact TokenKind.endsBefore_string _

private theorem remaining_quoted (hfront : Paired front.toList) (hbody : '"' ∉ body.toList) :
    (ofSource (front ++ quoted body ++ behind)).remaining =
      match (ofSource front).remaining.2 with
      | .error e => ((ofSource front).remaining.1, .error e)
      | .ok _ =>
        let l : Lexer := ⟨behind.toList, front.utf8ByteSize + (quoted body).utf8ByteSize, false⟩
        ((ofSource front).remaining.1 ++
          .ofText .string (quoted body) front.utf8ByteSize :: l.remaining.1, l.remaining.2) := by
  have hseparate : Separate (quoted body ++ behind).toList := by
    simp only [quoted, String.toList_append]
    exact separate_cons.mpr (by decide)
  have happend := remaining_append (l := ofSource front) hfront hseparate
  have hsource : ofSource (front ++ quoted body ++ behind) =
      ⟨(ofSource front).rest ++ (quoted body ++ behind).toList, 0, false⟩ := by
    simp [ofSource]
  rw [hsource]
  refine happend.trans ?_
  cases hr : (ofSource front).remaining.2 with
  | error e => rfl
  | ok stop =>
    obtain rfl := (isAt_ofSource front).of_ending hr
    have hstring := remaining_of_token
      (l := ⟨(quoted body ++ behind).toList, front.utf8ByteSize, false⟩)
      (scan_quoted hbody front.utf8ByteSize)
    simp only [ofSource, hstring, Token.ofText]

private theorem remaining_body (hfront : Paired front.toList) (hbody : '"' ∉ body.toList)
    (hbody' : '"' ∉ body'.toList) :
    let r := Replacement.body front body body'
    let l := ofSource (front ++ quoted body ++ behind)
    (ofSource (front ++ quoted body' ++ behind)).remaining =
      (l.remaining.1.map r.token, r.ending l.remaining.2) := by
  intro r l
  obtain ⟨htokens, hending⟩ := remaining_within (ofSource front)
  have hend : (ofSource front).endOffset = front.utf8ByteSize := by simp [endOffset, ofSource]
  rw [hend] at htokens hending
  have hkept : (ofSource front).remaining.1.map r.token = (ofSource front).remaining.1 := by
    have hid : ∀ t ∈ (ofSource front).remaining.1, r.token t = id t := by
      intro t ht
      exact Replacement.token_body_of_le (htokens t ht).1 (htokens t ht).2
    rw [List.map_congr_left hid, List.map_id]
  simp only [l, remaining_quoted hfront hbody, remaining_quoted hfront hbody']
  cases hr : (ofSource front).remaining.2 with
  | error e =>
    rw [hr] at hending
    have hkeptError : e.replace r = e := LexError.replace_body_of_le hending
    simp only [hkept, Replacement.ending, hkeptError]
  | ok stop =>
    let l : Lexer := ⟨behind.toList, front.utf8ByteSize + (quoted body).utf8ByteSize, false⟩
    let l' : Lexer := ⟨behind.toList, front.utf8ByteSize + (quoted body').utf8ByteSize, false⟩
    have hmoved : l'.remaining = (l.remaining.1.map r.token, r.ending l.remaining.2) :=
      remaining_of_moves Replacement.moves_body rfl
    have hstring : r.token (.ofText .string (quoted body) front.utf8ByteSize) = _ :=
      Replacement.token_body_quoted
    simp only [hkept, List.map_append, List.map_cons, hstring]
    rw [hmoved]

end Lexer

end

/-- The body of a string literal has no influence on anything but the literal itself. Sources that
differ in nothing else, with quotes paired in front of it, have the same statement or the same
error, but for the text of the literal and for the places behind it. -/
theorem parseWithin_replaced_of_body (limit : Nat) {front body body' behind : String}
    (hfront : Lexer.Paired front.toList) (hbody : '"' ∉ body.toList) (hbody' : '"' ∉ body'.toList) :
    Replaced (.body front body body')
      (parseWithin limit (front ++ quoted body ++ behind))
      (parseWithin limit (front ++ quoted body' ++ behind)) := by
  rw [parseWithin_eq_conclude, parseWithin_eq_conclude, Lexer.remaining_body hfront hbody hbody']
  exact Parser.State.conclude_replace (.body front body body') limit _ .start _

/-- The source in front of a string. -/
def beforeString : String := "SELECT a FROM t WHERE \"b\" = "

/-- A body may look like the end of the statement. -/
theorem parseWithin_replaced_of_body_semicolon :
    Lexer.Paired beforeString.toList ∧ '"' ∉ "x".toList ∧ '"' ∉ "é); OR".toList ∧
    Replaced (.body beforeString "x" "é); OR")
      (parseWithin 1 (beforeString ++ quoted "x" ++ " AND c = 1;"))
      (parseWithin 1 (beforeString ++ quoted "é); OR" ++ " AND c = 1;")) ∧
    (parseWithin 1 (beforeString ++ quoted "é); OR" ++ " AND c = 1;")).isOk := by
  have hfront : Lexer.Paired beforeString.toList := by decide
  have hbody : '"' ∉ "x".toList := by decide
  have hbody' : '"' ∉ "é); OR".toList := by decide
  exact ⟨hfront, hbody, hbody', parseWithin_replaced_of_body 1 hfront hbody hbody',
    by decide +kernel⟩

end SelectQuery
