import SelectQuery.Proofs.Reading
import SelectQuery.Proofs.Replacement

/-!
# Moved texts

What is read of a text does not depend on where the text begins: at another offset there are the
same tokens and the same error, moved by as much (`Lexer.remaining_of_moves`). This holds of every
replacement that does no more than to move what lies behind a place (`Replacement.Moves`).
-/

namespace SelectQuery

/-- Behind `start` the replacement moves tokens to where they are behind `start'`, and changes
nothing else. -/
structure Replacement.Moves (r : Replacement) (start start' : Nat) : Prop where
  place : ∀ n, r.place (start + n) = start' + n
  text : ∀ t, start ≤ t.span.start → (r.token t).text = t.text

/-- Moves all places by a distance. -/
def Replacement.moved (distance : Nat) : Replacement where
  token t := ⟨t.kind, t.text, ⟨distance + t.span.start, distance + t.span.stop⟩⟩
  place offset := distance + offset
  kind_token _ := rfl
  span_token _ := rfl
  token_eof _ := rfl

/-- What begins at the distance is what begins at the front, moved. -/
theorem Replacement.moves_moved (distance : Nat) : (moved distance).Moves 0 distance where
  place n := by rw [Nat.zero_add, moved]
  text _ _ := rfl

namespace Replacement.Moves

variable {r : Replacement} {start start' : Nat}

/-- What lies further behind is moved as well. -/
theorem add (h : r.Moves start start') (n : Nat) : r.Moves (start + n) (start' + n) where
  place m := by rw [Nat.add_assoc, h.place, Nat.add_assoc]
  text t ht := h.text t (by omega)

/-- The place itself is moved to where the other one begins. -/
theorem place_start (h : r.Moves start start') : r.place start = start' := h.place 0

/-- A token behind the place is moved. -/
theorem token_eq (h : r.Moves start start') (kind : TokenKind) (text : String) (n : Nat) :
    r.token ⟨kind, text, ⟨start, start + n⟩⟩ = ⟨kind, text, ⟨start', start' + n⟩⟩ := by
  rw [Token.mk.injEq]
  refine ⟨r.kind_token _, h.text _ (Nat.le_refl _), ?_⟩
  rw [r.span_token, h.place_start, h.place]

end Replacement.Moves

namespace Lexer

/-- What is found, with the token replaced. -/
def Scan.replace (r : Replacement) : Scan → Scan
  | token t rest offset => token (r.token t) rest (r.place offset)
  | atEnd offset => atEnd (r.place offset)
  | failed e => failed (e.replace r)

section

variable {r : Replacement} {offset offset' : Nat}

private theorem ofText_of_moves (h : r.Moves offset offset') (kind : TokenKind) (text : String)
    (rest : List Char) :
    Scan.ofText kind text offset' rest = (Scan.ofText kind text offset rest).replace r := by
  simp only [Scan.ofText, Token.ofText, Span.ofSize, Scan.replace, h.token_eq, h.place]

private theorem scanNumber_of_moves (h : r.Moves offset offset') (text : List Char) :
    scanNumber offset' text = (scanNumber offset text).replace r := by
  simp only [scanNumber]
  split
  · simp only [Scan.replace, LexError.replace, h.place]
  · exact ofText_of_moves h _ _ _

private theorem scanString_of_moves (h : r.Moves offset offset') (body : List Char) :
    scanString offset' body = (scanString offset body).replace r := by
  simp only [scanString]
  split
  · exact ofText_of_moves h _ _ _
  · simp only [Scan.replace, h.token_eq, h.place]

private theorem scanLexeme_of_moves (h : r.Moves offset offset') (text : List Char) :
    scanLexeme offset' text = (scanLexeme offset text).replace r := by
  cases text with
  | nil => simp only [scanLexeme, Scan.replace, h.place_start]
  | cons c rest =>
    simp only [scanLexeme]
    split
    next => exact scanNumber_of_moves h _
    next =>
      split
      next => exact ofText_of_moves h _ _ _
      next =>
        split
        next => exact scanString_of_moves h rest
        next =>
          split
          next => exact ofText_of_moves h _ _ _
          next => simp only [Scan.replace, LexError.replace, h.place_start]

/-- What is found in a moved text is moved. -/
theorem scan_of_moves (h : r.Moves offset offset') (text : List Char) :
    scan offset' text = (scan offset text).replace r :=
  scanLexeme_of_moves (h.add _) _

end

/-- Reading moves on from where it begins. -/
theorem exists_stop_eq_add {offset stop : Nat} {text rest : List Char} {t : Token}
    (h : scan offset text = .token t rest stop) : ∃ n, stop = offset + n := by
  obtain ⟨lead, text', -, -, hreads, ht, -⟩ := scan_eq_token_iff.mp h
  obtain ⟨taken, -, -, hstop, -⟩ := hreads.exists_split ht
  exact ⟨byteLength lead + byteLength taken, by rw [hstop, Nat.add_assoc]⟩

/-- What remains of a moved text is moved. -/
theorem remaining_of_moves {r : Replacement} {l l' : Lexer} (h : r.Moves l.offset l'.offset)
    (hrest : l'.rest = l.rest) :
    l'.remaining = (l.remaining.1.map r.token, r.ending l.remaining.2) := by
  induction l using scan_induction generalizing l' with
  | failed l e hs =>
    have hscan := scan_of_moves h l.rest
    rw [hs, ← hrest] at hscan
    rw [remaining_of_failed hs, remaining_of_failed hscan]
    rfl
  | atEnd l stop hs =>
    have hscan := scan_of_moves h l.rest
    rw [hs, ← hrest] at hscan
    rw [remaining_of_atEnd hs, remaining_of_atEnd hscan]
    rfl
  | token l t rest stop hs ih =>
    have hscan := scan_of_moves h l.rest
    rw [hs, ← hrest] at hscan
    obtain ⟨n, rfl⟩ := exists_stop_eq_add hs
    have hmoves : r.Moves (l.offset + n) (r.place (l.offset + n)) := by
      rw [h.place]
      exact h.add n
    have ih := @ih ⟨rest, r.place (l.offset + n), l'.ended⟩ hmoves rfl
    rw [remaining_of_token hs, remaining_of_token hscan, ih]
    rfl

end Lexer

end SelectQuery
