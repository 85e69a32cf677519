import Mathlib.Data.List.Basic
import SelectQuery.Proofs.Displacement
import SelectQuery.Proofs.Seam
import SelectQuery.Proofs.Writing

/-!
# Texts kept apart by blanks

Blanks between texts keep apart what is read of them. The texts of tokens are read as those tokens
again when there are blanks between them (`tokenize_joined`), and a text behind blanks is read as it
is on its own, moved (`tokenize_separated`). Both need quotes to be paired in front of the blanks,
which is to say that all tokens there cover their texts (`Lexer.covers_iff_paired`): a string that
is left open would take the blanks for its own.
-/

namespace SelectQuery

/-- A text that keeps tokens apart: one blank or more. -/
structure Separator where
  text : String
  ne_nil : text.toList ≠ []
  isBlank : ∀ c ∈ text.toList, Lexer.isBlank c

/-- No token goes on with a separator. -/
theorem Separator.separate (w : Separator) (behind : List Char) :
    Lexer.Separate (w.text.toList ++ behind) := by
  apply Lexer.separate_of_isBlank
  intro c hc
  rw [List.head?_append_of_ne_nil _ w.ne_nil] at hc
  exact w.isBlank c (List.mem_of_head? hc)

/-- If no string is left open, every token of a reading covers its text. -/
theorem Reading.covers_of_closed {source : String} {offset : Nat} {tokens : List Token}
    (h : Reading source offset tokens) (hclosed : ∀ t ∈ tokens, ¬ t.LeftOpen source) :
    ∀ t ∈ tokens, t.span.Covers source t.text := by
  intro t ht
  obtain ⟨front, behind, hsplit⟩ := List.append_of_mem ht
  rcases h.text front t behind hsplit with hcovers | ⟨-, hopen⟩
  · exact hcovers
  · exact absurd hopen (hclosed t ht)

namespace Lexer

/-- The tokens of a text cover their texts if every quote in it has its partner, and only then. -/
theorem covers_iff_paired {source : String} {l : Lexer} (hl : l.IsAt source) {stop : Nat}
    (hending : l.remaining.2 = .ok stop) :
    (∀ t ∈ l.remaining.1, t.span.Covers source t.text) ↔ Paired l.rest := by
  induction l using scan_induction with
  | failed l e hs =>
    rw [remaining_of_failed hs] at hending
    cases hending
  | atEnd l stop' hs =>
    rw [remaining_of_atEnd hs]
    simp [paired_of_blank (scan_eq_atEnd_iff.mp hs).1]
  | token l t rest stop' hs ih =>
    have hbehind := (hl.of_scan hs).1
    obtain ⟨passed, hsource, hoffset⟩ := hl
    obtain ⟨lead, text, htext, hlead, hreads, ht, -⟩ := scan_eq_token_iff.mp hs
    rw [remaining_of_token hs] at hending ⊢
    rw [List.forall_mem_cons, ih hbehind hending, htext, paired_append_iff (paired_of_blank hlead)]
    rw [htext, ← List.append_assoc] at hsource
    rw [hoffset, ← byteLength_append] at hreads
    cases hreads with
    | @lexeme kind s rest hlexeme hsplit =>
      rw [hsplit] at hsource ⊢
      rw [paired_append_iff (paired_of_lexeme hlexeme)]
      exact and_iff_right (covers_ofText hsource kind)
    | unclosed =>
      obtain ⟨body, hbody, rfl⟩ := exists_body_of_unclosed ht
      refine iff_of_false ?_ (not_paired_open hbody)
      -- The text has a quote more than the span has room for.
      rintro ⟨⟨front, behind, -, hspan⟩, -⟩
      simp only [Span.ofSize, Span.mk.injEq, utf8ByteSize_ofList, byteLength_append] at hspan
      have hquote : byteLength ['"'] = 1 := rfl
      omega

end Lexer

namespace Token

/-- The texts of the tokens with separators between them, the `i`th behind the `i`th token. -/
def joined (separators : Nat → Separator) : List Token → String
  | [] => ""
  | [t] => t.text
  | t :: u :: tokens =>
    t.text ++ (separators 0).text ++ joined (fun i ↦ separators (i + 1)) (u :: tokens)

/-- Tokens with separators between them are told apart. -/
theorem laid_joined {tokens : List Token} (h : ∀ t ∈ tokens, t.IsLexeme)
    (separators : Nat → Separator) : Laid tokens (joined separators tokens).toList := by
  induction tokens generalizing separators with
  | nil => exact .nil (by simp [joined])
  | cons t tokens ih =>
    obtain ⟨ht, htokens⟩ := List.forall_mem_cons.mp h
    have hlead : ∀ c ∈ ([] : List Char), Lexer.isBlank c := by simp
    cases tokens with
    | nil =>
      have hlaid : Laid [t] ([] ++ (t.text.toList ++ [])) :=
        .cons hlead ht (TokenKind.endsBefore_nil _) (.nil hlead)
      simpa [joined] using hlaid
    | cons u tokens =>
      have hbehind := (ih htokens fun i ↦ separators (i + 1)).behind_blanks (separators 0).isBlank
      have hends := ((separators 0).separate
        (joined (fun i ↦ separators (i + 1)) (u :: tokens)).toList).endsBefore t.kind
      simpa [joined] using Laid.cons hlead ht hends hbehind

/-- Where tokens are laid out every quote has its partner. -/
theorem Laid.paired {tokens : List Token} {text : List Char} (h : Laid tokens text) :
    Lexer.Paired text := by
  induction h with
  | nil hblanks => exact Lexer.paired_of_blank hblanks
  | cons hlead ht _ _ ih =>
    rwa [Lexer.paired_append_iff (Lexer.paired_of_blank hlead),
      Lexer.paired_append_iff (Lexer.paired_of_lexeme ht)]

/-- A text in which tokens are laid out is split into these tokens and the end, and each of them
covers its text there. -/
theorem Laid.tokenize {tokens : List Token} {source : String} (h : Laid tokens source.toList) :
    ∃ tokens' stop, SelectQuery.tokenize source = .ok (tokens' ++ [.eof stop]) ∧
      tokens'.map bare = tokens.map bare ∧
      ∀ t ∈ tokens' ++ [.eof stop], t.span.Covers source t.text := by
  have hstart := Lexer.isAt_ofSource source
  obtain ⟨tokens', stop, hremaining, hbare⟩ := h.remaining 0
  have hsource : (Lexer.ofSource source).remaining = (tokens', .ok stop) := hremaining
  have hending := congrArg Prod.snd hsource
  have hcovers := (Lexer.covers_iff_paired hstart hending).mpr h.paired
  obtain rfl := hstart.of_ending hending
  rw [hsource] at hcovers
  refine ⟨tokens', _, by rw [tokenize_eq, hsource], hbare, ?_⟩
  refine List.forall_mem_append.mpr ⟨hcovers, ?_⟩
  rw [List.forall_mem_singleton]
  exact ⟨source, "", by simp [eof], rfl⟩

end Token

/-- The texts of the tokens of a source are split into these tokens again, whatever blanks stand
between them. Each token then covers its text, also a string that the source leaves open: its text
is closed. -/
theorem tokenize_joined {source : String} {tokens : List Token} (h : tokenize source = .ok tokens)
    (separators : Nat → Separator) :
    ∃ tokens', tokenize (Token.joined separators tokens.dropLast) = .ok tokens' ∧
      tokens'.map Token.bare = tokens.map Token.bare ∧
      ∀ t ∈ tokens', t.span.Covers (Token.joined separators tokens.dropLast) t.text := by
  obtain ⟨body, rfl, hreading⟩ := tokenize_eq_ok_iff_reading.mp h
  rw [List.dropLast_concat]
  obtain ⟨tokens', stop, htokens', hbare, hcovers⟩ :=
    (Token.laid_joined hreading.isLexeme separators).tokenize
  refine ⟨tokens' ++ [.eof stop], htokens', ?_, hcovers⟩
  rw [List.map_append, List.map_append, hbare]
  rfl

/-- A source without blanks whose last string is left open. -/
def crowdedAndOpen : String := "a<=\"x y\"b!=1<\"é = ; "

/-- A space, a line feed and a carriage return with a tab behind it, in turn. -/
def Separator.inTurn (i : Nat) : Separator :=
  match i % 3 with
  | 0 => ⟨" ", by decide, List.all_eq_true.mp (by decide)⟩
  | 1 => ⟨"\n", by decide, List.all_eq_true.mp (by decide)⟩
  | _ => ⟨"\r\t", by decide, List.all_eq_true.mp (by decide)⟩

/-- The texts of its tokens with these blanks between them. -/
def crowdedApart : String := "a <=\n\"x y\"\r\tb !=\n1\r\t< \"é = ; \""

/-- The blanks inside of the strings stay, and the open string is closed. -/
theorem tokenize_joined_crowdedAndOpen :
    ∃ tokens tokens', tokenize crowdedAndOpen = .ok tokens ∧
      Token.joined Separator.inTurn tokens.dropLast = crowdedApart ∧
      tokenize crowdedApart = .ok tokens' ∧ tokens'.map Token.bare = tokens.map Token.bare ∧
      ∀ t ∈ tokens', t.span.Covers crowdedApart t.text := by
  have h : tokenize crowdedAndOpen =
      .ok ((Lexer.ofSource crowdedAndOpen).remaining.1 ++ [.eof 21]) := by decide +kernel
  obtain ⟨tokens', htokens'⟩ := tokenize_joined h Separator.inTurn
  have hjoined : Token.joined Separator.inTurn
      ((Lexer.ofSource crowdedAndOpen).remaining.1 ++ [Token.eof 21]).dropLast = crowdedApart := by
    decide +kernel
  rw [hjoined] at htokens'
  exact ⟨_, tokens', h, hjoined, htokens'⟩

/-- What remains of a text in which every quote has its partner, and of a text behind it with blanks
in between: the tokens of both, those of the second and its error moved. -/
theorem Lexer.remaining_separated {a : String} (ha : Paired a.toList) {stop : Nat}
    (hending : (ofSource a).remaining.2 = .ok stop) (w : Separator) (b : String) :
    let r := Replacement.moved (a ++ w.text).utf8ByteSize
    (ofSource (a ++ w.text ++ b)).remaining =
      ((ofSource a).remaining.1 ++ (ofSource b).remaining.1.map r.token,
        r.ending (ofSource b).remaining.2) := by
  intro r
  obtain rfl := (isAt_ofSource a).of_ending hending
  let behind : Lexer := ⟨b.toList, (a ++ w.text).utf8ByteSize, false⟩
  have hskip : (Lexer.mk (w.text.toList ++ b.toList) a.utf8ByteSize false).remaining =
      behind.remaining := by
    apply remaining_congr
    dsimp only
    rw [scan_blank_append w.isBlank, byteLength_toList, ← String.utf8ByteSize_append]
  have hmoved : behind.remaining =
      ((ofSource b).remaining.1.map r.token, r.ending (ofSource b).remaining.2) :=
    remaining_of_moves (Replacement.moves_moved _) rfl
  calc (ofSource (a ++ w.text ++ b)).remaining
    _ = (Lexer.mk ((ofSource a).rest ++ (w.text.toList ++ b.toList)) 0 false).remaining := by
      simp [ofSource]
    _ = ((ofSource a).remaining.1 ++ behind.remaining.1, behind.remaining.2) := by
      have happend := remaining_append (l := ofSource a) ha (w.separate b.toList)
      rw [hending] at happend
      rw [← hskip]
      exact happend
    _ = _ := by rw [hmoved]

/-- Texts with blanks between them are split into the tokens of both. If nothing is left open in the
first, the second is read as it is on its own: its tokens, or its error, are moved by the bytes in
front of it and not changed otherwise. -/
theorem tokenize_separated {a : String} {tokens : List Token} (ha : tokenize a = .ok tokens)
    (hclosed : ∀ t ∈ tokens, ¬ t.LeftOpen a) (w : Separator) (b : String) :
    tokenize (a ++ w.text ++ b) =
      match tokenize b with
      | .ok tokens' =>
        .ok (tokens.dropLast ++ tokens'.map (Replacement.moved (a ++ w.text).utf8ByteSize).token)
      | .error e => .error (e.replace (.moved (a ++ w.text).utf8ByteSize)) := by
  have hstart := Lexer.isAt_ofSource a
  obtain ⟨stop, hending, rfl⟩ := tokenize_eq_ok_iff.mp ha
  have hreading := ((Lexer.remaining_eq_iff_reading hstart).mp (Prod.ext rfl hending)).1
  have hcovers := hreading.covers_of_closed fun t ht ↦ hclosed t (List.mem_append_left _ ht)
  have hpaired := (Lexer.covers_iff_paired hstart hending).mp hcovers
  rw [tokenize_eq, tokenize_eq, Lexer.remaining_separated hpaired hending, List.dropLast_concat]
  cases (Lexer.ofSource b).remaining.2 with
  | ok stop' => simp [Replacement.ending, Replacement.token_eof]
  | error e => rfl

/-- A string and an operator that would go on with an equals sign. -/
def stringAndLess : String := "\"é\" <"

/-- An equals sign behind blanks is another operator; and what is behind them has its place counted
in bytes, be it an open string or a letter in a number. -/
theorem tokenize_separated_stringAndLess :
    tokenize (stringAndLess ++ "\n" ++ "= \"x") =
      .ok [⟨.string, "\"é\"", ⟨0, 4⟩⟩, ⟨.less, "<", ⟨5, 6⟩⟩, ⟨.equal, "=", ⟨7, 8⟩⟩,
        ⟨.string, "\"x\"", ⟨9, 11⟩⟩, .eof 11] ∧
    tokenize (stringAndLess ++ "\n" ++ "= 1a") = .error (.letterInNumber 10) := by
  have h : tokenize stringAndLess =
      .ok [⟨.string, "\"é\"", ⟨0, 4⟩⟩, ⟨.less, "<", ⟨5, 6⟩⟩, .eof 6] := by decide +kernel
  have hclosed : ∀ t ∈ ([⟨.string, "\"é\"", ⟨0, 4⟩⟩, ⟨.less, "<", ⟨5, 6⟩⟩, .eof 6] : List Token),
      ¬ t.LeftOpen stringAndLess := by
    rintro t ht ⟨front, body, -, -, rfl⟩
    have hsize : stringAndLess.utf8ByteSize = 6 := by decide +kernel
    simp [Token.eof, hsize] at ht
  have hopen : tokenize "= \"x" =
      .ok [⟨.equal, "=", ⟨0, 1⟩⟩, ⟨.string, "\"x\"", ⟨2, 4⟩⟩, .eof 4] := by decide +kernel
  have hletter : tokenize "= 1a" = .error (.letterInNumber 3) := by decide +kernel
  have htokens := tokenize_separated h hclosed (.inTurn 1) "= \"x"
  have herror := tokenize_separated h hclosed (.inTurn 1) "= 1a"
  rw [hopen] at htokens
  rw [hletter] at herror
  exact ⟨htokens, herror⟩

end SelectQuery
