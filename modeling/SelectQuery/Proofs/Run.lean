import SelectQuery.Parser
import SelectQuery.Proofs.Lexeme

/-!
# Runs over a list of tokens

A parser pulls its tokens from a lexer one by one. `State.run?` and `State.conclude` say the same
of a list of tokens that is there at once, and `parseWithin_eq_conclude` that this is what parsing
a source comes to: lex it as far as it goes, then run over the tokens and look at how they end.
-/

namespace SelectQuery

namespace Lexer

/-- The end of the source is not read as a token. -/
theorem kind_ne_eof_of_scan {offset stop : Nat} {text rest : List Char} {t : Token}
    (h : scan offset text = .token t rest stop) : t.kind ≠ .eof := by
  rcases isLexeme_of_scan h with hlexeme | ⟨hstring, -⟩
  · exact TokenKind.ne_eof_of_lexeme hlexeme
  · rw [hstring]
    decide

/-- Induction along the tokens that are read from a place on: what holds of a place holds of the
places from which one token leads there. -/
@[elab_as_elim]
theorem scan_induction {motive : Lexer → Prop}
    (token : ∀ l t rest stop, scan l.offset l.rest = .token t rest stop →
      motive ⟨rest, stop, l.ended⟩ → motive l)
    (atEnd : ∀ l stop, scan l.offset l.rest = .atEnd stop → motive l)
    (failed : ∀ l e, scan l.offset l.rest = .failed e → motive l) (l : Lexer) : motive l := by
  generalize hn : l.rest.length = n
  induction n using Nat.strongRecOn generalizing l with
  | ind n ih =>
    cases hs : scan l.offset l.rest with
    | token t rest stop =>
      have hlt : rest.length < n := hn ▸ length_lt_of_scan hs
      exact token l t rest stop hs (ih rest.length hlt ⟨rest, stop, l.ended⟩ rfl)
    | atEnd stop => exact atEnd l stop hs
    | failed e => exact failed l e hs

private theorem readAll_step (offset : Nat) (text : List Char) (read : List Token) :
    readAll offset text read =
      match scan offset text with
      | .token t rest stop => readAll stop rest (t :: read)
      | .atEnd stop => (read.reverse, .ok stop)
      | .failed e => (read.reverse, .error e) := by
  rw [readAll]
  split <;> simp_all

/-- What has been read already only stands in front of what is still to be read. -/
theorem readAll_eq (offset : Nat) (text : List Char) (read : List Token) :
    readAll offset text read =
      (read.reverse ++ (readAll offset text []).1, (readAll offset text []).2) := by
  generalize hn : text.length = n
  induction n using Nat.strongRecOn generalizing offset text read with
  | ind n ih =>
    rw [readAll_step offset text read, readAll_step offset text []]
    cases hs : scan offset text with
    | failed e => simp
    | atEnd stop => simp
    | token t rest stop =>
      have hlt : rest.length < n := hn ▸ length_lt_of_scan hs
      dsimp only
      rw [ih _ hlt stop rest (t :: read) rfl, ih _ hlt stop rest [t] rfl]
      simp

/-- A token read stands first among those that remain. -/
theorem remaining_of_token {l : Lexer} {t : Token} {rest : List Char} {offset : Nat}
    (h : scan l.offset l.rest = .token t rest offset) :
    l.remaining =
      (t :: (Lexer.mk rest offset l.ended).remaining.1,
        (Lexer.mk rest offset l.ended).remaining.2) := by
  unfold remaining
  rw [readAll_step, h]
  dsimp only
  rw [readAll_eq]
  simp

/-- At the end of the source nothing remains. -/
theorem remaining_of_atEnd {l : Lexer} {offset : Nat} (h : scan l.offset l.rest = .atEnd offset) :
    l.remaining = ([], .ok offset) := by
  unfold remaining
  rw [readAll_step, h]
  rfl

/-- Where no token can be read nothing remains but the error. -/
theorem remaining_of_failed {l : Lexer} {e : LexError} (h : scan l.offset l.rest = .failed e) :
    l.remaining = ([], .error e) := by
  unfold remaining
  rw [readAll_step, h]
  rfl

/-- What remains depends on what is found first. -/
theorem remaining_congr {l l' : Lexer} (h : scan l.offset l.rest = scan l'.offset l'.rest) :
    l.remaining = l'.remaining := by
  unfold remaining
  rw [readAll_step, readAll_step, h]

/-- What holds of each token that is read, as long as an invariant of the places is kept, holds of
all that remain, if at each place a string that is not closed may be the exception: only the last
token can be one. -/
theorem forall_remaining (At : Lexer → Prop) (P : Token → Prop)
    (hscan : ∀ {l : Lexer} {t : Token} {rest : List Char} {stop : Nat}, At l →
      scan l.offset l.rest = .token t rest stop →
      At ⟨rest, stop, l.ended⟩ ∧ (P t ∨ (t.kind = .string ∧ rest = [])))
    {l : Lexer} (hl : At l) {t : Token} {front behind : List Token}
    (h : l.remaining.1 = front ++ t :: behind) : P t ∨ (t.kind = .string ∧ behind = []) := by
  induction l using scan_induction generalizing front with
  | failed l e hs => simp [remaining_of_failed hs] at h
  | atEnd l stop hs => simp [remaining_of_atEnd hs] at h
  | token l u rest stop hs ih =>
    obtain ⟨hat, hu⟩ := hscan hl hs
    rw [remaining_of_token hs] at h
    cases front with
    | nil =>
      obtain ⟨rfl, hbehind⟩ := List.cons.inj h
      refine hu.imp_right fun ⟨hkind, hrest⟩ ↦ ⟨hkind, ?_⟩
      have hend : scan stop rest = .atEnd stop := by rw [hrest]; rfl
      rw [← hbehind, remaining_of_atEnd hend]
    | cons v front =>
      obtain ⟨-, hrest⟩ := List.cons.inj h
      exact ih hat hrest

/-- Every token that remains is a lexeme, but the last may be a string that is not closed. -/
theorem isLexeme_of_remaining {l : Lexer} {t : Token} {front behind : List Token}
    (h : l.remaining.1 = front ++ t :: behind) : t.IsLexeme ∨ (t.kind = .string ∧ behind = []) :=
  forall_remaining (fun _ ↦ True) Token.IsLexeme (fun _ hs ↦ ⟨trivial, isLexeme_of_scan hs⟩)
    trivial h

/-- No token that remains is the end of the source. -/
theorem kind_ne_eof_of_mem_remaining {l : Lexer} {t : Token} (h : t ∈ l.remaining.1) :
    t.kind ≠ .eof := by
  obtain ⟨front, behind, hsplit⟩ := List.append_of_mem h
  rcases isLexeme_of_remaining hsplit with hlexeme | ⟨hstring, -⟩
  · exact TokenKind.ne_eof_of_lexeme hlexeme
  · rw [hstring]
    decide

end Lexer

namespace Parser

namespace State

/-- The state after all of the given tokens, if each of them can be taken in turn. -/
def run? (limit : Nat) (s : State) (tokens : List Token) : Option State :=
  tokens.foldlM (step? limit) s

/-- Without a token a run stays where it is. -/
@[simp] theorem run?_nil (limit : Nat) (s : State) : s.run? limit [] = some s := rfl

/-- A run takes the first token and goes on from there. -/
@[simp] theorem run?_cons (limit : Nat) (s : State) (t : Token) (tokens : List Token) :
    s.run? limit (t :: tokens) = (s.step? limit t).bind fun s' ↦ s'.run? limit tokens := rfl

/-- Tokens may be taken in two portions. -/
theorem run?_append (limit : Nat) (s : State) (tokens tokens' : List Token) :
    s.run? limit (tokens ++ tokens') =
      (s.run? limit tokens).bind fun s' ↦ s'.run? limit tokens' :=
  List.foldlM_append

/-- What becomes of a state when the given tokens follow, and then the end of the source at the
offset given, or a lexical error. -/
def conclude (limit : Nat) (ending : Except LexError Nat) (s : State) :
    List Token → Except ParseError Statement
  | [] =>
    match ending, s with
    | .error e, _ => .error (.lexical e)
    | .ok _, complete statement => .ok statement
    | .ok offset, s => .error (.syntactic ⟨s.fault limit (.eof offset), ⟨offset, offset⟩⟩)
  | t :: tokens =>
    match s.step? limit t with
    | none => .error (.syntactic ⟨s.fault limit t, t.span⟩)
    | some s' => s'.conclude limit ending tokens

/-- A statement is concluded exactly when the tokens lead to it and the source ends there. -/
theorem conclude_eq_ok_iff {limit : Nat} {ending : Except LexError Nat} {s : State}
    {tokens : List Token} {statement : Statement} :
    s.conclude limit ending tokens = .ok statement ↔
      s.run? limit tokens = some (complete statement) ∧ ∃ offset, ending = .ok offset := by
  induction tokens generalizing s with
  | nil =>
    cases ending with
    | error e => simp [conclude]
    | ok offset => cases s <;> simp [conclude]
  | cons t tokens ih =>
    cases hs : s.step? limit t with
    | none => simp [conclude, hs]
    | some s' => simpa [conclude, hs] using ih

/-- A run concludes from where its first tokens lead. -/
theorem conclude_append {limit : Nat} {s s' : State} {front : List Token}
    (h : s.run? limit front = some s') (ending : Except LexError Nat) (tokens : List Token) :
    s.conclude limit ending (front ++ tokens) = s'.conclude limit ending tokens := by
  induction front generalizing s with
  | nil => rw [Option.some.inj h, List.nil_append]
  | cons t front ih =>
    obtain ⟨s₁, hs₁, hrest⟩ := Option.bind_eq_some_iff.mp h
    simpa [conclude, hs₁] using ih hrest

/-- What can be taken under a limit can be taken under a higher one. -/
theorem step?_of_le {limit limit' : Nat} (hle : limit ≤ limit') {s s' : State} {t : Token}
    (h : s.step? limit t = some s') : s.step? limit' t = some s' := by
  cases s with
  | expression hd frames =>
    simp only [step?] at h ⊢
    split at h
    next hn => rwa [if_pos (Nat.le_trans hn hle)]
    next => cases h
  | _ => exact h

/-- What cannot be taken under a limit, but could be under another, is nested too deeply. -/
theorem fault_of_step? {limit limit' : Nat} {s s' : State} {t : Token}
    (h : s.step? limit t = none) (h' : s.step? limit' t = some s') :
    s.fault limit t = .nestedTooDeeply := by
  cases s with
  | expression hd frames =>
    simp only [step?] at h h'
    split at h
    next =>
      split at h'
      next =>
        rw [h] at h'
        cases h'
      next => cases h'
    next hn => exact if_neg hn
  | _ =>
    have hsame := h.symm.trans h'
    cases hsame

/-- Tokens that lead to a state under a high limit, but not under a lower one, nest too deeply for
that one. -/
theorem conclude_of_run?_eq_none {limit limit' : Nat} (hle : limit ≤ limit') {s s' : State}
    {tokens : List Token} (h : s.run? limit tokens = none)
    (h' : s.run? limit' tokens = some s') (ending : Except LexError Nat) :
    ∃ span, s.conclude limit ending tokens = .error (.syntactic ⟨.nestedTooDeeply, span⟩) := by
  induction tokens generalizing s with
  | nil => cases h
  | cons t tokens ih =>
    obtain ⟨s₁, hstep', hrest'⟩ := Option.bind_eq_some_iff.mp h'
    cases hstep : s.step? limit t with
    | none => exact ⟨t.span, by simp only [conclude, hstep, fault_of_step? hstep hstep']⟩
    | some s₂ =>
      obtain rfl : s₂ = s₁ := Option.some.inj ((step?_of_le hle hstep).symm.trans hstep')
      have hrest : s₂.run? limit tokens = none := by rwa [run?_cons, hstep] at h
      obtain ⟨span, hspan⟩ := ih hrest hrest'
      exact ⟨span, by simp only [conclude, hstep, hspan]⟩

end State

/-- The parser stands at the lexer: its token is the one that the lexer reads next, and behind that
token the same remains for both. -/
structure StandsAt (p : Parser) (l : Lexer) : Prop where
  current : l.next.1 = .ok p.current
  behind : p.lexer.remaining = l.next.2.remaining

/-- A parser is made of the lexer's next token and what is left of the lexer. -/
theorem ofLexer_eq_ok_iff {limit : Nat} {l : Lexer} {p : Parser} :
    ofLexer limit l = .ok p ↔ p.limit = limit ∧ l.next = (.ok p.current, p.lexer) := by
  unfold ofLexer
  split
  next t l' hnext =>
    rw [hnext, Except.ok.injEq]
    constructor
    · rintro rfl
      exact ⟨rfl, rfl⟩
    · rintro ⟨rfl, h⟩
      simp only [Prod.mk.injEq, Except.ok.injEq] at h
      rw [h.1, h.2]
  next e l' hnext => simp [hnext]

/-- A parser is made where it stands. -/
theorem standsAt_of_ofLexer {limit : Nat} {l : Lexer} {p : Parser} (h : ofLexer limit l = .ok p) :
    p.StandsAt l ∧ p.limit = limit := by
  obtain ⟨hlimit, hnext⟩ := ofLexer_eq_ok_iff.mp h
  exact ⟨⟨by rw [hnext], by rw [hnext]⟩, hlimit⟩

/-- Where no parser can be made there is an error, and the lexer passes no more than blanks. -/
theorem scan_of_ofLexer {limit : Nat} {l : Lexer} {e : LexError} (h : ofLexer limit l = .error e) :
    Lexer.scan l.offset l.rest = .failed e ∧ l.next.2 = l.skipBlanks := by
  unfold ofLexer Lexer.next at h
  unfold Lexer.next
  cases hs : Lexer.scan l.offset l.rest with
  | failed e' =>
    simp only [hs, Except.error.injEq] at h
    rw [h]
    exact ⟨rfl, rfl⟩
  | atEnd stop => simp [hs] at h
  | token t rest stop => simp [hs] at h

namespace StandsAt

variable {p : Parser} {l : Lexer}

/-- What remains where a parser stands is its token and what is behind. -/
theorem remaining_of_ne (h : p.StandsAt l) (hp : p.current.kind ≠ .eof) :
    l.remaining = (p.current :: p.lexer.remaining.1, p.lexer.remaining.2) := by
  rw [h.behind]
  have hcurrent := h.current
  unfold Lexer.next at hcurrent ⊢
  cases hs : Lexer.scan l.offset l.rest with
  | failed e => simp [hs] at hcurrent
  | atEnd stop =>
    simp only [hs, Except.ok.injEq] at hcurrent
    rw [← hcurrent] at hp
    exact absurd rfl hp
  | token t rest stop =>
    simp only [hs, Except.ok.injEq] at hcurrent
    rw [Lexer.remaining_of_token hs, hcurrent]

/-- A parser whose token is the end of the source stands there. -/
theorem scan_of_eof (h : p.StandsAt l) (hp : p.current.kind = .eof) :
    ∃ stop, p.current = .eof stop ∧ Lexer.scan l.offset l.rest = .atEnd stop := by
  have hcurrent := h.current
  unfold Lexer.next at hcurrent
  cases hs : Lexer.scan l.offset l.rest with
  | failed e => simp [hs] at hcurrent
  | atEnd stop =>
    simp only [hs, Except.ok.injEq] at hcurrent
    exact ⟨stop, hcurrent.symm, rfl⟩
  | token t rest stop =>
    simp only [hs, Except.ok.injEq] at hcurrent
    rw [← hcurrent] at hp
    exact absurd hp (Lexer.kind_ne_eof_of_scan hs)

/-- A run concludes from the tokens that remain where the parser stands. -/
theorem result_run (h : p.StandsAt l) (s : State) (log : List Event) :
    (p.run s log).result = s.conclude p.limit l.remaining.2 l.remaining.1 := by
  fun_induction run p s log generalizing l with
  | case1 p log hp statement =>
    obtain ⟨stop, -, hs⟩ := h.scan_of_eof hp
    rw [Lexer.remaining_of_atEnd hs]
    rfl
  | case2 p log hp s hs =>
    obtain ⟨stop, hstop, hscan⟩ := h.scan_of_eof hp
    rw [Lexer.remaining_of_atEnd hscan, hstop]
    cases s with
    | complete statement => exact absurd rfl (hs statement)
    | _ => rfl
  | case3 p s log hp hstep =>
    rw [h.remaining_of_ne hp]
    simp only [State.conclude, hstep]
  | case4 p s log hp s' hstep e hadvance =>
    rw [h.remaining_of_ne hp, Lexer.remaining_of_failed (scan_of_ofLexer hadvance).1]
    simp only [State.conclude, hstep]
  | case5 p s log hp s' hstep q hadvance ih =>
    obtain ⟨hq, hlimit⟩ := standsAt_of_ofLexer hadvance
    rw [h.remaining_of_ne hp, ih hq, hlimit]
    simp only [State.conclude, hstep]

end StandsAt

end Parser

/-- Parsing a source is a run over the tokens it holds, up to its end or its first lexical
error. -/
theorem parseWithin_eq_conclude (limit : Nat) (source : String) :
    parseWithin limit source =
      Parser.State.start.conclude limit (Lexer.ofSource source).remaining.2
        (Lexer.ofSource source).remaining.1 := by
  unfold parseWithin parseLogged
  cases hp : Parser.ofLexer limit (.ofSource source) with
  | error e =>
    rw [Lexer.remaining_of_failed (Parser.scan_of_ofLexer hp).1]
    rfl
  | ok p =>
    obtain ⟨hstands, rfl⟩ := Parser.standsAt_of_ofLexer hp
    exact hstands.result_run .start []

/-- A source is parsed exactly when it can be split into tokens and these lead to a statement. -/
theorem parseWithin_eq_ok_iff {limit : Nat} {source : String} {statement : Statement} :
    parseWithin limit source = .ok statement ↔
      Parser.State.start.run? limit (Lexer.ofSource source).remaining.1 =
          some (.complete statement) ∧
        ∃ offset, (Lexer.ofSource source).remaining.2 = .ok offset := by
  rw [parseWithin_eq_conclude, Parser.State.conclude_eq_ok_iff]

/-- What has been computed from the statement of a source shows that there is one. -/
theorem exists_parseWithin_eq_ok {α : Type} {limit : Nat} {source : String} {f : Statement → α}
    {a : α} (h : (parseWithin limit source).toOption.map f = some a) :
    ∃ s, parseWithin limit source = .ok s ∧ f s = a := by
  cases hs : parseWithin limit source with
  | error e =>
    rw [hs] at h
    cases h
  | ok s =>
    rw [hs] at h
    exact ⟨s, rfl, Option.some.inj h⟩

/-- The tokens of a source are those that remain at its beginning, and the end, unless there is an
error. -/
theorem tokenize_eq (source : String) :
    tokenize source =
      match (Lexer.ofSource source).remaining.2 with
      | .ok offset => .ok ((Lexer.ofSource source).remaining.1 ++ [.eof offset])
      | .error e => .error e := by
  unfold tokenize Lexer.finish
  simp only [show (Lexer.ofSource source).ended = false from rfl, Bool.false_eq_true, ite_false]
  rcases (Lexer.ofSource source).remaining with ⟨tokens, _ | _⟩ <;> rfl

/-- A source is split into tokens if these end where it ends. -/
theorem tokenize_eq_ok_iff {source : String} {tokens : List Token} :
    tokenize source = .ok tokens ↔
      ∃ offset, (Lexer.ofSource source).remaining.2 = .ok offset ∧
        tokens = (Lexer.ofSource source).remaining.1 ++ [.eof offset] := by
  rw [tokenize_eq]
  cases (Lexer.ofSource source).remaining.2 <;> simp [eq_comm]

/-- A source is not split into tokens if these end with an error. -/
theorem tokenize_eq_error_iff {source : String} {e : LexError} :
    tokenize source = .error e ↔ (Lexer.ofSource source).remaining.2 = .error e := by
  rw [tokenize_eq]
  cases (Lexer.ofSource source).remaining.2 <;> simp

end SelectQuery
