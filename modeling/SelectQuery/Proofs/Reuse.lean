import SelectQuery.Proofs.Displacement
import SelectQuery.Proofs.Limit

/-!
# Parsing again

A parser may be called again and again, whatever the calls before have come to. Every call is the
first call on a new parser for what is left of the source, at the place where the call before has
stopped (`Parser.parse_after`). For this a parser need only be known to stand somewhere in the
source (`Parser.StandsIn`), which every run preserves: it stops at one of its tokens, whether that
token is wrong, the one behind it cannot be read, or the source is at its end.
-/

namespace SelectQuery

namespace Parser

/-- The parser behind so many calls. -/
def after (p : Parser) : Nat → Parser
  | 0 => p
  | k + 1 => p.parse.parser.after k

/-- Calls may be made in two portions. -/
theorem after_add (p : Parser) (j k : Nat) : p.after (j + k) = (p.after j).after k := by
  induction j generalizing p with
  | zero => rw [Nat.zero_add, after]
  | succ j ih => rw [Nat.succ_add, after, ih, after]

/-- One more call is made last. -/
theorem after_succ (p : Parser) (k : Nat) : p.after (k + 1) = (p.after k).parse.parser :=
  after_add p k 1

/-- The results of repeated calls are those of the parsers behind the calls. -/
theorem parseRepeatedly_eq_map (p : Parser) (n : Nat) :
    p.parseRepeatedly n = (List.range n).map fun k ↦ (p.after k).parse.result := by
  induction n generalizing p with
  | zero => rfl
  | succ n ih =>
    rw [parseRepeatedly, ih, List.range_succ_eq_map, List.map_cons, List.map_map]
    rfl

/-- The place at which a call stops that has come to the result: the token that is wrong, the last
token in front of the lexical error, or the end of the source. -/
def stop (source : String) : Except ParseError Statement → Nat
  | .ok _ => source.utf8ByteSize
  | .error (.syntactic e) => e.span.start
  | .error (.lexical _) =>
    match (Lexer.ofSource source).remaining.1.getLast? with
    | some t => t.span.start
    | none => 0

/-- The place from which the next call goes on behind so many calls. -/
def placeAfter (p : Parser) (source : String) : Nat → Nat
  | 0 => 0
  | k + 1 => stop source (p.after k).parse.result

end Parser

namespace Lexer

/-- Reading leads to another place of the source, also if there is no token to read. -/
theorem IsAt.next {l : Lexer} {source : String} (hl : l.IsAt source) : l.next.2.IsAt source := by
  unfold Lexer.next
  cases hs : scan l.offset l.rest with
  | token t rest offset => exact (hl.of_scan hs).1
  | atEnd offset => exact hl.skipBlanks
  | failed e => exact hl.skipBlanks

/-- The token that is read begins behind the blanks. -/
theorem start_of_next {l : Lexer} {t : Token} (h : l.next.1 = .ok t) :
    t.span.start = l.skipBlanks.offset := by
  unfold Lexer.next at h
  cases hs : scan l.offset l.rest with
  | failed e => simp [hs] at h
  | atEnd offset =>
    obtain ⟨hblank, rfl⟩ := scan_eq_atEnd_iff.mp hs
    simp only [hs, Except.ok.injEq] at h
    rw [← h, Lexer.skipBlanks, List.takeWhile_eq_self_iff.mpr hblank]
    rfl
  | token u rest offset =>
    simp only [hs, Except.ok.injEq] at h
    obtain ⟨hreads, ht, -⟩ := reads_of_scanLexeme hs
    obtain ⟨taken, -, -, -, hspan⟩ := hreads.exists_split ht
    rw [← h, hspan]
    rfl

/-- Passing blanks does not change what is read, nor what remains behind it. -/
theorem next_skipBlanks (l : Lexer) : l.skipBlanks.next.1 = l.next.1 ∧
    l.skipBlanks.next.2.remaining = l.next.2.remaining := by
  unfold Lexer.next
  rw [scan_skipBlanks]
  cases scan l.offset l.rest with
  | token t rest offset => exact ⟨rfl, rfl⟩
  | atEnd offset => exact ⟨rfl, remaining_skipBlanks _⟩
  | failed e => exact ⟨rfl, remaining_skipBlanks _⟩

end Lexer

namespace Parser

/-- The parser stands at its token in the source, and its lexer is somewhere behind. -/
structure StandsIn (source : String) (p : Parser) : Prop where
  lexer : p.lexer.IsAt source
  token : ∃ l, l.IsAt source ∧ p.StandsAt l ∧ l.offset = p.current.span.start ∧
    l.remaining.1 <:+ (Lexer.ofSource source).remaining.1

variable {source : String} {p : Parser}

/-- A parser that is made in the source stands there. -/
theorem standsIn_of_ofLexer {limit : Nat} {l : Lexer} (hl : l.IsAt source)
    (hsuffix : l.remaining.1 <:+ (Lexer.ofSource source).remaining.1)
    (h : ofLexer limit l = .ok p) : p.StandsIn source := by
  obtain ⟨-, hnext⟩ := ofLexer_eq_ok_iff.mp h
  obtain ⟨hcurrent, hbehind⟩ := l.next_skipBlanks
  rw [hnext] at hcurrent hbehind
  constructor
  case lexer =>
    have hlexer := hl.next
    rwa [hnext] at hlexer
  case token =>
    refine ⟨l.skipBlanks, hl.skipBlanks, ⟨hcurrent, hbehind.symm⟩, ?_, ?_⟩
    · exact (Lexer.start_of_next (by rw [hnext])).symm
    · rwa [Lexer.remaining_skipBlanks]

namespace StandsIn

private theorem advance {q : Parser} (h : p.StandsIn source) (hp : p.current.kind ≠ .eof)
    (hq : p.advance = .ok q) : q.StandsIn source := by
  obtain ⟨l, -, hstands, -, hsuffix⟩ := h.token
  have hremaining := hstands.remaining_of_ne hp
  refine standsIn_of_ofLexer h.lexer (List.IsSuffix.trans ?_ hsuffix) hq
  rw [hremaining]
  exact List.suffix_cons _ _

private theorem halt {e : LexError} (h : p.StandsIn source) (hp : p.advance = .error e) :
    p.halt.StandsIn source where
  lexer := h.lexer.next
  token := by
    obtain ⟨l, hl, hstands, hstart, hsuffix⟩ := h.token
    obtain ⟨-, hlexer⟩ := scan_of_ofLexer hp
    refine ⟨l, hl, ⟨hstands.current, ?_⟩, hstart, hsuffix⟩
    rw [← hstands.behind, Parser.halt, hlexer, Lexer.remaining_skipBlanks]

private theorem start_of_eof (h : p.StandsIn source) (hp : p.current.kind = .eof) :
    p.current.span.start = source.utf8ByteSize := by
  obtain ⟨l, hl, hstands, -, -⟩ := h.token
  obtain ⟨stop, hstop, hscan⟩ := hstands.scan_of_eof hp
  rw [hstop, ← hl.of_atEnd hscan]
  rfl

private theorem start_of_error {e : LexError} (h : p.StandsIn source) (hp : p.current.kind ≠ .eof)
    (hadvance : p.advance = .error e) :
    p.current.span.start = stop source (.error (.lexical e)) := by
  obtain ⟨l, -, hstands, -, front, hfront⟩ := h.token
  obtain ⟨hscan, -⟩ := scan_of_ofLexer hadvance
  rw [hstands.remaining_of_ne hp, Lexer.remaining_of_failed hscan] at hfront
  simp only [stop, ← hfront, List.getLast?_append, List.getLast?_singleton, Option.some_or]

/-- A run stops in the source, at the place that its result tells. -/
theorem run (h : p.StandsIn source) (s : State) (log : List Event) :
    (p.run s log).parser.StandsIn source ∧ (p.run s log).parser.limit = p.limit ∧
      (p.run s log).parser.current.span.start = stop source (p.run s log).result := by
  fun_induction Parser.run p s log with
  | case1 p log hp statement => exact ⟨h, rfl, h.start_of_eof hp⟩
  | case2 p log hp s hs => exact ⟨h, rfl, rfl⟩
  | case3 p s log hp hstep => exact ⟨h, rfl, rfl⟩
  | case4 p s log hp s' hstep e hadvance =>
    exact ⟨h.halt hadvance, rfl, h.start_of_error hp hadvance⟩
  | case5 p s log hp s' hstep q hadvance ih =>
    obtain ⟨-, hlimit⟩ := standsAt_of_ofLexer hadvance
    rw [← hlimit]
    exact ih (h.advance hp hadvance)

end StandsIn

/-- A call on a parser that stands in the source is the first call on a new parser for the rest of
the source. -/
theorem StandsAt.exists_fresh {l : Lexer} (h : p.StandsAt l) (hl : l.IsAt source) :
    ∃ front rest q, source = front ++ rest ∧ front.utf8ByteSize = l.offset ∧
      ofLexer p.limit (.ofSource rest) = .ok q ∧
      Replaced (.moved l.offset) q.parse.result p.parse.result := by
  obtain ⟨front, hsource, hoffset⟩ := hl
  have hrest : l.rest = (Lexer.ofSource (.ofList l.rest)).rest := String.toList_ofList.symm
  have hmoves : (Replacement.moved l.offset).Moves (Lexer.ofSource (.ofList l.rest)).offset
      l.offset := Replacement.moves_moved l.offset
  cases hq : ofLexer p.limit (.ofSource (.ofList l.rest)) with
  | error e =>
    -- Then the parser could not stand there either.
    have hscan := Lexer.scan_of_moves hmoves (Lexer.ofSource (.ofList l.rest)).rest
    have hcurrent := h.current
    rw [(scan_of_ofLexer hq).1, ← hrest] at hscan
    simp [Lexer.next, hscan, Lexer.Scan.replace] at hcurrent
  | ok q =>
    refine ⟨.ofList front, .ofList l.rest, q, ?_, ?_, hq, ?_⟩
    · rw [← String.toList_inj, hsource]
      simp
    · rw [Lexer.utf8ByteSize_ofList, hoffset]
    · obtain ⟨hstands, hlimit⟩ := standsAt_of_ofLexer hq
      have hresult := h.result_run .start []
      rw [Lexer.remaining_of_moves hmoves hrest, ← hlimit] at hresult
      rw [parse, parse, hstands.result_run, hresult]
      exact State.conclude_replace (.moved l.offset) q.limit _ .start _

private theorem standsAt_after {limit : Nat} (hp : ofLexer limit (.ofSource source) = .ok p)
    (k : Nat) : (p.after k).limit = limit ∧ (p.after k).StandsIn source ∧
      ∃ l, l.IsAt source ∧ (p.after k).StandsAt l ∧ l.offset = p.placeAfter source k := by
  induction k with
  | zero =>
    obtain ⟨hstands, hlimit⟩ := standsAt_of_ofLexer hp
    have hstart := Lexer.isAt_ofSource source
    exact ⟨hlimit, standsIn_of_ofLexer hstart List.suffix_rfl hp, _, hstart, hstands, rfl⟩
  | succ k ih =>
    obtain ⟨hlimit, hstands, -⟩ := ih
    obtain ⟨hstands', hlimit', hstart⟩ := hstands.run .start []
    obtain ⟨l, hl, hat, hoffset, -⟩ := hstands'.token
    rw [after_succ]
    exact ⟨hlimit'.trans hlimit, hstands', l, hl, hat, hoffset.trans hstart⟩

private theorem kind_of_result_run {s : State} {log : List Event} {statement : Statement}
    (h : (p.run s log).result = .ok statement) : (p.run s log).parser.current.kind = .eof := by
  fun_induction Parser.run p s log with
  | case1 p log hp statement => exact hp
  | case2 p log hp s hs => cases h
  | case3 p s log hp hstep => cases h
  | case4 p s log hp s' hstep e hadvance => cases h
  | case5 p s log hp s' hstep q hadvance ih => exact ih h

private theorem parse_of_eof (hp : p.current.kind = .eof) :
    p.parse =
      ⟨.error (.syntactic ⟨State.start.fault p.limit p.current, p.current.span⟩), p, []⟩ := by
  unfold parse Parser.run
  rw [dif_pos hp]
  rfl

private theorem after_of_eof (hp : p.current.kind = .eof) (k : Nat) : p.after k = p := by
  induction k with
  | zero => rfl
  | succ k ih => rw [after, parse_of_eof hp, ih]

private theorem result_ne_ok_of_lt {j k : Nat} (hjk : j < k) {s : Statement}
    (hj : (p.after j).parse.result = .ok s) (s' : Statement) :
    (p.after k).parse.result ≠ .ok s' := by
  have hp : (p.after (j + 1)).current.kind = .eof := by
    rw [after_succ]
    exact kind_of_result_run hj
  obtain ⟨i, rfl⟩ := Nat.exists_eq_add_of_le (Nat.succ_le_of_lt hjk)
  rw [after_add, after_of_eof hp, parse_of_eof hp]
  intro h
  cases h

private theorem prefix_log_run (p : Parser) (s : State) (log : List Event) :
    log.reverse <+: (p.run s log).log := by
  fun_induction Parser.run p s log with
  | case1 p log hp statement =>
    rw [List.reverse_cons]
    exact List.prefix_append _ _
  | case2 p log hp s hs => exact List.prefix_rfl
  | case3 p s log hp hstep => exact List.prefix_rfl
  | case4 p s log hp s' hstep e hadvance => exact List.prefix_rfl
  | case5 p s log hp s' hstep q hadvance ih =>
    refine List.IsPrefix.trans ?_ ih
    rw [List.reverse_append]
    exact List.prefix_append _ _

/-- The tokens that a call consumes. -/
def consumed (p : Parser) : List Token := p.parse.log.filterMap Event.consumed?

private theorem advance_halt {e : LexError} (h : p.advance = .error e) :
    p.halt.advance = .error e := by
  obtain ⟨hscan, hlexer⟩ := scan_of_ofLexer h
  unfold Parser.advance ofLexer Lexer.next
  simp only [halt, hlexer, Lexer.scan_skipBlanks, hscan]

private theorem parse_of_step? {s : State} (hp : p.current.kind ≠ .eof)
    (hstep : State.start.step? p.limit p.current = some s) :
    p.parse =
      match p.advance with
      | .error e => ⟨.error (.lexical e), p.halt, []⟩
      | .ok q => q.run s (consumption .start p.current q.current).reverse := by
  conv_lhs => unfold parse Parser.run
  simp only [hp, dite_false, hstep]
  split
  next e he => rw [he]; rfl
  next q hq => rw [hq, List.append_nil]

private theorem parse_of_consumed_eq_nil (hp : p.consumed = []) :
    p.parse.parser.parse.result = p.parse.result ∧ p.parse.parser.consumed = [] := by
  by_cases hkind : p.current.kind = .eof
  · have hparser : p.parse.parser = p := by rw [parse_of_eof hkind]
    rw [hparser]
    exact ⟨rfl, hp⟩
  cases hstep : State.start.step? p.limit p.current with
  | none =>
    have hparser : p.parse.parser = p := by
      unfold parse Parser.run
      simp only [hkind, dite_false, hstep]
    rw [hparser]
    exact ⟨rfl, hp⟩
  | some s =>
    cases hadvance : p.advance with
    | error e =>
      have hparse := parse_of_step? hkind hstep
      have hagain : p.halt.parse = _ := parse_of_step? hkind hstep
      rw [hadvance] at hparse
      rw [advance_halt hadvance] at hagain
      rw [hparse, consumed, hagain]
      exact ⟨rfl, rfl⟩
    | ok q =>
      have hlog := prefix_log_run q s (consumption .start p.current q.current).reverse
      have hmem : p.current ∈ p.consumed := by
        refine List.mem_filterMap.mpr ⟨.consumed p.current, ?_, rfl⟩
        rw [parse_of_step? hkind hstep, hadvance]
        exact hlog.subset (by simp [consumption])
      rw [hp] at hmem
      cases hmem

/-- A parser of a source may be called as often as one likes.

Each call is the first call on a new parser, under the same limit, for the rest of the source behind
the place where the call before has stopped, with all places moved by what is in front of it. No
nesting is carried over. At most one call succeeds; and when a call consumes no token, those behind
it come to the same. -/
theorem parse_after {limit : Nat} (hp : ofLexer limit (.ofSource source) = .ok p) :
    (∀ k, ∃ front rest q, source = front ++ rest ∧ front.utf8ByteSize = p.placeAfter source k ∧
      ofLexer limit (.ofSource rest) = .ok q ∧
      Replaced (.moved (p.placeAfter source k)) q.parse.result (p.after k).parse.result) ∧
    (∀ j k s s', (p.after j).parse.result = .ok s → (p.after k).parse.result = .ok s' → j = k) ∧
    (∀ k, (p.after k).consumed = [] → ∀ j, k ≤ j →
      (p.after j).parse.result = (p.after k).parse.result) := by
  refine ⟨fun k ↦ ?_, fun j k s s' hj hk ↦ ?_, fun k hk j hkj ↦ ?_⟩
  · obtain ⟨hlimit, -, l, hl, hstands, hoffset⟩ := standsAt_after hp k
    rw [← hlimit, ← hoffset]
    exact hstands.exists_fresh hl
  · rcases Nat.lt_trichotomy j k with hlt | heq | hlt
    · exact absurd hk (result_ne_ok_of_lt hlt hj s')
    · exact heq
    · exact absurd hj (result_ne_ok_of_lt hlt hk s)
  · have hsame : (p.after j).parse.result = (p.after k).parse.result ∧
        (p.after j).consumed = [] := by
      induction j, hkj using Nat.le_induction with
      | base => exact ⟨rfl, hk⟩
      | succ j hkj ih =>
        obtain ⟨hresult, hconsumed⟩ := parse_of_consumed_eq_nil ih.2
        rw [after_succ]
        exact ⟨hresult.trans ih.1, hconsumed⟩
    exact hsame.1

/-- A statement that breaks off, and another. -/
def brokenOff : String := "SELECT a SELECT b FROM t;"

/-- The parser at the first word of it. -/
def atBrokenOff : Parser :=
  ⟨1, ⟨.selectKw, "SELECT", ⟨0, 6⟩⟩, ⟨" a SELECT b FROM t;".toList, 6, false⟩⟩

/-- The second call finds the other statement, and those behind it find nothing. -/
theorem parse_after_brokenOff :
    ofLexer 1 (.ofSource brokenOff) = .ok atBrokenOff ∧
    (∃ front rest q, brokenOff = front ++ rest ∧ front.utf8ByteSize = 9 ∧
      ofLexer 1 (.ofSource rest) = .ok q ∧
      Replaced (.moved 9) q.parse.result (atBrokenOff.after 1).parse.result) ∧
    (atBrokenOff.after 1).parse.result.isOk ∧
    ∀ k, 2 ≤ k → (atBrokenOff.after k).parse.result =
      .error (.syntactic ⟨.missingStatement "EOF", ⟨25, 25⟩⟩) := by
  have hp : ofLexer 1 (.ofSource brokenOff) = .ok atBrokenOff := by decide +kernel
  have hplace : atBrokenOff.placeAfter brokenOff 1 = 9 := by decide +kernel
  have hlast : (atBrokenOff.after 2).parse.result =
      .error (.syntactic ⟨.missingStatement "EOF", ⟨25, 25⟩⟩) := by decide +kernel
  obtain ⟨hfresh, -, hidle⟩ := parse_after hp
  refine ⟨hp, ?_, by decide +kernel, fun k hk ↦ ?_⟩
  · have hsecond := hfresh 1
    rwa [hplace] at hsecond
  · rw [hidle 2 (by decide +kernel) k hk, hlast]

end Parser

end SelectQuery
