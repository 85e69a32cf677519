import SelectQuery.Proofs.Limit

/-!
# One token ahead

What a parse reports, event by event. `Event.trail` says in which order tokens are read and
consumed: each token is consumed once the one behind it has been read, and none is read before it
is needed for that. Every log is the trail of as many tokens as are consumed, with the statement
behind it if there is one (`exists_parseLogged_eq_trail`).
-/

namespace SelectQuery

namespace Event

/-- The token that was read, if that is what happened. -/
def lexed? : Event → Option Token
  | lexed t => some t
  | _ => none

/-- What reading the first of some tokens reports. Where there is none, the source ends or a
lexical error is met, and nothing is reported. -/
def reading (tokens : List Token) : List Event := tokens.head?.toList.map lexed

/-- What consuming the first `m` of some tokens reports, the first of which has been read before.
The token that opens a statement is reported once more. -/
def consuming (opening : Bool) : List Token → Nat → List Event
  | t :: tokens, m + 1 =>
    reading tokens ++ consumed t :: (if opening then [started t.span] else []) ++
      consuming false tokens m
  | _, _ => []

/-- What a parse reports that consumes the first `m` of the tokens of a source. -/
def trail (tokens : List Token) (m : Nat) : List Event :=
  reading tokens ++ consuming true tokens m

/-- What the end of a parse reports: the statement, if there is one. -/
def ofResult : Except ParseError Statement → List Event
  | .ok s => [finished s]
  | .error _ => []

/-- Consuming no token is reported by nothing. -/
@[simp] theorem consuming_zero (opening : Bool) (tokens : List Token) :
    consuming opening tokens 0 = [] := by
  cases tokens <;> rfl

/-- Tokens may be consumed in two portions, of which only the first can open a statement. -/
theorem consuming_add (opening : Bool) (tokens : List Token) (i n : Nat) :
    consuming opening tokens (i + n) =
      consuming opening tokens i ++ consuming (opening && i == 0) (tokens.drop i) n := by
  induction tokens generalizing opening i with
  | nil => cases i <;> simp [consuming]
  | cons t tokens ih =>
    cases i with
    | zero => simp
    | succ i =>
      rw [Nat.succ_add, consuming, ih, consuming]
      simp

private theorem lexed_consuming (opening : Bool) (tokens : List Token) (m : Nat) :
    (consuming opening tokens m).filterMap lexed? = tokens.tail.take m := by
  induction tokens generalizing opening m with
  | nil => simp [consuming]
  | cons t tokens ih =>
    cases m with
    | zero => simp
    | succ m => cases tokens <;> cases opening <;>
      simp_all [consuming, reading, lexed?, List.filterMap_cons]

private theorem consumed_consuming (opening : Bool) (tokens : List Token) (m : Nat) :
    (consuming opening tokens m).filterMap consumed? = tokens.take m := by
  induction tokens generalizing opening m with
  | nil => simp [consuming]
  | cons t tokens ih =>
    cases m with
    | zero => simp
    | succ m => cases tokens <;> cases opening <;>
      simp_all [consuming, reading, consumed?, List.filterMap_cons]

/-- Of the tokens one more is read than consumed, if there is one more. -/
theorem lexed_trail (tokens : List Token) (m : Nat) :
    (trail tokens m).filterMap lexed? = tokens.take (m + 1) := by
  rw [trail, List.filterMap_append, lexed_consuming]
  cases tokens <;> simp [reading, lexed?]

/-- A trail of `m` tokens reports the first `m` as consumed, in order. -/
theorem consumed_trail (tokens : List Token) (m : Nat) :
    (trail tokens m).filterMap consumed? = tokens.take m := by
  rw [trail, List.filterMap_append, consumed_consuming]
  cases tokens <;> simp [reading, consumed?]

/-- When a token is consumed, the one behind it has just been read, and those in front of it have
been consumed. -/
theorem exists_split_trail {tokens : List Token} {m i : Nat} {t : Token} (hi : i < m)
    (ht : tokens[i]? = some t) : ∃ front behind, trail tokens m = front ++ consumed t :: behind ∧
      front.filterMap lexed? = tokens.take (i + 2) ∧ front.filterMap consumed? = tokens.take i ∧
      (i = 0 → behind.head? = some (started t.span)) := by
  obtain ⟨n, rfl⟩ := Nat.exists_eq_add_of_lt hi
  obtain ⟨hlt, hget⟩ := List.getElem?_eq_some_iff.mp ht
  have hdrop : tokens.drop i = t :: tokens.drop (i + 1) := by
    rw [List.drop_eq_getElem_cons hlt, hget]
  refine ⟨trail tokens i ++ reading (tokens.drop (i + 1)),
    (if i = 0 then [started t.span] else []) ++ consuming false (tokens.drop (i + 1)) n,
    ?_, ?_, ?_, ?_⟩
  case refine_1 =>
    rw [trail, Nat.add_assoc, consuming_add, hdrop, consuming, trail]
    simp
  case refine_2 =>
    have hread : (reading (tokens.drop (i + 1))).filterMap lexed? =
        (tokens.drop (i + 1)).take 1 := by
      cases tokens.drop (i + 1) <;> rfl
    rw [List.filterMap_append, lexed_trail, hread, ← List.take_add]
  case refine_3 =>
    have hread : (reading (tokens.drop (i + 1))).filterMap consumed? = [] := by
      cases tokens.drop (i + 1) <;> rfl
    rw [List.filterMap_append, consumed_trail, hread, List.append_nil]
  case refine_4 =>
    rintro rfl
    rfl

/-- The records of the lexer are those of reading tokens. -/
theorem filter_lexed (log : List Event) :
    (log.map record).filter (fun r ↦ r.level = .trace ∧ r.target = "lexer") =
      (log.filterMap lexed?).map fun t ↦ ⟨.trace, "lexer", toString t⟩ := by
  induction log with
  | nil => rfl
  | cons e log ih => cases e <;> simp_all [record, lexed?, List.filterMap_cons]

/-- The records of the parser at the least level are those of consuming tokens. -/
theorem filter_consumed (log : List Event) :
    (log.map record).filter (fun r ↦ r.level = .trace ∧ r.target = "parser") =
      (log.filterMap consumed?).map fun t ↦ ⟨.trace, "parser", "Consumed " ++ toString t⟩ := by
  induction log with
  | nil => rfl
  | cons e log ih => cases e <;> simp_all [record, consumed?, List.filterMap_cons]

end Event

namespace Parser

private theorem consumption_eq (s : State) (t behind : Token) :
    consumption s t behind =
      Event.ofRead behind ++ .consumed t ::
        (if s = .start then [.started t.span] else []) := by
  cases s <;> rfl

private theorem State.ne_start_of_step? {limit : Nat} {s s' : State} {t : Token}
    (h : s.step? limit t = some s') : s' ≠ start := by
  rintro rfl
  unfold step? beginCondition? endCondition? at h
  repeat' split at h
  all_goals simp at h

namespace StandsAt

variable {p : Parser} {l : Lexer}

private theorem ofRead_current (h : p.StandsAt l) :
    Event.ofRead p.current = Event.reading l.remaining.1 := by
  by_cases hp : p.current.kind = .eof
  · obtain ⟨stop, -, hscan⟩ := h.scan_of_eof hp
    rw [Lexer.remaining_of_atEnd hscan, Event.ofRead, if_pos hp]
    rfl
  · rw [h.remaining_of_ne hp, Event.ofRead, if_neg hp]
    rfl

/-- A run goes on with the log by consuming some of the tokens that remain. If it ends with a syntax
error, this is at the token behind them. -/
theorem exists_log_run (h : p.StandsAt l) (s : State) (log : List Event) :
    ∃ m ≤ l.remaining.1.length,
      (p.run s log).log =
        log.reverse ++ Event.consuming (s = .start) l.remaining.1 m ++
          Event.ofResult (p.run s log).result ∧
      ∀ e, (p.run s log).result = .error (.syntactic e) →
        l.yielded.1[m]?.map Token.span = some e.span := by
  fun_induction run p s log generalizing l with
  | case1 p log hp statement =>
    refine ⟨0, Nat.zero_le _, by simp [Event.ofResult], ?_⟩
    intro e he
    cases he
  | case2 p log hp s hs =>
    refine ⟨0, Nat.zero_le _, by simp [Event.ofResult], ?_⟩
    intro e he
    cases he
    rw [h.yielded_of_eof hp]
    rfl
  | case3 p s log hp hstep =>
    refine ⟨0, Nat.zero_le _, by simp [Event.ofResult], ?_⟩
    intro e he
    cases he
    rw [h.yielded_of_ne hp]
    rfl
  | case4 p s log hp s' hstep e hadvance =>
    refine ⟨0, Nat.zero_le _, by simp [Event.ofResult], ?_⟩
    intro e he
    cases he
  | case5 p s log hp s' hstep q hadvance ih =>
    obtain ⟨hq, -⟩ := standsAt_of_ofLexer hadvance
    obtain ⟨m, hm, hlog, hspan⟩ := ih hq
    have hs' : decide (s' = .start) = false := decide_eq_false (State.ne_start_of_step? hstep)
    rw [hs'] at hlog
    refine ⟨m + 1, ?_, ?_, ?_⟩
    · rw [h.remaining_of_ne hp]
      exact Nat.succ_le_succ hm
    · rw [hlog, h.remaining_of_ne hp, Event.consuming, consumption_eq, hq.ofRead_current]
      simp
    · intro e he
      rw [h.yielded_of_ne hp, List.getElem?_cons_succ]
      exact hspan e he

end StandsAt

end Parser

/-- The log of a parse that consumes the first `m` of the tokens of a source, with one token of
lookahead. -/
structure Event.OneAhead (tokens : List Token) (m : Nat) (result : Except ParseError Statement)
    (log : List Event) : Prop where
  /-- The whole log. The statement is reported last, if there is one. -/
  eq_trail : log = trail tokens m ++ ofResult result
  /-- All that is consumed, in order. -/
  consumed : (log.map record).filter (fun r ↦ r.level = .trace ∧ r.target = "parser") =
    (tokens.take m).map fun t ↦ ⟨.trace, "parser", "Consumed " ++ toString t⟩
  /-- All that is read, in order: one more token, if there is one. -/
  read : (log.map record).filter (fun r ↦ r.level = .trace ∧ r.target = "lexer") =
    (tokens.take (m + 1)).map fun t ↦ ⟨.trace, "lexer", toString t⟩
  /-- What precedes the record of consuming a token: the one behind it has been read, and none
  behind that. -/
  ahead : ∀ i t, i < m → tokens[i]? = some t → ∃ front behind,
    log = front ++ .consumed t :: behind ∧ front.filterMap lexed? = tokens.take (i + 2) ∧
      front.filterMap consumed? = tokens.take i ∧
      (i = 0 → behind.head? = some (.started t.span))

/-- The log of a parse is a trail of some of the tokens, with the statement behind it if there is
one. -/
theorem exists_parseLogged_eq_trail (limit : Nat) (source : String) :
    ∃ m ≤ (Lexer.ofSource source).remaining.1.length,
      (parseLogged limit source).2 = Event.trail (Lexer.ofSource source).remaining.1 m ++
        Event.ofResult (parseLogged limit source).1 ∧
      ∀ e, (parseLogged limit source).1 = .error (.syntactic e) →
        (Lexer.ofSource source).yielded.1[m]?.map Token.span = some e.span := by
  unfold parseLogged
  cases hp : Parser.ofLexer limit (.ofSource source) with
  | error e =>
    rw [Lexer.remaining_of_failed (Parser.scan_of_ofLexer hp).1]
    refine ⟨0, Nat.le_refl _, rfl, ?_⟩
    intro e he
    cases he
  | ok p =>
    obtain ⟨hstands, -⟩ := Parser.standsAt_of_ofLexer hp
    obtain ⟨m, hm, hlog, hspan⟩ := hstands.exists_log_run .start []
    refine ⟨m, hm, ?_, hspan⟩
    dsimp only
    rw [hstands.ofRead_current, Parser.parse, hlog, Event.trail]
    simp

/-- Every parse keeps one token of lookahead, however it ends. There is a number of tokens, the end
of the source not among them, that it consumes; its log is the trail of these, with the statement
behind it if there is one. A syntax error is at the token behind those consumed. -/
theorem parseLogged_oneAhead (limit : Nat) (source : String) :
    ∃ m ≤ (Lexer.ofSource source).remaining.1.length,
      Event.OneAhead (Lexer.ofSource source).remaining.1 m (parseLogged limit source).1
        (parseLogged limit source).2 ∧
      ∀ e, (parseLogged limit source).1 = .error (.syntactic e) →
        (Lexer.ofSource source).yielded.1[m]?.map Token.span = some e.span := by
  obtain ⟨m, hm, hlog, hspan⟩ := exists_parseLogged_eq_trail limit source
  generalize (parseLogged limit source).1 = result at hlog hspan ⊢
  refine ⟨m, hm, ⟨hlog, ?consumed, ?read, ?ahead⟩, hspan⟩
  case consumed =>
    have hresult : (Event.ofResult result).filterMap Event.consumed? = [] := by
      cases result <;> rfl
    rw [Event.filter_consumed, hlog, List.filterMap_append, Event.consumed_trail, hresult,
      List.append_nil]
  case read =>
    have hresult : (Event.ofResult result).filterMap Event.lexed? = [] := by
      cases result <;> rfl
    rw [Event.filter_lexed, hlog, List.filterMap_append, Event.lexed_trail, hresult,
      List.append_nil]
  case ahead =>
    intro i t hi ht
    obtain ⟨front, behind, htrail, hread, hconsumed, hstarted⟩ := Event.exists_split_trail hi ht
    refine ⟨front, behind ++ Event.ofResult result, ?_, hread, hconsumed, ?_⟩
    · rw [hlog, htrail, List.append_assoc, List.cons_append]
    · intro hzero
      rw [List.head?_append, hstarted hzero, Option.some_or]

/-- The semicolon is read before `SELECT` is consumed, and then found to be wrong. -/
example : (parseLogged 1 "SELECT ;").2 =
    [.lexed ⟨.selectKw, "SELECT", ⟨0, 6⟩⟩, .lexed ⟨.semicolon, ";", ⟨7, 8⟩⟩,
      .consumed ⟨.selectKw, "SELECT", ⟨0, 6⟩⟩, .started ⟨0, 6⟩] := by
  decide +kernel

end SelectQuery
