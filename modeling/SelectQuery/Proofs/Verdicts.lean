import SelectQuery.Proofs.Kinds
import SelectQuery.Proofs.Routes

/-!
# What is shown, and what is decided

A query given to the command is accepted or rejected under its limit, whatever is to be shown
besides (`run_reports`). Under `--tokens` it is split into tokens before it is parsed. Nothing
else is accepted on that account, for a source that cannot be split cannot be parsed either; but
the error may be another one than the parser meets first (`exists_error_of_tokenize`).
-/

namespace SelectQuery

/-- Where the tokens that remain end with an error, they stand in front of it. -/
theorem Lexer.stop_le_position {l : Lexer} {e : LexError} (h : l.remaining.2 = .error e) :
    l.offset ≤ e.position ∧ ∀ t ∈ l.remaining.1, t.span.stop ≤ e.position := by
  induction l using scan_induction with
  | failed l e' hs =>
    obtain ⟨lead, text', -, -, hrejects⟩ := scan_eq_failed_iff.mp hs
    rw [remaining_of_failed hs] at h ⊢
    obtain rfl := Except.error.inj h
    refine ⟨?_, by simp⟩
    cases hrejects <;> simp only [LexError.position] <;> omega
  | atEnd l stop hs =>
    rw [remaining_of_atEnd hs] at h
    cases h
  | token l t rest stop hs ih =>
    obtain ⟨lead, text', -, -, hreads, ht, -⟩ := scan_eq_token_iff.mp hs
    obtain ⟨taken, -, -, rfl, hspan⟩ := hreads.exists_split ht
    rw [remaining_of_token hs] at h ⊢
    obtain ⟨hstop, hrest⟩ := ih h
    dsimp only at hstop
    refine ⟨by omega, List.forall_mem_cons.mpr ⟨?_, hrest⟩⟩
    rw [hspan]
    exact hstop

/-- A source that cannot be split into tokens cannot be parsed under any limit. The parser meets
the same error, or before it a token that it cannot take. -/
theorem exists_error_of_tokenize (limit : Nat) {source : String} {e : LexError}
    (h : tokenize source = .error e) :
    ∃ err, parseWithin limit source = .error err ∧
      (err = .lexical e ∨ ∃ fault span, err = .syntactic ⟨fault, span⟩ ∧
        span.start < span.stop ∧ span.stop ≤ e.position) := by
  have hending := tokenize_eq_error_iff.mp h
  cases hresult : parseWithin limit source with
  | ok s =>
    obtain ⟨-, offset, hoffset⟩ := parseWithin_eq_ok_iff.mp hresult
    rw [hending] at hoffset
    cases hoffset
  | error err =>
    refine ⟨err, rfl, ?_⟩
    rw [parseWithin_eq_conclude] at hresult
    -- The run fails at a token, at the end of the source, which is not reached, or behind all
    -- tokens with the lexical error.
    rcases Parser.State.conclude_eq_error hresult with
      ⟨front, t, rest, s, htokens, -, -, rfl⟩ | ⟨s, offset, -, hoffset, -⟩ | ⟨s, e', -, he', rfl⟩
    · have ht : t ∈ (Lexer.ofSource source).remaining.1 := by simp [htokens]
      exact .inr ⟨_, _, rfl, ((Lexer.remaining_within _).1 t ht).1,
        (Lexer.stop_le_position hending).2 t ht⟩
    · rw [hending] at hoffset
      cases hoffset
    · rw [hending] at he'
      exact .inl (congrArg ParseError.lexical (Except.error.inj he').symm)

namespace CommandLine

namespace Options

variable {o : Options} {query : String}

/-- The tokens as they are shown, if they are. -/
def table (o : Options) (tokens : List Token) : String :=
  if o.showTokens then tokenTable tokens ++ "\n" else ""

/-- The tokens of a query that can be split are shown first, and its parsing decides. -/
theorem exists_evaluate_of_tokens {tokens : List Token} (h : tokenize query = .ok tokens) :
    ∃ shown, o.evaluate query = (shown, .ofResult (parseWithin o.limit query)) ∧
      o.Logs shown (o.table tokens) := by
  obtain ⟨logged, hparse, hlogged⟩ := o.exists_parseQuery_eq query
  unfold evaluate table
  rw [h, hparse]
  cases o.showTokens with
  | false => exact ⟨logged, rfl, hlogged⟩
  | true =>
    have htable : o.Logs [.outLine (tokenTable tokens)] (tokenTable tokens ++ "\n") :=
      ⟨by simp [Output.stdout, Output.outLine], fun _ ↦ rfl⟩
    refine ⟨_, rfl, ?_⟩
    have hshown := htable.append hlogged
    rwa [String.append_empty] at hshown

/-- A query that cannot be split is rejected, with the lexical error if its tokens were to be
shown, and otherwise with the error that the parser meets. -/
theorem exists_evaluate_of_lexError {e : LexError} {err : ParseError}
    (h : tokenize query = .error e) (hparse : parseWithin o.limit query = .error err) :
    ∃ logged, o.evaluate query =
        (logged, .rejected (if o.showTokens then .lexical e else err)) ∧
      o.Logs logged "" := by
  obtain ⟨logged, hquery, hlogged⟩ := o.exists_parseQuery_eq query
  unfold evaluate
  rw [h, hquery, hparse]
  cases o.showTokens with
  | false => exact ⟨logged, rfl, hlogged⟩
  | true => exact ⟨[], rfl, rfl, fun _ ↦ rfl⟩

end Options

/-- The input gives the query: it is the query itself, or it names a file that holds it. -/
inductive Gives (read : String → Except ReadFailure ByteArray) : String → String → Prop where
  | inline {query : String} : namesFile query = false → Gives read query query
  | file {file query : String} {bytes : ByteArray} : namesFile file → read file = .ok bytes →
      String.fromUTF8? bytes = some query → Gives read file query

namespace Ending

/-- The command ends with the status, and has written the one text to the output stream and the
other to the error stream, behind its log. The log is empty if it is not to be verbose. -/
structure Writes (e : Ending) (o : Options) (status : Nat) (shown said : String) : Prop where
  status_eq : e.status = status
  stdout_eq : Output.stdout e.outputs = shown
  stderr_eq : ∃ logged, (o.verbose = false → logged = "") ∧
    Output.stderr e.outputs = logged ++ said

/-- How the command ends with a query, by what splitting and parsing it give. -/
inductive Reports (e : Ending) (o : Options) (query : String) : Prop where
  /-- Of a query that is parsed, the tokens and the statement are written. -/
  | accepted {tokens : List Token} {s : Statement} : tokenize query = .ok tokens →
      parseWithin o.limit query = .ok s →
      e.Writes o 0 (o.table tokens ++ o.display s) "" → Reports e o query
  /-- Of a query that can be split but not parsed, the tokens and the error are written. -/
  | rejected {tokens : List Token} {err : ParseError} : tokenize query = .ok tokens →
      parseWithin o.limit query = .error err →
      e.Writes o 1 (o.table tokens) (err.message ++ "\n") → Reports e o query
  /-- Of a query that cannot be split, an error alone is written: the lexical one if the tokens
  were to be shown, and otherwise the parser's. The two differ only by a syntax error in front. -/
  | unsplit {lexical : LexError} {err : ParseError} : tokenize query = .error lexical →
      parseWithin o.limit query = .error err →
      (err = .lexical lexical ∨ ∃ fault span, err = .syntactic ⟨fault, span⟩ ∧
        span.start < span.stop ∧ span.stop ≤ lexical.position) →
      e.Writes o 1 "" ((if o.showTokens then .lexical lexical else err).message ++ "\n") →
      Reports e o query

/-- Then it ends well exactly if the query is parsed. -/
theorem Reports.status_eq_zero_iff {e : Ending} {o : Options} {query : String}
    (h : e.Reports o query) : e.status = 0 ↔ ∃ s, parseWithin o.limit query = .ok s := by
  cases h with
  | accepted htokens hresult hwrites => simp [hwrites.status_eq, hresult]
  | rejected htokens hresult hwrites => simp [hwrites.status_eq, hresult]
  | unsplit htokens hresult hbefore hwrites => simp [hwrites.status_eq, hresult]

/-- What is written of a query that is parsed. -/
theorem Reports.writes_of_ok {e : Ending} {o : Options} {query : String} {s : Statement}
    (h : e.Reports o query) (hs : parseWithin o.limit query = .ok s) :
    ∃ tokens, tokenize query = .ok tokens ∧ e.Writes o 0 (o.table tokens ++ o.display s) "" := by
  cases h with
  | accepted htokens hresult hwrites =>
    rw [hs] at hresult
    obtain rfl := Except.ok.inj hresult
    exact ⟨_, htokens, hwrites⟩
  | rejected htokens hresult hwrites =>
    rw [hs] at hresult
    cases hresult
  | unsplit htokens hresult hbefore hwrites =>
    rw [hs] at hresult
    cases hresult

/-- What is written of a query that cannot be split. -/
theorem Reports.writes_of_lexError {e : Ending} {o : Options} {query : String}
    {lexical : LexError} {err : ParseError} (h : e.Reports o query)
    (hlexical : tokenize query = .error lexical) (herr : parseWithin o.limit query = .error err) :
    e.Writes o 1 "" ((if o.showTokens then .lexical lexical else err).message ++ "\n") := by
  cases h with
  | accepted htokens hresult hwrites =>
    rw [hlexical] at htokens
    cases htokens
  | rejected htokens hresult hwrites =>
    rw [hlexical] at htokens
    cases htokens
  | unsplit htokens hresult hbefore hwrites =>
    rw [hlexical] at htokens
    rw [herr] at hresult
    obtain rfl := Except.error.inj htokens
    obtain rfl := Except.error.inj hresult
    exact hwrites

end Ending

section

variable {o : Options} {input query : String} {read : String → Except ReadFailure ByteArray}

/-- An input is evaluated as the query that it gives. -/
theorem Gives.evaluateInput_eq (h : Gives read input query) :
    evaluateInput o input read =
      ⟨(o.evaluate query).1 ++ o.report (o.evaluate query).2,
        if (o.evaluate query).2.isAccepted then 0 else 1⟩ := by
  cases h with
  | inline hname =>
    rw [evaluateInput, hname, if_neg Bool.false_ne_true]
  | file hname hread htext =>
    rw [evaluateInput, if_pos hname, hread, Options.evaluateFile]
    simp only [htext]

/-- What the evaluation has shown stands in front of the statement. -/
theorem Options.Logs.writes_accepted {shown : List Output} {text : String} {s : Statement}
    (hshown : o.Logs shown text) :
    Ending.Writes ⟨shown ++ o.report (.accepted s), 0⟩ o 0 (text ++ o.display s) "" where
  status_eq := rfl
  stdout_eq := by rw [Output.stdout_append, hshown.stdout_eq, Options.stdout_report]
  stderr_eq := by
    refine ⟨_, hshown.stderr_eq, ?_⟩
    have hreport : Output.stderr (o.report (.accepted s)) = "" := by
      rw [Options.report]
      cases o.showOutline <;> rfl
    rw [Output.stderr_append, hreport]

/-- What has been logged stands in front of the error. -/
theorem Options.Logs.writes_rejected {shown : List Output} {text : String} {err : ParseError}
    (hshown : o.Logs shown text) :
    Ending.Writes ⟨shown ++ o.report (.rejected err), 1⟩ o 1 text (err.message ++ "\n") where
  status_eq := rfl
  stdout_eq := by
    rw [Output.stdout_append, hshown.stdout_eq]
    exact String.append_empty
  stderr_eq := by
    refine ⟨_, hshown.stderr_eq, ?_⟩
    rw [Output.stderr_append]
    simp [Options.report, Output.stderr, Output.errLine]

/-- A query that is given to the command is reported. -/
theorem Gives.reports (h : Gives read input query) :
    (evaluateInput o input read).Reports o query := by
  rw [h.evaluateInput_eq]
  cases htokens : tokenize query with
  | ok tokens =>
    obtain ⟨shown, hevaluate, hshown⟩ := Options.exists_evaluate_of_tokens (o := o) htokens
    rw [hevaluate]
    cases hresult : parseWithin o.limit query with
    | ok s => exact .accepted htokens hresult hshown.writes_accepted
    | error err => exact .rejected htokens hresult hshown.writes_rejected
  | error lexical =>
    obtain ⟨err, hresult, hbefore⟩ := exists_error_of_tokenize o.limit htokens
    obtain ⟨logged, hevaluate, hlogged⟩ := Options.exists_evaluate_of_lexError htokens hresult
    rw [hevaluate]
    exact .unsplit htokens hresult hbefore hlogged.writes_rejected

/-- Whether the command accepts a query depends on the query and the limit alone. What it writes
besides is what the options ask for. -/
theorem run_reports {arguments : List String}
    (harguments : Request.ofArguments arguments = .ok (.process o (some input)))
    (hgives : Gives read input query) (stdin : ByteArray) :
    ∃ e, run arguments stdin read = .ok e ∧
      (e.status = 0 ↔ ∃ s, parseWithin o.limit query = .ok s) ∧ e.Reports o query :=
  ⟨_, run_eq harguments stdin read, hgives.reports.status_eq_zero_iff, hgives.reports⟩

end

/-- A query without columns, and with a character behind that begins no token. -/
def strayBehindNoColumns : String := "SELECT FROM t WHERE a ? 1;"

/-- The query is rejected whether its tokens are to be shown or not, but not with the same error. A
file with another query is accepted with everything shown. -/
theorem run_reports_strayBehindNoColumns :
    (∃ e, run (Options.arguments ⟨false, true, false, 2⟩ strayBehindNoColumns) .empty
        readBlanksAround = .ok e ∧
      e.Writes ⟨false, true, false, 2⟩ 1 ""
        "Syntax Error: Invalid syntax. Expected IDENTIFIER, received FROM. (Position [7,11])\n") ∧
    (∃ e, run (Options.arguments ⟨true, true, false, 2⟩ strayBehindNoColumns) .empty
        readBlanksAround = .ok e ∧
      e.Writes ⟨true, true, false, 2⟩ 1 ""
        "Lexer Error: Unidentified character '?' at position 22.\n") ∧
    ∃ e tokens, run (Options.arguments ⟨true, true, true, 3⟩ "query.SQL") .empty
        readBlanksAround = .ok e ∧
      tokenize blanksAround = .ok tokens ∧
      e.Writes ⟨true, true, true, 3⟩ 0
        (tokenTable tokens ++ "\n" ++ ("SELECT([a], t, NOT(Compare(b = \".sql\")))\n" ++
          "SELECT a FROM t WHERE NOT b = \".sql\"\n")) "" := by
  have hstray : tokenize strayBehindNoColumns = .error (.unexpectedCharacter '?' 22) := by
    decide +kernel
  have hcolumns : parseWithin 2 strayBehindNoColumns =
      .error (.syntactic ⟨.unexpectedToken "IDENTIFIER" "FROM", ⟨7, 11⟩⟩) := by
    decide +kernel
  have hinline : Gives readBlanksAround strayBehindNoColumns strayBehindNoColumns :=
    .inline (by decide)
  have hfile : Gives readBlanksAround "query.SQL" blanksAround :=
    .file (by decide) rfl (fromUTF8?_toUTF8 _)
  refine ⟨?_, ?_, ?_⟩
  · obtain ⟨e, hrun, -, hreports⟩ := run_reports
      (Request.ofArguments_arguments (o := ⟨false, true, false, 2⟩) (by decide) _) hinline .empty
    exact ⟨e, hrun, hreports.writes_of_lexError hstray hcolumns⟩
  · obtain ⟨e, hrun, -, hreports⟩ := run_reports
      (Request.ofArguments_arguments (o := ⟨true, true, false, 2⟩) (by decide) _) hinline .empty
    exact ⟨e, hrun, hreports.writes_of_lexError hstray hcolumns⟩
  · obtain ⟨s, hs, hdisplay⟩ : ∃ s, parseWithin 3 blanksAround = .ok s ∧
        Options.display ⟨true, true, true, 3⟩ s =
          "SELECT([a], t, NOT(Compare(b = \".sql\")))\n" ++
            "SELECT a FROM t WHERE NOT b = \".sql\"\n" :=
      exists_parseWithin_eq_ok (by decide +kernel)
    obtain ⟨e, hrun, -, hreports⟩ := run_reports
      (Request.ofArguments_arguments (o := ⟨true, true, true, 3⟩) (by decide) _) hfile .empty
    obtain ⟨tokens, htokens, hwrites⟩ := hreports.writes_of_ok hs
    rw [hdisplay] at hwrites
    exact ⟨e, tokens, hrun, htokens, hwrites⟩

end CommandLine

end SelectQuery
