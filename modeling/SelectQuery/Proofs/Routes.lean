import SelectQuery.Proofs.Arguments
import SelectQuery.Proofs.Dialogue
import SelectQuery.Proofs.Logging
import SelectQuery.Proofs.Trimming

/-!
# The ways to give a query

A query may be the input of the command, stand in a file that the input names, or be a line of a
session. What the command takes a text for depends on how the text begins and ends, and not on the
grammar. Still a query that is parsed is taken for nothing else, and it is answered with the same
text each way (`answered_of_parseWithin`).
-/

namespace SelectQuery.CommandLine

/-- The command ends well, and the text is all that it has written to the output stream. -/
def Ending.Shows (e : Ending) (text : String) : Prop :=
  e.status = 0 ∧ Output.stdout e.outputs = text

namespace Options

variable {o : Options} {query : String} {s : Statement}

/-- A statement as it is shown: below its outline if that is asked for. -/
def display (o : Options) (s : Statement) : String :=
  (if o.showOutline then s.outline ++ "\n" else "") ++ s.render ++ "\n"

/-- A statement that is accepted is displayed. -/
theorem stdout_report (o : Options) (s : Statement) :
    Output.stdout (o.report (.accepted s)) = o.display s := by
  rw [report, Output.stdout_append, display]
  split <;> simp [Output.stdout, Output.outLine, String.append_assoc]

/-- Statements that differ in places alone are displayed alike. -/
theorem display_of_bare {s' : Statement} (h : s'.bare = s.bare) : o.display s' = o.display s := by
  obtain ⟨houtline, hrender⟩ := outline_render_of_bare h
  rw [display, houtline, hrender, display]

/-- A query that is parsed is accepted, and the log goes to the error stream. -/
theorem exists_evaluate_eq (htokens : o.showTokens = false)
    (hquery : parseWithin o.limit query = .ok s) :
    ∃ log, o.evaluate query = (log, .accepted s) ∧ Output.stdout log = "" := by
  obtain ⟨log, hparse, hlog⟩ := o.exists_parseQuery_eq query
  refine ⟨log, ?_, hlog.stdout_eq⟩
  rw [evaluate, htokens, if_neg Bool.false_ne_true, hparse, hquery]
  rfl

/-- So it is answered by its display. -/
theorem stdout_answer (htokens : o.showTokens = false)
    (hquery : parseWithin o.limit query = .ok s) :
    Output.stdout (o.answer query) = o.display s := by
  obtain ⟨log, hevaluate, hlog⟩ := exists_evaluate_eq htokens hquery
  rw [answer, hevaluate, Output.stdout_append, hlog, stdout_report, String.empty_append]

end Options

section

variable {core source : String}

/-- A source with a core does not end as the name of a file does. -/
theorem namesFile_of_isCore (h : IsCore core source) : namesFile source = false := by
  obtain ⟨c, hlast, hc⟩ := h.getLast
  rw [← Bool.not_eq_true, namesFile, Text.endsWithLowered, List.isSuffixOf_iff_suffix]
  rintro ⟨front, hfront⟩
  have hlowered : (Text.lower source).toList = source.toList.map Text.lowerChar :=
    String.toList_ofList
  rw [hlowered] at hfront
  have hend := congrArg List.getLast? hfront
  rw [List.getLast?_map, hlast] at hend
  have hlower : Text.lowerChar c = 'l' := by simpa using hend.symm
  rcases hc with rfl | hc
  · revert hlower
    decide
  · rcases Lexer.isBlank_iff.mp hc with rfl | rfl | rfl | rfl <;> revert hlower <;> decide

/-- It does not begin as an option does. -/
theorem head_ne_of_isCore (h : IsCore core source) : source.toList.head? ≠ some '-' := by
  obtain ⟨c, hhead, hc⟩ := h.head
  rw [hhead]
  intro hdash
  rw [Option.some.inj hdash] at hc
  revert hc
  decide

/-- A line with a core is a query for the core, whatever white space follows. -/
theorem ofLine_of_isCore (h : IsCore core source) {feed : String}
    (hfeed : ∀ c ∈ feed.toList, Text.isWhiteSpace c) :
    Entry.ofLine (source ++ feed) = .query core := by
  have hfirst := h.first
  simp only [Entry.ofLine, h.trim_append hfeed]
  split
  next hnil => simp [hnil] at hfirst
  next hdot => simp [hdot] at hfirst
  next => rfl

end

/-- The command on given arguments does what the request they make asks for. -/
theorem run_eq {arguments : List String} {request : Request}
    (harguments : Request.ofArguments arguments = .ok request) (input : ByteArray)
    (read : String → Except ReadFailure ByteArray) :
    run arguments input read = .ok (request.run (textLines input) read) := by
  rw [run, harguments]
  rfl

private theorem evaluateInput_shows {o : Options} {input query : String} {s : Statement}
    {read : String → Except ReadFailure ByteArray} (htokens : o.showTokens = false)
    (hquery : parseWithin o.limit query = .ok s)
    (hinput : (if namesFile input then o.evaluateFile input (read input) else o.evaluate input) =
      o.evaluate query) :
    (evaluateInput o input read).Shows (o.display s) := by
  obtain ⟨log, hevaluate, -⟩ := Options.exists_evaluate_eq htokens hquery
  have hending : evaluateInput o input read = ⟨o.answer query, 0⟩ := by
    rw [evaluateInput, hinput, Options.answer, hevaluate]
    rfl
  rw [hending]
  exact ⟨rfl, Options.stdout_answer htokens hquery⟩

/-- The query is answered by the text, however it is given to the command. -/
structure Answered (o : Options) (query text : String)
    (read : String → Except ReadFailure ByteArray) : Prop where
  /-- It is read as the input behind complete options, and changes none. -/
  argument : ∀ (before after : List String) (o' : Options),
    Request.ofArguments before = .ok (.process o' none) →
    Request.ofArguments (before ++ after) = .ok (.process o none) →
    Request.ofArguments (before ++ query :: after) = .ok (.process o (some query))
  /-- As the input it is not the name of a file, and the command shows the text. -/
  inline : namesFile query = false ∧ ∀ (arguments : List String) (input : ByteArray),
    Request.ofArguments arguments = .ok (.process o (some query)) →
    ∃ e, run arguments input read = .ok e ∧ e.Shows text
  /-- The command shows the text as well if the input names a file that holds the query. -/
  file : ∀ (arguments : List String) (input : ByteArray) (file : String),
    Request.ofArguments arguments = .ok (.process o (some file)) → namesFile file →
    read file = .ok query.toUTF8 →
    ∃ e, run arguments input read = .ok e ∧ e.Shows text
  /-- As a line of a session it is a query, and the text is written between two prompts. The line
  may be the last, without a line feed, and any lines that do not end the session may precede. -/
  line : '\n' ∉ query.toList →
    ∀ (arguments lines : List String) (feed : String) (rest : ByteArray),
    Request.ofArguments arguments = .ok (.process o none) →
    (∀ line ∈ lines, '\n' ∉ line.toList ∧ Entry.ofLine (line ++ "\n") ≠ .leave) →
    feed = "\n" ∨ feed = "" ∧ rest = .empty →
    Entry.ofLine (query ++ feed) = .query (Text.trim query) ∧
      ∃ answer behind,
        run arguments ((String.join (lines.map (· ++ "\n"))).toUTF8 ++
            ((query ++ feed).toUTF8 ++ rest)) read =
          .ok ⟨.outLine Session.help ::
            (lines.flatMap (fun line ↦ Session.exchange o (line ++ "\n")) ++
              Session.prompt :: (answer ++ Session.prompt :: behind)), 0⟩ ∧
        Output.stdout answer = text

/-- Without `--tokens` a query that is parsed is answered alike however it is given: with its
outline, if that is asked for, and its text. -/
theorem answered_of_parseWithin {o : Options} (htokens : o.showTokens = false) {query : String}
    {s : Statement} (hquery : parseWithin o.limit query = .ok s)
    (read : String → Except ReadFailure ByteArray) :
    Answered o query (o.display s) read := by
  obtain ⟨core, s', hcore, hs', hbare⟩ := exists_core_of_parseWithin hquery
  constructor
  case argument =>
    intro before after o' hbefore hoptions
    exact Request.ofArguments_insert hbefore hoptions (head_ne_of_isCore hcore)
  case inline =>
    have hname := namesFile_of_isCore hcore
    refine ⟨hname, fun arguments input harguments ↦ ⟨_, run_eq harguments input read, ?_⟩⟩
    exact evaluateInput_shows htokens hquery (by rw [hname]; rfl)
  case file =>
    intro arguments input file harguments hname hread
    refine ⟨_, run_eq harguments input read, evaluateInput_shows htokens hquery ?_⟩
    rw [if_pos hname, hread, Options.evaluateFile, fromUTF8?_toUTF8]
  case line =>
    intro hfeedless arguments lines feed rest harguments hlines hfeed
    have hentry : Entry.ofLine (query ++ feed) = .query core := by
      apply ofLine_of_isCore hcore
      rcases hfeed with rfl | ⟨rfl, -⟩
      · exact List.forall_mem_singleton.mpr (by decide)
      · simp
    have hne : query ≠ "" := by
      rintro rfl
      obtain ⟨c, hhead, -⟩ := hcore.head
      cases hhead
    have hexchange : Session.exchange o (query ++ feed) = Session.prompt :: o.answer core := by
      rw [Session.exchange, hentry, Session.respond]
    obtain ⟨behind, hrun⟩ := Session.exists_run_eq o hlines hfeedless hne hfeed (by simp [hentry])
    refine ⟨by rw [hentry, hcore.trim], o.answer core, behind, ?_, ?_⟩
    · rw [run_eq harguments, Request.run, hrun, hexchange, List.cons_append]
    · rw [Options.stdout_answer htokens hs', Options.display_of_bare hbare]

/-- A query with blanks around it and the ending of a file name in it. -/
def blanksAround : String := "\t SELECT a FROM t WHERE NOT (b = \".sql\") ; \r"

/-- The files are one that holds the query. -/
def readBlanksAround (file : String) : Except ReadFailure ByteArray :=
  if file = "query.SQL" then .ok blanksAround.toUTF8 else .error .notFound

/-- The query is answered alike as an input between options, from the file, and as the last line of
a session behind a request for help. -/
theorem answered_of_parseWithin_blanksAround :
    let shown := "SELECT([a], t, NOT(Compare(b = \".sql\")))\n" ++
      "SELECT a FROM t WHERE NOT b = \".sql\"\n"
    namesFile blanksAround = false ∧
      (∃ e, run ["--ast", blanksAround, "--max-depth=3"] .empty readBlanksAround = .ok e ∧
        e.Shows shown) ∧
      (∃ e, run ["--ast", "--max-depth", "3", "query.SQL"] .empty readBlanksAround = .ok e ∧
        e.Shows shown) ∧
      ∃ answer behind,
        run ["--max-depth=3", "--ast"] (".help\n".toUTF8 ++ blanksAround.toUTF8) readBlanksAround =
          .ok ⟨[.outLine Session.help, Session.prompt, .outLine Session.help, Session.prompt] ++
            (answer ++ Session.prompt :: behind), 0⟩ ∧
        Output.stdout answer = shown := by
  intro shown
  obtain ⟨s, hs, hshown⟩ : ∃ s, parseWithin 3 blanksAround = .ok s ∧
      Options.display ⟨false, true, false, 3⟩ s = shown :=
    exists_parseWithin_eq_ok (by decide +kernel)
  have hanswered := answered_of_parseWithin rfl hs readBlanksAround (o := ⟨false, true, false, 3⟩)
  rw [hshown] at hanswered
  refine ⟨hanswered.inline.1, ?_, ?_, ?_⟩
  · apply hanswered.inline.2
    exact hanswered.argument ["--ast"] ["--max-depth=3"] _ rfl rfl
  · exact hanswered.file _ _ _ rfl (by decide) rfl
  · obtain ⟨-, answer, behind, hrun, hanswer⟩ := hanswered.line (by decide)
      ["--max-depth=3", "--ast"] [".help"] "" .empty rfl (by decide) (.inr ⟨rfl, rfl⟩)
    rw [String.append_empty, ByteArray.append_empty] at hrun
    exact ⟨answer, behind, hrun, hanswer⟩

end SelectQuery.CommandLine
