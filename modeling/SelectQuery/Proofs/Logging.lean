import SelectQuery.CommandLine.Evaluation

/-!
# What is logged of a query

While a query is parsed nothing is written but the log, which goes to the error stream. Nothing in
it is as important as a warning, so a log that is not verbose is empty (`exists_parseQuery_eq`).
-/

namespace SelectQuery

/-- What happens while a query is parsed is logged below the level of a warning. -/
theorem Event.rank_record_lt (e : Event) : e.record.level.rank < LogLevel.warn.rank := by
  cases e <;> simp [record, LogLevel.rank]

namespace CommandLine

namespace Output

/-- What two outputs write to the standard output is what each of them writes. -/
theorem stdout_append (outputs outputs' : List Output) :
    stdout (outputs ++ outputs') = stdout outputs ++ stdout outputs' := by
  rw [stdout, List.map_append, String.join_append]
  rfl

/-- A text is written in front of what follows it. -/
theorem stdout_cons_out (text : String) (outputs : List Output) :
    stdout (out text :: outputs) = text ++ stdout outputs := by
  rw [stdout, List.map_cons, String.join_cons]
  rfl

/-- What is written for several items is what is written for each of them. -/
theorem stdout_flatMap {α : Type} (items : List α) (f : α → List Output) :
    stdout (items.flatMap f) = .join (items.map fun item ↦ stdout (f item)) := by
  induction items with
  | nil => rfl
  | cons item items ih =>
    rw [List.flatMap_cons, stdout_append, ih, List.map_cons, String.join_cons]

/-- What two outputs write to the standard error is what each of them writes. -/
theorem stderr_append (outputs outputs' : List Output) :
    stderr (outputs ++ outputs') = stderr outputs ++ stderr outputs' := by
  rw [stderr, List.map_append, String.join_append]
  rfl

/-- What only goes to the error stream leaves the output stream empty. -/
theorem stdout_map_ofRecord (records : List LogRecord) : stdout (records.map ofRecord) = "" := by
  induction records with
  | nil => rfl
  | cons r records ih =>
    rw [stdout, List.map_cons, List.map_cons, String.join_cons]
    exact ih

end Output

/-- The verdict on a query by the result of parsing it. -/
def Verdict.ofResult : Except ParseError Statement → Verdict
  | .ok s => accepted s
  | .error e => rejected e

/-- The outputs write the text to the output stream, and to the error stream what is logged if
that is asked for. -/
structure Options.Logs (o : Options) (outputs : List Output) (text : String) : Prop where
  stdout_eq : Output.stdout outputs = text
  stderr_eq : o.verbose = false → Output.stderr outputs = ""

namespace Options

variable {o : Options}

/-- A log starts above the levels at which a query is parsed, unless a verbose one is asked for. -/
theorem log_eq_nil (hverbose : o.verbose = false) {records : List LogRecord}
    (h : ∀ r ∈ records, r.level.rank < LogLevel.warn.rank) : o.log records = [] := by
  rw [log, List.map_eq_nil_iff, List.filter_eq_nil_iff]
  intro r hr
  have hlt := h r hr
  simp only [logLevel, hverbose, LogLevel.reaches, decide_eq_true_eq]
  exact Nat.not_le.mpr hlt

/-- A log below the level of warnings writes no text. -/
theorem logs_log {records : List LogRecord}
    (h : ∀ r ∈ records, r.level.rank < LogLevel.warn.rank) : o.Logs (o.log records) "" where
  stdout_eq := Output.stdout_map_ofRecord _
  stderr_eq hverbose := by
    rw [log_eq_nil hverbose h]
    rfl

/-- Two outputs that log write their texts one behind the other. -/
theorem Logs.append {outputs outputs' : List Output} {text text' : String}
    (h : o.Logs outputs text) (h' : o.Logs outputs' text') :
    o.Logs (outputs ++ outputs') (text ++ text') where
  stdout_eq := by rw [Output.stdout_append, h.stdout_eq, h'.stdout_eq]
  stderr_eq hverbose := by
    rw [Output.stderr_append, h.stderr_eq hverbose, h'.stderr_eq hverbose, String.append_empty]

/-- Parsing a query decides on it, and writes nothing but the log. -/
theorem exists_parseQuery_eq (o : Options) (query : String) :
    ∃ logged, o.parseQuery query = (logged, .ofResult (parseWithin o.limit query)) ∧
      o.Logs logged "" := by
  have hevents : o.Logs (o.log ((parseLogged o.limit query).2.map Event.record)) "" := by
    apply logs_log
    intro r hr
    obtain ⟨event, -, rfl⟩ := List.mem_map.mp hr
    exact event.rank_record_lt
  have hresult : (parseLogged o.limit query).1 = parseWithin o.limit query := rfl
  rw [parseQuery]
  dsimp only
  rw [hresult]
  cases parseWithin o.limit query with
  | ok s => exact ⟨_, rfl, hevents⟩
  | error e =>
    have hfailure : o.Logs
        (o.log [⟨.debug, "selectql::repl", "Parse failed: " ++ e.detail⟩]) "" :=
      logs_log (List.forall_mem_singleton.mpr (Nat.lt_succ_self _))
    exact ⟨_, rfl, hevents.append hfailure⟩

end Options

end CommandLine

end SelectQuery
