import SelectQuery.Proofs.Routes

/-!
# The course of a session

The input of a session is cut behind each line feed, and there is one way to do so
(`cutIntoLines_iff`). A session takes one turn for each line up to the first that stops it, and one
for that line or for the end of the input (`Session.loop_eq`). No turn depends on other lines. So
lines that do not stop the session change nothing for later ones, and nothing behind the line that
stops it has any effect (`run_lineByLine`).
-/

namespace SelectQuery

namespace Text

/-- Nothing but a dot is lowered to a dot. -/
theorem eq_dot_of_lowerChar {c : Char} (h : lowerChar c = '.') : c = '.' := by
  unfold lowerChar at h
  split at h
  · cases h
  · unfold Char.toLower at h
    split at h
    next hupper =>
      have hlow : (65 : UInt32) ≤ c.val := hupper.1
      have hhigh : c.val ≤ 90 := hupper.2
      have hlowered : c.val + 32 = 46 := congrArg Char.val h
      grind
    next => exact h

/-- A text whose first word begins with a dot once it is lowered begins with a dot itself. -/
theorem head_of_lower_splitWord {text : String}
    (h : (lower (splitWord text).1).toList.head? = some '.') : text.toList.head? = some '.' := by
  rw [lower, splitWord, String.toList_ofList, String.toList_ofList, List.head?_map,
    List.head?_takeWhile] at h
  obtain ⟨c, hc, hlowered⟩ := Option.map_eq_some_iff.mp h
  rw [eq_dot_of_lowerChar hlowered] at hc
  exact (Option.filter_eq_some_iff.mp hc).1

end Text

namespace CommandLine

/-- The lines are what the bytes are cut into behind each line feed. -/
structure CutIntoLines (bytes : List UInt8) (lines : List (List UInt8)) : Prop where
  flatten_eq : lines.flatten = bytes
  ne_nil : ∀ line ∈ lines, line ≠ []
  /-- A line feed ends its line. -/
  feed_not_mem : ∀ line ∈ lines, 10 ∉ line.dropLast
  /-- Only the last line may end otherwise. -/
  getLast?_eq : ∀ line ∈ lines.dropLast, line.getLast? = some 10

namespace CutIntoLines

variable {bytes line rest : List UInt8} {lines : List (List UInt8)}

/-- An empty input has no lines. -/
theorem nil : CutIntoLines [] [] := ⟨rfl, by simp, by simp, by simp⟩

/-- Bytes without a line feed are one line, which lacks its end. -/
theorem last (h : 10 ∉ line) (hne : line ≠ []) : CutIntoLines line [line] where
  flatten_eq := by simp
  ne_nil := List.forall_mem_singleton.mpr hne
  feed_not_mem := List.forall_mem_singleton.mpr fun hmem ↦ h (List.dropLast_subset line hmem)
  getLast?_eq := by simp

/-- Bytes up to a line feed are a line, in front of the lines of the rest. -/
theorem cons (h : 10 ∉ line) (hrest : CutIntoLines rest lines) :
    CutIntoLines (line ++ 10 :: rest) ((line ++ [10]) :: lines) where
  flatten_eq := by simp [hrest.flatten_eq]
  ne_nil := List.forall_mem_cons.mpr ⟨by simp, hrest.ne_nil⟩
  feed_not_mem := List.forall_mem_cons.mpr ⟨by simpa using h, hrest.feed_not_mem⟩
  getLast?_eq := by
    cases lines with
    | nil => simp
    | cons next lines => exact List.forall_mem_cons.mpr ⟨by simp, hrest.getLast?_eq⟩

/-- The lines behind the first are cut as they would be without it. -/
theorem tail (h : CutIntoLines bytes (line :: lines)) : CutIntoLines lines.flatten lines where
  flatten_eq := rfl
  ne_nil := (List.forall_mem_cons.mp h.ne_nil).2
  feed_not_mem := (List.forall_mem_cons.mp h.feed_not_mem).2
  getLast?_eq := by
    cases lines with
    | nil => simp
    | cons next lines => exact (List.forall_mem_cons.mp h.getLast?_eq).2

/-- The lines are those that are read one by one. -/
theorem eq_byteLines (h : CutIntoLines bytes lines) : lines = byteLines bytes := by
  induction lines generalizing bytes with
  | nil => rw [← h.flatten_eq, List.flatten_nil, byteLines]
  | cons line lines ih =>
    obtain hnil | ⟨front, b, hline⟩ := List.eq_nil_or_concat line
    · exact absurd hnil (h.ne_nil line (by simp))
    rw [List.concat_eq_append] at hline
    subst hline
    have hfront : 10 ∉ front := by simpa using h.feed_not_mem (front ++ [b]) (by simp)
    by_cases hb : b = 10
    · rw [← h.flatten_eq, List.flatten_cons, hb, List.append_assoc, List.singleton_append,
        byteLines_append hfront, ← ih h.tail]
    · cases lines with
      | nil =>
        have hline : 10 ∉ front ++ [b] := by simp [hfront, Ne.symm hb]
        rw [← h.flatten_eq, List.flatten_singleton, byteLines_last hline (by simp)]
      | cons next lines =>
        -- A line with others behind it ends with a line feed.
        have hfeed := h.getLast?_eq (front ++ [b]) (by simp)
        rw [List.getLast?_concat] at hfeed
        exact absurd (Option.some.inj hfeed) hb

end CutIntoLines

/-- The lines that are read one by one are what the bytes are cut into. -/
theorem cutIntoLines_byteLines (bytes : List UInt8) : CutIntoLines bytes (byteLines bytes) := by
  by_cases hfeed : 10 ∈ bytes
  · obtain ⟨line, rest, hbytes, hline⟩ := List.eq_append_cons_of_mem hfeed
    rw [hbytes, byteLines_append hline]
    exact .cons hline (cutIntoLines_byteLines rest)
  · by_cases hne : bytes = []
    · rw [hne, byteLines]
      exact .nil
    · rw [byteLines_last hfeed hne]
      exact .last hfeed hne
termination_by bytes.length
decreasing_by
  rw [hbytes, List.length_append, List.length_cons]
  omega

/-- There is one way to cut bytes into lines. -/
theorem cutIntoLines_iff {bytes : List UInt8} {lines : List (List UInt8)} :
    CutIntoLines bytes lines ↔ lines = byteLines bytes := by
  refine ⟨CutIntoLines.eq_byteLines, ?_⟩
  rintro rfl
  exact cutIntoLines_byteLines bytes

/-- Whether bytes are cut into lines is decided by cutting them. -/
instance (bytes : List UInt8) (lines : List (List UInt8)) : Decidable (CutIntoLines bytes lines) :=
  decidable_of_iff _ cutIntoLines_iff.symm

/-- The text of a line, if its bytes are valid. -/
def lineText? (line : List UInt8) : Option String := String.fromUTF8? line.toByteArray

/-- Two commands are to leave, whatever follows them. -/
theorem Entry.ofCommand_eq_leave_iff {text : String} :
    ofCommand text = .leave ↔
      Text.lower (Text.splitWord text).1 = ".exit" ∨
        Text.lower (Text.splitWord text).1 = ".quit" := by
  unfold ofCommand
  dsimp only
  split
  next hleave => simpa using hleave
  next hstay =>
    simp only [Bool.or_eq_true, decide_eq_true_eq] at hstay
    refine iff_of_false ?_ hstay
    split_ifs <;> exact not_false

namespace Session

/-- Whether a text asks to leave. Its first word, trimmed and lowered, decides. -/
def asksToLeave (text : String) : Bool :=
  let word := Text.lower (Text.splitWord (Text.trim text)).1
  word = ".exit" || word = ".quit"

/-- A line stops the session if it is not valid text or asks to leave. -/
def stops (line : List UInt8) : Bool := (lineText? line).all asksToLeave

/-- The answer to a line, or to the end of the input. -/
def answer (o : Options) (line? : Option (List UInt8)) : List Output :=
  (react o (line?.map lineText?)).1

/-- A turn of the session: the prompt, and the answer to what is read. -/
def turn (o : Options) (line? : Option (List UInt8)) : List Output := prompt :: answer o line?

/-- The last words of a session, by the line that stops it, if one does. -/
def lastWords : Option (List UInt8) → String
  | none => "\n"
  | some line => if (lineText? line).isSome then "Goodbye.\n" else ""

/-- All that a session writes: what it says about itself, a turn for each line up to the first that
stops it, and a turn for that line or for the end of the input. -/
def transcript (o : Options) (lines : List (List UInt8)) : List Output :=
  .outLine help :: ((lines.takeWhile (!stops ·)).flatMap (fun line ↦ turn o (some line)) ++
    turn o (lines.find? stops))

variable {o : Options}

/-- A text that asks to leave is a command, though only its first word has been looked at. -/
theorem asksToLeave_iff {text : String} : asksToLeave text ↔ Entry.ofLine text = .leave := by
  have hcommand : asksToLeave text ↔ Entry.ofCommand (Text.trim text) = .leave := by
    rw [Entry.ofCommand_eq_leave_iff, asksToLeave]
    simp only [Bool.or_eq_true, decide_eq_true_eq]
  have hdot (h : asksToLeave text) : (Text.trim text).toList.head? = some '.' := by
    apply Text.head_of_lower_splitWord
    rw [hcommand, Entry.ofCommand_eq_leave_iff] at h
    rcases h with hword | hword <;> rw [hword] <;> rfl
  unfold Entry.ofLine
  dsimp only
  split
  next hnil =>
    refine iff_of_false (fun h ↦ ?_) Entry.noConfusion
    have hhead := hdot h
    rw [hnil] at hhead
    cases hhead
  next => exact hcommand
  next hother =>
    refine iff_of_false (fun h ↦ ?_) Entry.noConfusion
    obtain ⟨rest, hrest⟩ := List.head?_eq_some_iff.mp (hdot h)
    exact hother rest hrest

/-- A session goes on behind a line that is text and does not ask to leave. -/
theorem stops_eq_false_iff {line : List UInt8} :
    stops line = false ↔ ∃ text, lineText? line = some text ∧ Entry.ofLine text ≠ .leave := by
  rw [stops]
  cases lineText? line with
  | none => simp
  | some text => simp [← asksToLeave_iff]

/-- The answer to a line and whether the session goes on depend on that line alone. -/
theorem react_line (o : Options) (line : List UInt8) :
    react o (some (lineText? line)) = (answer o (some line), !stops line) := by
  rw [answer, Option.map_some, stops]
  cases lineText? line with
  | none => rfl
  | some text =>
    have hstays : decide (Entry.ofLine text ≠ .leave) = !asksToLeave text := by
      rw [Bool.eq_iff_iff]
      simp [← asksToLeave_iff]
    rw [Option.all_some, ← hstays, react]

/-- A session takes its turns one behind the other, up to the line that stops it. -/
theorem loop_eq (o : Options) (lines : List (List UInt8)) :
    loop o (lines.map lineText?) =
      (lines.takeWhile (!stops ·)).flatMap (fun line ↦ turn o (some line)) ++
        turn o (lines.find? stops) := by
  induction lines with
  | nil => rfl
  | cons line lines ih =>
    rw [List.map_cons, loop, react_line]
    dsimp only
    cases hstops : stops line with
    | true =>
      rw [List.takeWhile_cons_of_neg (by simp [hstops]), List.find?_cons_of_pos hstops]
      simp [turn]
    | false =>
      rw [List.takeWhile_cons_of_pos (by simp [hstops]),
        List.find?_cons_of_neg (by simp [hstops]), ih]
      simp [turn]

/-- A session over the lines of an input has their transcript. -/
theorem run_textLines (o : Options) {input : ByteArray} {lines : List (List UInt8)}
    (h : CutIntoLines input.toList lines) : run o (textLines input) = transcript o lines := by
  rw [h.eq_byteLines, transcript, ← loop_eq]
  rfl

/-- Where a session stops it says its last words. -/
theorem stdout_answer_of_stops {line? : Option (List UInt8)} (h : ∀ line ∈ line?, stops line) :
    Output.stdout (answer o line?) = lastWords line? := by
  cases line? with
  | none => rfl
  | some line =>
    have hline := h line rfl
    rw [stops] at hline
    rw [answer, Option.map_some, lastWords]
    cases htext : lineText? line with
    | none => exact Output.stdout_map_ofRecord _
    | some text =>
      rw [htext, Option.all_some, asksToLeave_iff] at hline
      rw [react, hline]
      rfl

/-- A turn writes the prompt and then its answer. -/
theorem stdout_turn (line? : Option (List UInt8)) :
    Output.stdout (turn o line?) = "> " ++ Output.stdout (answer o line?) :=
  Output.stdout_cons_out _ _

/-- What a session writes is the help, then each answer behind its prompt, up to the line that stops
it. -/
theorem stdout_transcript (o : Options) (lines : List (List UInt8)) :
    Output.stdout (transcript o lines) =
      help ++ "\n" ++ .join ((lines.takeWhile (!stops ·)).map fun line ↦
        "> " ++ Output.stdout (answer o (some line))) ++
          ("> " ++ lastWords (lines.find? stops)) := by
  have hlast : Output.stdout (turn o (lines.find? stops)) =
      "> " ++ lastWords (lines.find? stops) := by
    rw [stdout_turn, stdout_answer_of_stops fun line hline ↦ List.find?_some hline]
  rw [transcript, Output.outLine, Output.stdout_cons_out, Output.stdout_append,
    Output.stdout_flatMap, hlast]
  simp only [stdout_turn, String.append_assoc]

/-- Behind lines that do not stop it a session goes on as if it began there. -/
theorem transcript_append {before : List (List UInt8)} (h : ∀ line ∈ before, stops line = false)
    (after : List (List UInt8)) :
    ∃ outputs, transcript o after = .outLine help :: outputs ∧
      transcript o (before ++ after) =
        .outLine help :: (before.flatMap (fun line ↦ turn o (some line)) ++ outputs) := by
  refine ⟨_, rfl, ?_⟩
  have hall : ∀ line ∈ before, (!stops line) = true := fun line hline ↦ by simp [h line hline]
  have hnone : before.find? stops = none :=
    List.find?_eq_none.mpr fun line hline ↦ by simp [h line hline]
  rw [transcript, List.takeWhile_append_of_pos hall, List.flatMap_append, List.append_assoc,
    List.find?_append, hnone, Option.none_or]

/-- Behind a line that stops it nothing is taken up. -/
theorem transcript_behind (o : Options) {line : List UInt8} (h : stops line)
    (before after after' : List (List UInt8)) :
    transcript o (before ++ line :: after) = transcript o (before ++ line :: after') := by
  have hnone (rest : List (List UInt8)) : (line :: rest).takeWhile (!stops ·) = [] :=
    List.takeWhile_cons_of_neg (by simp [h])
  simp only [transcript, List.takeWhile_append, hnone, List.find?_append,
    List.find?_cons_of_pos h]

/-- A session is held line by line: how it goes with an input that is cut into the lines, and how
that compares with other inputs. What it comes to with each input is given by `hold`. -/
structure LineByLine (o : Options) (hold : ByteArray → Except UsageError Ending)
    (input : ByteArray) (lines : List (List UInt8)) : Prop where
  /-- There is no other way to cut the input behind each line feed. -/
  cut : ∀ lines', CutIntoLines input.toList lines' ↔ lines' = lines
  /-- The session ends well, and has written its transcript. -/
  hold_eq : hold input = .ok ⟨transcript o lines, 0⟩
  /-- Each line up to the first that stops the session has a prompt and an answer to it alone. -/
  stdout_eq : Output.stdout (transcript o lines) =
    help ++ "\n" ++ .join ((lines.takeWhile (!stops ·)).map fun line ↦
      "> " ++ Output.stdout (answer o (some line))) ++
        ("> " ++ lastWords (lines.find? stops))
  /-- Lines that do not ask to leave, be they empty, unknown commands or queries that cannot be
  parsed, change nothing for later ones. These are answered as in a session that begins with
  them. -/
  later : ∀ (before after : List (List UInt8)) (input' : ByteArray), lines = before ++ after →
    (∀ line ∈ before, ∃ text, lineText? line = some text ∧ Entry.ofLine text ≠ .leave) →
    CutIntoLines input'.toList after →
    ∃ outputs, hold input' = .ok ⟨.outLine help :: outputs, 0⟩ ∧
      transcript o lines =
        .outLine help :: (before.flatMap (fun line ↦ turn o (some line)) ++ outputs)
  /-- Nothing behind a line that stops the session has any effect. -/
  behind : ∀ (before after after' : List (List UInt8)) (line : List UInt8) (input' : ByteArray),
    lines = before ++ line :: after → stops line →
    CutIntoLines input'.toList (before ++ line :: after') → hold input' = hold input

end Session

/-- A command without an input holds a session, in which each line is answered on its own. -/
theorem run_lineByLine {arguments : List String} {o : Options}
    (harguments : Request.ofArguments arguments = .ok (.process o none))
    (read : String → Except ReadFailure ByteArray) (input : ByteArray) :
    ∃ lines, Session.LineByLine o (run arguments · read) input lines := by
  have hrun {input : ByteArray} {lines : List (List UInt8)}
      (h : CutIntoLines input.toList lines) :
      run arguments input read = .ok ⟨Session.transcript o lines, 0⟩ := by
    rw [run_eq harguments, Request.run, Session.run_textLines o h]
  have hinput := hrun (cutIntoLines_byteLines input.toList)
  refine ⟨_, fun _ ↦ cutIntoLines_iff, hinput, Session.stdout_transcript o _, ?later, ?behind⟩
  case later =>
    intro before after input' hlines hbefore hafter
    have hstays : ∀ line ∈ before, Session.stops line = false := fun line hline ↦
      Session.stops_eq_false_iff.mpr (hbefore line hline)
    obtain ⟨outputs, houtputs, hall⟩ := Session.transcript_append (o := o) hstays after
    rw [hlines]
    exact ⟨outputs, by rw [hrun hafter, houtputs], hall⟩
  case behind =>
    intro before after after' line input' hlines hstops hinput'
    rw [hrun hinput', hinput, hlines, Session.transcript_behind o hstops]

/-- Lines that change nothing: a blank one, an unknown command, and a query that nests too deeply
for a limit of one. -/
def troubled : List (List UInt8) :=
  ["\t \n", ".nope\n", "SELECT a FROM t WHERE NOT a = 1;\n"].map (·.toUTF8.toList)

/-- A query and a request to leave. -/
def parting : List (List UInt8) :=
  [" SELECT a FROM t;\r\n", ".Exit now\n"].map (·.toUTF8.toList)

/-- The session stops where it is asked to, and bytes behind that are not even valid text do not
count. Without the troubled lines it goes on as it did behind them. -/
theorem run_lineByLine_troubled :
    let hold := (run ["--ast", "--max-depth=1"] · fun _ ↦ .error .notFound)
    ∃ e outputs, hold (troubled ++ parting).flatten.toByteArray = .ok e ∧
      e.Shows (Session.help ++ "\n> > Error! Command not recognised. Try .help\n> " ++
        "> SELECT([a], t)\nSELECT a FROM t\n> Goodbye.\n") ∧
      hold (troubled ++ parting ++ [[0xff]]).flatten.toByteArray = .ok e ∧
      hold parting.flatten.toByteArray = .ok ⟨.outLine Session.help :: outputs, 0⟩ ∧
      e.outputs = .outLine Session.help :: ([Session.prompt, Session.prompt,
        .outLine "Error! Command not recognised. Try .help", Session.prompt,
        .errLine "Syntax Error: Maximum recursion depth reached. (Position [26,27])"] ++
          outputs) := by
  intro hold
  have harguments : Request.ofArguments ["--ast", "--max-depth=1"] =
      .ok (.process ⟨false, true, false, 1⟩ none) := rfl
  obtain ⟨lines, hheld⟩ := run_lineByLine harguments (fun _ ↦ .error .notFound)
    (troubled ++ parting).flatten.toByteArray
  obtain rfl : troubled ++ parting = lines := (hheld.cut _).mp (by decide +kernel)
  have hstays : ∀ line ∈ troubled, Session.stops line = false := by decide +kernel
  obtain ⟨outputs, hparting, hall⟩ := hheld.later troubled parting parting.flatten.toByteArray rfl
    (fun line hline ↦ Session.stops_eq_false_iff.mp (hstays line hline)) (by decide +kernel)
  refine ⟨_, outputs, hheld.hold_eq, ⟨rfl, ?shown⟩, ?behind, hparting, ?later⟩
  case shown =>
    rw [hheld.stdout_eq]
    decide +kernel
  case behind =>
    rw [← hheld.hold_eq]
    exact hheld.behind (troubled ++ [" SELECT a FROM t;\r\n".toUTF8.toList]) [] [[0xff]]
      ".Exit now\n".toUTF8.toList _ rfl (by decide +kernel) (by decide +kernel)
  case later =>
    have hturns : troubled.flatMap (fun line ↦
        Session.turn ⟨false, true, false, 1⟩ (some line)) =
          [Session.prompt, Session.prompt, .outLine "Error! Command not recognised. Try .help",
            Session.prompt, .errLine
              "Syntax Error: Maximum recursion depth reached. (Position [26,27])"] := by
      decide +kernel
    rw [← hturns]
    exact hall

end CommandLine

end SelectQuery
