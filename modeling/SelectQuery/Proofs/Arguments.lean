import SelectQuery.CommandLine.Run

/-!
# The place of the input

The input may stand anywhere among the other arguments, as long as no limit is awaited where it
stands. The options are then read as they are without it (`Request.ofArguments_insert`). Behind
`--` any input can be given, with any options (`Request.ofArguments_arguments`).
-/

namespace SelectQuery.CommandLine

/-- The reading with another input. -/
def Reading.withInput (r : Reading) (input : String) : Reading := { r with input? := some input }

namespace Progress

/-- The progress with another input in the reading. -/
def withInput (input : String) : Progress → Progress
  | more r => more (r.withInput input)
  | done request => done request
  | failed e => failed e

/-- Under way, the input stands in the reading. -/
@[simp] theorem withInput_more (input : String) (r : Reading) :
    (more r).withInput input = more (r.withInput input) := rfl

/-- A failure has no room for an input. -/
@[simp] theorem withInput_failed (input : String) (e : UsageError) :
    (failed e).withInput input = failed e := rfl

/-- The input is put into the case that applies. -/
@[simp] theorem withInput_ite (input : String) (c : Prop) [Decidable c] (p q : Progress) :
    (if c then p else q).withInput input = if c then p.withInput input else q.withInput input := by
  split <;> rfl

end Progress

/-- An operand is the argument as it is. -/
theorem Argument.eq_of_ofString {text operand : String}
    (h : Argument.ofString text = .operand operand) : operand = text := by
  unfold ofString at h
  split at h
  · cases h
  · dsimp only at h
    split at h <;> cases h
  · cases h
  · exact (Argument.operand.inj h).symm

/-- An argument that does not begin with a dash is an operand. -/
theorem Argument.ofString_of_head {text : String} (h : text.toList.head? ≠ some '-') :
    Argument.ofString text = .operand text := by
  unfold ofString
  split
  next htext => simp [htext] at h
  next htext => simp [htext] at h
  next htext => simp [htext] at h
  next => rfl

namespace Reading

variable {r : Reading} {o : Options} {input? : Option String}

/-- The input has no part in whether a limit is awaited. -/
@[simp] theorem awaitingLimit_withInput (r : Reading) (input : String) :
    (r.withInput input).awaitingLimit = r.awaitingLimit := rfl

/-- The input has no part in whether only operands follow. -/
@[simp] theorem onlyOperands_withInput (r : Reading) (input : String) :
    (r.withInput input).onlyOperands = r.onlyOperands := rfl

/-- Of two inputs the last is kept. -/
theorem withInput_withInput (r : Reading) (input input' : String) :
    (r.withInput input).withInput input' = r.withInput input' := rfl

private theorem takeLimit_withInput (r : Reading) (value input : String) :
    (r.withInput input).takeLimit value = (r.takeLimit value).withInput input := by
  simp only [takeLimit, withInput, Progress.withInput_ite, Progress.withInput_failed]
  cases readLimit? value <;> rfl

private theorem takeVerbose_withInput (r : Reading) (input : String) :
    (r.withInput input).takeVerbose = r.takeVerbose.withInput input := by
  simp only [takeVerbose, Progress.withInput_ite]
  rfl

private theorem takeLetters_withInput (r : Reading) (letters : List Char) (input : String) :
    (r.withInput input).takeLetters letters = (r.takeLetters letters).withInput input := by
  fun_induction takeLetters r letters with
  | case1 r => rfl
  | case2 r => rfl
  | case3 r => rfl
  | case4 r letters r' hr ih =>
    rw [takeLetters, takeVerbose_withInput, hr]
    exact ih
  | case5 r letters hr =>
    rw [takeLetters, takeVerbose_withInput]
    cases hv : r.takeVerbose with
    | more r' => exact absurd hv (hr r')
    | done request => rfl
    | failed e => rfl
  | case6 r c letters hh hV hv =>
    rw [takeLetters]
    · rfl
    · exact hh
    · exact hV
    · exact hv

private theorem takeLong_withInput (r : Reading) (name : String) (value? : Option String)
    (input : String) :
    (r.withInput input).takeLong name value? = (r.takeLong name value?).withInput input := by
  unfold takeLong
  split
  · exact takeLimit_withInput r _ input
  · rfl
  · rw [Progress.withInput_ite]
    rfl
  · rw [Progress.withInput_ite]
    rfl
  · exact takeVerbose_withInput r input
  · rfl
  · rfl
  · rw [Progress.withInput_ite]
    rfl
  · rfl

/-- An argument is taken as the input, or it is read whatever the input is. -/
theorem take_eq_takeInput_or (r : Reading) (text : String) :
    r.take text = r.takeInput text ∨
      ∀ input, (r.withInput input).take text = (r.take text).withInput input := by
  by_cases hawaiting : r.awaitingLimit
  · right
    intro input
    simp only [take, awaitingLimit_withInput, hawaiting, ite_true]
    split
    · exact takeLimit_withInput r _ input
    · rfl
  by_cases honly : r.onlyOperands
  · left
    rw [take, if_neg hawaiting, if_pos honly]
  cases hform : Argument.ofString text with
  | operand operand =>
    left
    rw [take, if_neg hawaiting, if_neg honly, hform, Argument.eq_of_ofString hform]
  | endOfOptions =>
    right
    intro input
    simp only [take, awaitingLimit_withInput, onlyOperands_withInput, hawaiting, honly, hform]
    rfl
  | long name value? =>
    right
    intro input
    simp only [take, awaitingLimit_withInput, onlyOperands_withInput, hawaiting, honly, hform]
    exact takeLong_withInput r name value? input
  | letters letters =>
    right
    intro input
    simp only [take, awaitingLimit_withInput, onlyOperands_withInput, hawaiting, honly, hform]
    exact takeLetters_withInput r letters input

private theorem takeInput_ne_done (r : Reading) (text : String) :
    r.takeInput text ≠ .done (.process o input?) := by
  unfold takeInput
  split <;> simp

private theorem takeLimit_ne_done (r : Reading) (value : String) :
    r.takeLimit value ≠ .done (.process o input?) := by
  unfold takeLimit
  split
  · simp
  · split <;> simp

private theorem takeVerbose_ne_done (r : Reading) :
    r.takeVerbose ≠ .done (.process o input?) := by
  unfold takeVerbose
  split <;> simp

private theorem takeLetters_ne_done (r : Reading) (letters : List Char) :
    r.takeLetters letters ≠ .done (.process o input?) := by
  fun_induction takeLetters r letters with
  | case4 r letters r' hr ih => exact ih
  | case5 r letters hr => exact r.takeVerbose_ne_done
  | _ => simp

private theorem takeLong_ne_done (r : Reading) (name : String) (value? : Option String) :
    r.takeLong name value? ≠ .done (.process o input?) := by
  unfold takeLong
  split
  · exact r.takeLimit_ne_done _
  · simp
  · split <;> simp
  · split <;> simp
  · exact r.takeVerbose_ne_done
  · simp
  · simp
  · split <;> simp
  · simp

/-- Reading arguments ends early for the sake of help or the version alone. -/
theorem take_ne_done (r : Reading) (text : String) : r.take text ≠ .done (.process o input?) := by
  unfold take
  split
  · split
    · exact r.takeLimit_ne_done _
    · simp
  split
  · exact r.takeInput_ne_done text
  split
  · simp
  · exact r.takeLong_ne_done _ _
  · exact r.takeLetters_ne_done _
  · exact r.takeInput_ne_done _

/-- An argument that leads to a request to process leads on to the others first. -/
theorem exists_take_of_request {text : String} {texts : List String}
    (h : r.request (text :: texts) = .ok (.process o input?)) :
    ∃ r', r.take text = .more r' ∧ r'.request texts = .ok (.process o input?) := by
  rw [request] at h
  cases htake : r.take text with
  | more r' => exact ⟨r', rfl, by rwa [htake] at h⟩
  | done request =>
    rw [htake] at h
    rw [Except.ok.inj h] at htake
    exact absurd htake (r.take_ne_done text)
  | failed e =>
    rw [htake] at h
    cases h

/-- An input that has been taken is the input of the request. -/
theorem request_withInput {input : String} {texts : List String}
    (h : (r.withInput input).request texts = .ok (.process o input?)) : input? = some input := by
  induction texts generalizing r with
  | nil =>
    rw [request] at h
    split at h
    · cases h
    · exact (Request.process.inj (Except.ok.inj h)).2.symm
  | cons text texts ih =>
    obtain ⟨r', htake, hr'⟩ := exists_take_of_request h
    rcases (r.withInput input).take_eq_takeInput_or text with hinput | hcommute
    · rw [hinput] at htake
      cases htake
    · have hself := hcommute input
      rw [withInput_withInput, htake, Progress.withInput_more] at hself
      rw [Progress.more.inj hself] at hr'
      exact ih hr'

/-- Arguments that give no input give the same options behind one. -/
theorem request_behind_input {texts : List String} (input : String)
    (h : r.request texts = .ok (.process o none)) :
    (r.withInput input).request texts = .ok (.process o (some input)) := by
  induction texts generalizing r with
  | nil =>
    rw [request] at h
    split at h
    · cases h
    · rename_i hawaiting
      obtain ⟨rfl, -⟩ := Request.process.inj (Except.ok.inj h)
      rw [request, awaitingLimit_withInput, if_neg hawaiting]
      rfl
  | cons text texts ih =>
    obtain ⟨r', htake, hr'⟩ := exists_take_of_request h
    rcases r.take_eq_takeInput_or text with hinput | hcommute
    · -- The argument would be the input of the request, which has none.
      rw [hinput, takeInput] at htake
      split at htake
      · cases htake
      · rw [← Progress.more.inj htake] at hr'
        cases request_withInput hr'
    · rw [request, hcommute, htake]
      exact ih hr'

/-- What follows complete options is read from where they lead. -/
theorem exists_reading_of_request {texts : List String}
    (h : r.request texts = .ok (.process o input?)) :
    ∃ r' : Reading, r'.awaitingLimit = false ∧ r'.input? = input? ∧
      ∀ texts', r.request (texts ++ texts') = r'.request texts' := by
  induction texts generalizing r with
  | nil =>
    rw [request] at h
    split at h
    · cases h
    · rename_i hawaiting
      obtain ⟨-, hinput⟩ := Request.process.inj (Except.ok.inj h)
      exact ⟨r, Bool.eq_false_iff.mpr hawaiting, hinput, fun texts' ↦ rfl⟩
  | cons text texts ih =>
    obtain ⟨r₁, htake, hr₁⟩ := exists_take_of_request h
    obtain ⟨r', hawaiting, hinput, hrest⟩ := ih hr₁
    refine ⟨r', hawaiting, hinput, fun texts' ↦ ?_⟩
    rw [List.cons_append, request, htake]
    exact hrest texts'

/-- An operand is taken as the input where none has been given and no limit is awaited. -/
theorem take_of_head {input : String} (hawaiting : r.awaitingLimit = false)
    (hinput : r.input? = none) (hhead : input.toList.head? ≠ some '-') :
    r.take input = .more (r.withInput input) := by
  have htake : r.takeInput input = .more (r.withInput input) := by
    rw [takeInput, hinput]
    rfl
  rw [take, hawaiting, Argument.ofString_of_head hhead]
  cases r.onlyOperands <;> simp [htake]

end Reading

/-- An input that does not begin with a dash may be put behind complete options. It is the input of
the request then, which has the same options. -/
theorem Request.ofArguments_insert {before after : List String} {input : String} {o o' : Options}
    (hbefore : ofArguments before = .ok (.process o' none))
    (hoptions : ofArguments (before ++ after) = .ok (.process o none))
    (hhead : input.toList.head? ≠ some '-') :
    ofArguments (before ++ input :: after) = .ok (.process o (some input)) := by
  obtain ⟨r, hawaiting, hinput, hrest⟩ := Reading.exists_reading_of_request hbefore
  rw [ofArguments, hrest] at hoptions ⊢
  rw [Reading.request, Reading.take_of_head hawaiting hinput hhead]
  exact Reading.request_behind_input input hoptions

/-- Arguments that set all of the options and give an input. -/
def Options.arguments (o : Options) (input : String) : List String :=
  (if o.showTokens then ["--tokens"] else []) ++
    ((if o.showOutline then ["--ast"] else []) ++
      ((if o.verbose then ["--verbose"] else []) ++
        ["--max-depth", toString o.limit, "--", input]))

private theorem toList_toString (n : Nat) : (toString n).toList = Nat.toDigits 10 n :=
  Nat.toList_repr

private theorem isDigit_of_mem {n : Nat} {c : Char} (h : c ∈ Nat.toDigits 10 n) : c.isDigit :=
  Nat.isDigit_of_mem_toDigits (by decide) (by decide) h

/-- A number is read from its digits. -/
theorem readLimit?_toString {n : Nat} (h : n ≤ maxLimit) : readLimit? (toString n) = some n := by
  have hvalue : digitsValue (Nat.toDigits 10 n) = n :=
    Nat.ofDigitChars_toDigits (by decide) (by decide)
  have hempty : (Nat.toDigits 10 n).isEmpty = false :=
    List.isEmpty_eq_false_iff.mpr Nat.toDigits_ne_nil
  have hall : (Nat.toDigits 10 n).all Char.isDigit :=
    List.all_eq_true.mpr fun c hc ↦ isDigit_of_mem hc
  unfold readLimit?
  rw [toList_toString]
  split
  next digits hplus =>
    have hdigit : '+'.isDigit := isDigit_of_mem (n := n) (by simp [hplus])
    exact absurd hdigit (by decide)
  next => simp [hvalue, hempty, hall, h]

namespace Reading

variable {r r' : Reading} {texts : List String}

/-- An argument is taken, and then the rest. -/
theorem request_cons_of_more {text : String} (h : r.take text = .more r') :
    r.request (text :: texts) = r'.request texts := by
  rw [request, h]

private theorem request_flag {flag : String} {b : Bool} (set : Bool → Reading)
    (h : (set false).take flag = .more (set true)) :
    (set false).request ((if b then [flag] else []) ++ texts) = (set b).request texts := by
  cases b with
  | false => rfl
  | true => exact request_cons_of_more h

/-- A limit is taken from the argument that holds its value. -/
theorem take_toString {n : Nat} (hawaiting : r.awaitingLimit) (hlimit : r.limit? = none)
    (h : n ≤ maxLimit) :
    r.take (toString n) = .more { r with limit? := some n, awaitingLimit := false } := by
  have hhead : (toString n).toList.head? ≠ some '-' := by
    rw [toList_toString]
    intro hdash
    have hdigit : '-'.isDigit := isDigit_of_mem (List.mem_of_mem_head? hdash)
    exact absurd hdigit (by decide)
  rw [take, if_pos hawaiting, Argument.ofString_of_head hhead]
  simp only [takeLimit, hlimit, readLimit?_toString h]
  rfl

end Reading

/-- All options that there are can be asked for, with any input. -/
theorem Request.ofArguments_arguments {o : Options} (h : o.limit ≤ maxLimit) (input : String) :
    ofArguments (o.arguments input) = .ok (.process o (some input)) := by
  refine (Reading.request_flag (fun b ↦ ⟨b, false, false, none, none, false, false⟩) rfl).trans ?_
  refine (Reading.request_flag
    (fun b ↦ ⟨o.showTokens, b, false, none, none, false, false⟩) rfl).trans ?_
  refine (Reading.request_flag
    (fun b ↦ ⟨o.showTokens, o.showOutline, b, none, none, false, false⟩) rfl).trans ?_
  rw [Reading.request_cons_of_more rfl,
    Reading.request_cons_of_more (Reading.take_toString rfl rfl h)]
  rfl

end SelectQuery.CommandLine
