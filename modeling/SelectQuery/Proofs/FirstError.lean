import SelectQuery.Proofs.Language

/-!
# The first error

A parser rejects a source at the first token that no sentence of the grammar goes on with, and
meets a lexical error only if every token before it can be gone on with. This rests on two facts
about positions: each of them can be brought to an end (`Parser.Position.exists_run?_eq_ended`),
so that exactly the viable kinds lead somewhere (`Grammar.viable_iff`), and a limit that is not
below the number of tokens is never met (`Parser.Position.runWithin?_eq_run?`).
-/

namespace SelectQuery

namespace Parser.Position

open Grammar

private theorem exists_run?_conditionEnd (opens : List Opener) :
    ∃ kinds, (conditionEnd opens).run? kinds = some ended := by
  generalize hn : opens.length = n
  induction n using Nat.strongRecOn generalizing opens with
  | ind n ih =>
    have hle := Opener.length_endNegations_le opens
    cases ho : Opener.endNegations opens with
    | nil => exact ⟨[.semicolon, .eof], by simp [step?, endCondition?, ho]⟩
    | cons o opens' =>
      rw [ho, List.length_cons] at hle
      obtain ⟨kinds, h⟩ := ih opens'.length (by omega) opens' rfl
      have hstep : (conditionEnd opens).step? .rightParen = some (conditionEnd opens') := by
        simp [step?, endCondition?, ho]
      exact ⟨.rightParen :: kinds, by rw [run?_cons, hstep, Option.bind_some, h]⟩

/-- Every position can be brought to the end of a source. -/
theorem exists_run?_eq_ended (p : Position) : ∃ kinds, p.run? kinds = some ended := by
  have hcondition (opens : List Opener) : ∃ kinds,
      (operand opens).run? (.number :: kinds) = some ended := exists_run?_conditionEnd opens
  cases p with
  | start => exact ⟨[.selectKw, .star, .fromKw, .identifier, .semicolon, .eof], rfl⟩
  | projection => exact ⟨[.star, .fromKw, .identifier, .semicolon, .eof], rfl⟩
  | wildcard | columnName | columnEnd => exact ⟨[.fromKw, .identifier, .semicolon, .eof], rfl⟩
  | column | columnAlias => exact ⟨[.identifier, .fromKw, .identifier, .semicolon, .eof], rfl⟩
  | table => exact ⟨[.identifier, .semicolon, .eof], rfl⟩
  | tableName => exact ⟨[.semicolon, .eof], rfl⟩
  | expression opens | condition opens =>
    obtain ⟨kinds, h⟩ := hcondition opens
    exact ⟨.number :: .equal :: .number :: kinds, h⟩
  | operator opens =>
    obtain ⟨kinds, h⟩ := hcondition opens
    exact ⟨.equal :: .number :: kinds, h⟩
  | operand opens =>
    obtain ⟨kinds, h⟩ := hcondition opens
    exact ⟨.number :: kinds, h⟩
  | conditionEnd opens => exact exists_run?_conditionEnd opens
  | complete => exact ⟨[.eof], rfl⟩
  | ended => exact ⟨[], rfl⟩

/-- How many expressions are open: that of the clause and one for each opener. -/
def level (p : Position) : Nat :=
  match p.opens? with
  | some opens => 1 + opens.length
  | none => 0

private theorem length_openAfter_le (opens : List Opener) (k : TokenKind) :
    (openAfter opens k).length ≤ opens.length + 1 := by
  have hle := Opener.length_endNegations_le opens
  cases k with
  | rightParen =>
    simp only [openAfter, List.length_tail]
    omega
  | _ => simp [openAfter]

/-- A token opens at most one expression. -/
theorem level_step?_le {p q : Position} {k : TokenKind} (h : p.step? k = some q) :
    q.level ≤ p.level + 1 := by
  unfold level
  cases hp : p.opens? with
  | some opens =>
    rcases opens?_step? hp h with ⟨-, rfl⟩ | ⟨hq, -⟩
    · exact Nat.zero_le _
    · have hle := length_openAfter_le opens k
      simp only [hq]
      omega
  | none =>
    rcases opens?_step?_outside hp h with ⟨-, rfl⟩ | ⟨-, hq⟩
    · exact Nat.le_refl _
    · simp [hq]

/-- A limit that is not below the number of tokens is not met. -/
theorem runWithin?_eq_run? {limit : Nat} {p : Position} {kinds : List TokenKind}
    (h : p.level + kinds.length ≤ limit) : p.runWithin? limit kinds = p.run? kinds := by
  induction kinds generalizing p with
  | nil => rfl
  | cons k kinds ih =>
    rw [List.length_cons] at h
    have hkeeps : p.keeps limit = true := by
      cases p with
      | expression opens =>
        have hlevel : (expression opens).level = 1 + opens.length := rfl
        simp only [keeps, decide_eq_true_eq]
        omega
      | _ => rfl
    rw [runWithin?_cons, run?_cons, stepWithin?, if_pos hkeeps]
    cases hstep : p.step? k with
    | none => rfl
    | some q =>
      have hle := level_step?_le hstep
      exact ih (by omega)

end Parser.Position

namespace Grammar

open Parser.Position in
/-- Positions lead through exactly what a sentence may begin with. -/
theorem viable_iff {kinds : List TokenKind} :
    Viable kinds ↔ ∃ p, Parser.Position.start.run? kinds = some p := by
  constructor
  · exact run?_of_viable
  · rintro ⟨p, hp⟩
    obtain ⟨rest, hrest⟩ := exists_run?_eq_ended p
    refine ⟨rest, sentence_iff.mpr ?_⟩
    rw [run?_append, hp, Option.bind_some, hrest]

/-- Whether kinds are viable is decided by a run over them. -/
instance (kinds : List TokenKind) : Decidable (Viable kinds) :=
  decidable_of_iff ((Parser.Position.start.run? kinds).isSome = true)
    (Option.isSome_iff_exists.trans viable_iff.symm)

/-- The place at which tokens stop being what a sentence may begin with. -/
structure FirstUnviable (tokens : List Token) (i : Nat) : Prop where
  unviable : ¬ Viable ((tokens.take (i + 1)).map Token.kind)
  viable : ∀ j < i, Viable ((tokens.take (j + 1)).map Token.kind)

/-- Whether a token is the first that is not viable is decided by the tokens up to it. -/
instance (tokens : List Token) (i : Nat) : Decidable (FirstUnviable tokens i) :=
  decidable_of_iff
    (¬ Viable ((tokens.take (i + 1)).map Token.kind) ∧
      ∀ j < i, Viable ((tokens.take (j + 1)).map Token.kind))
    ⟨fun h ↦ ⟨h.1, h.2⟩, fun h ↦ ⟨h.unviable, h.viable⟩⟩

/-- Tokens stop being viable at one place at most. -/
theorem FirstUnviable.unique {tokens : List Token} {i j : Nat} (hi : FirstUnviable tokens i)
    (hj : FirstUnviable tokens j) : i = j := by
  rcases Nat.lt_trichotomy i j with hlt | heq | hgt
  · exact absurd (hj.viable i hlt) hi.unviable
  · exact heq
  · exact absurd (hi.viable j hgt) hj.unviable

private theorem viable_take {tokens : List Token} (h : Viable (tokens.map Token.kind)) (n : Nat) :
    Viable ((tokens.take n).map Token.kind) := by
  apply Viable.of_append
  rwa [← List.map_append, List.take_append_drop]

private theorem firstUnviable_append {front : List Token} {t : Token}
    (hfront : Viable (front.map Token.kind)) (ht : ¬ Viable ((front ++ [t]).map Token.kind))
    (rest : List Token) : FirstUnviable (front ++ t :: rest) front.length := by
  constructor
  · have htake : (front ++ t :: rest).take (front.length + 1) = front ++ [t] := by
      rw [List.take_length_add_append]
      rfl
    rwa [htake]
  · intro j hj
    have htake : (front ++ t :: rest).take (j + 1) = front.take (j + 1) :=
      List.take_append_of_le_length hj
    rw [htake]
    exact viable_take hfront _

end Grammar

/-- The tokens that a lexer yields: all that remain and the end of the source, or those in front of
the first lexical error, which comes with them. -/
def Lexer.yielded (l : Lexer) : List Token × Option LexError :=
  match l.remaining with
  | (tokens, .ok offset) => (tokens ++ [.eof offset], none)
  | (tokens, .error e) => (tokens, some e)

namespace Parser.State

open Grammar

/-- A run fails at a token that cannot be taken, or behind the last one. -/
theorem conclude_eq_error {limit : Nat} {ending : Except LexError Nat} {s : State}
    {tokens : List Token} {err : ParseError} (h : s.conclude limit ending tokens = .error err) :
    (∃ front t rest s', tokens = front ++ t :: rest ∧ s.run? limit front = some s' ∧
      s'.step? limit t = none ∧ err = .syntactic ⟨s'.fault limit t, t.span⟩) ∨
    (∃ s' offset, s.run? limit tokens = some s' ∧ ending = .ok offset ∧ s'.position ≠ .complete ∧
      err = .syntactic ⟨s'.fault limit (.eof offset), (Token.eof offset).span⟩) ∨
    ∃ s' e, s.run? limit tokens = some s' ∧ ending = .error e ∧ err = .lexical e := by
  induction tokens generalizing s with
  | nil =>
    cases ending with
    | error e => exact .inr (.inr ⟨s, e, rfl, rfl, (Except.error.inj h).symm⟩)
    | ok offset =>
      refine .inr (.inl ⟨s, offset, rfl, rfl, ?_⟩)
      cases s with
      | complete statement => cases h
      | _ => exact ⟨by simp [position], (Except.error.inj h).symm⟩
  | cons t tokens ih =>
    cases hstep : s.step? limit t with
    | none =>
      simp only [conclude, hstep, Except.error.injEq] at h
      exact .inl ⟨[], t, tokens, s, rfl, rfl, hstep, h.symm⟩
    | some s₁ =>
      simp only [conclude, hstep] at h
      have hrun (ts : List Token) : s.run? limit (t :: ts) = s₁.run? limit ts := by
        rw [run?_cons, hstep, Option.bind_some]
      rcases ih h with ⟨front, t', rest, s', rfl, hs', h⟩ | ⟨s', offset, hs', h⟩ | ⟨s', e, hs', h⟩
      · exact .inl ⟨t :: front, t', rest, s', rfl, (hrun front).trans hs', h⟩
      · exact .inr (.inl ⟨s', offset, (hrun tokens).trans hs', h⟩)
      · exact .inr (.inr ⟨s', e, (hrun tokens).trans hs', h⟩)

/-- A run leads through viable tokens only, and its state stands where they lead. -/
theorem run?_position {limit : Nat} {tokens : List Token} {s : State}
    (heof : ∀ t ∈ tokens, t.kind ≠ .eof) (h : start.run? limit tokens = some s) :
    Position.start.run? (tokens.map Token.kind) = some s.position := by
  have hmap := map_position_run? limit start heof
  rw [h, Option.map_some] at hmap
  exact Position.run?_of_runWithin? hmap.symm

private theorem viable_of_run? {limit : Nat} {tokens : List Token} {s : State}
    (heof : ∀ t ∈ tokens, t.kind ≠ .eof) (h : start.run? limit tokens = some s) :
    Viable (tokens.map Token.kind) :=
  viable_iff.mpr ⟨s.position, run?_position heof h⟩

private theorem exists_run?_of_viable {limit : Nat} {tokens : List Token}
    (heof : ∀ t ∈ tokens, t.kind ≠ .eof) (hlimit : tokens.length ≤ limit)
    (h : Viable (tokens.map Token.kind)) : ∃ s, start.run? limit tokens = some s := by
  obtain ⟨p, hp⟩ := viable_iff.mp h
  have hmap := map_position_run? limit start heof
  have hrun : Position.start.runWithin? limit (tokens.map Token.kind) = some p := by
    rw [Position.runWithin?_eq_run? (by simpa [Position.level, Position.opens?] using hlimit), hp]
  have hs : (start.run? limit tokens).map position = some p := hmap.trans hrun
  obtain ⟨s, hs, -⟩ := Option.map_eq_some_iff.mp hs
  exact ⟨s, hs⟩

private theorem not_viable_concat {limit : Nat} {tokens : List Token} {t : Token} {s : State}
    (heof : ∀ u ∈ tokens ++ [t], u.kind ≠ .eof) (hlimit : tokens.length < limit)
    (hs : start.run? limit tokens = some s) (hstep : s.step? limit t = none) :
    ¬ Viable ((tokens ++ [t]).map Token.kind) := by
  intro h
  have hle : (tokens ++ [t]).length ≤ limit := by
    rw [List.length_append, List.length_singleton]
    omega
  obtain ⟨s', hs'⟩ := exists_run?_of_viable heof hle h
  rw [run?_append, hs] at hs'
  simp [hstep] at hs'

private theorem not_viable_eof {limit : Nat} {tokens : List Token} {s : State} (offset : Nat)
    (heof : ∀ t ∈ tokens, t.kind ≠ .eof) (hs : start.run? limit tokens = some s)
    (hposition : s.position ≠ .complete) :
    ¬ Viable ((tokens ++ [Token.eof offset]).map Token.kind) := by
  intro h
  obtain ⟨p, hp⟩ := viable_iff.mp h
  rw [List.map_append, Position.run?_append, run?_position heof hs, Option.bind_some] at hp
  obtain ⟨q, hq, -⟩ := Option.bind_eq_some_iff.mp hp
  exact hposition (Position.step?_eof hq).1

end Parser.State

private theorem parseWithin_eq_error {limit : Nat} {source : String} {err : ParseError}
    (hlimit : (Lexer.ofSource source).remaining.1.length ≤ limit)
    (h : parseWithin limit source = .error err) :
    (∃ i t fault, (Lexer.ofSource source).yielded.1[i]? = some t ∧
      Grammar.FirstUnviable (Lexer.ofSource source).yielded.1 i ∧
      err = .syntactic ⟨fault, t.span⟩) ∨
    ∃ e, (Lexer.ofSource source).yielded.2 = some e ∧ err = .lexical e ∧
      Grammar.Viable ((Lexer.ofSource source).yielded.1.map Token.kind) := by
  rw [parseWithin_eq_conclude] at h
  have heof : ∀ t ∈ (Lexer.ofSource source).remaining.1, t.kind ≠ .eof :=
    fun t ht ↦ Lexer.kind_ne_eof_of_mem_remaining ht
  unfold Lexer.yielded
  generalize (Lexer.ofSource source).remaining = remaining at *
  obtain ⟨tokens, ending⟩ := remaining
  dsimp only at h hlimit heof
  rcases Parser.State.conclude_eq_error h with
    ⟨front, t, rest, s, rfl, hs, hstep, rfl⟩ | ⟨s, offset, hs, rfl, hs', rfl⟩ | ⟨s, e, hs, rfl, rfl⟩
  · have heof' : ∀ u ∈ front ++ [t], u.kind ≠ .eof := by
      intro u hu
      apply heof u
      rw [List.append_cons]
      exact List.mem_append_left _ hu
    have hlt : front.length < limit := by
      rw [List.length_append, List.length_cons] at hlimit
      omega
    have hfront := Parser.State.viable_of_run?
      (fun u hu ↦ heof' u (List.mem_append_left _ hu)) hs
    have hfirst := Grammar.firstUnviable_append hfront
      (Parser.State.not_viable_concat heof' hlt hs hstep)
    refine .inl ⟨front.length, t, s.fault limit t, ?_⟩
    cases ending with
    | ok offset =>
      dsimp only
      rw [List.append_assoc, List.cons_append]
      exact ⟨by simp, hfirst _, rfl⟩
    | error e => exact ⟨by simp, hfirst _, rfl⟩
  · have hfirst := Grammar.firstUnviable_append (Parser.State.viable_of_run? heof hs)
      (Parser.State.not_viable_eof offset heof hs hs')
    exact .inl ⟨tokens.length, .eof offset, s.fault limit (.eof offset), by simp, hfirst [], rfl⟩
  · exact .inr ⟨e, rfl, rfl, Parser.State.viable_of_run? heof hs⟩

/-- Under a limit that is not below the number of its tokens, a source that cannot be parsed is
rejected at the first token that no sentence goes on with, even if a lexical error lies behind it.
If every token can be gone on with, the lexical error is what is reported. -/
theorem parseWithin_error_at_first_unviable {limit : Nat} {source : String} {err : ParseError}
    (hlimit : (Lexer.ofSource source).remaining.1.length ≤ limit)
    (h : parseWithin limit source = .error err) :
    (∀ i t, (Lexer.ofSource source).yielded.1[i]? = some t →
      Grammar.FirstUnviable (Lexer.ofSource source).yielded.1 i →
      ∃ fault, err = .syntactic ⟨fault, t.span⟩ ∧ err.position = t.span.start) ∧
    ((∀ i < (Lexer.ofSource source).yielded.1.length,
      Grammar.Viable (((Lexer.ofSource source).yielded.1.take (i + 1)).map Token.kind)) →
      ∃ e, (Lexer.ofSource source).yielded.2 = some e ∧ err = .lexical e) := by
  rcases parseWithin_eq_error hlimit h with ⟨j, u, fault, hu, hj, rfl⟩ | ⟨e, he, rfl, hviable⟩
  · constructor
    · intro i t ht hi
      obtain rfl := hi.unique hj
      obtain rfl := Option.some.inj (ht.symm.trans hu)
      exact ⟨fault, rfl, rfl⟩
    · intro hall
      have hlt : j < (Lexer.ofSource source).yielded.1.length :=
        (List.getElem?_eq_some_iff.mp hu).1
      exact absurd (hall j hlt) hj.unviable
  · constructor
    · intro i t _ hi
      exact absurd (Grammar.viable_take hviable (i + 1)) hi.unviable
    · intro _
      exact ⟨e, he, rfl⟩

/-- An operator where an operand must stand comes before the mark behind it that begins no token;
the same mark behind what can be gone on with is a lexical error. -/
theorem parseWithin_error_at_first_unviable_and :
    (∃ fault, parseWithin 8 "SELECT a FROM t WHERE a = AND #" =
      .error (.syntactic ⟨fault, ⟨26, 29⟩⟩)) ∧
    ∃ e, (Lexer.ofSource "SELECT a FROM t WHERE a = #").yielded.2 = some e ∧
      parseWithin 8 "SELECT a FROM t WHERE a = #" = .error (.lexical e) := by
  have hand : parseWithin 8 "SELECT a FROM t WHERE a = AND #" =
      .error (.syntactic ⟨.unrecognizedOperand "AND", ⟨26, 29⟩⟩) := by decide +kernel
  have hmark : parseWithin 8 "SELECT a FROM t WHERE a = #" =
      .error (.lexical (.unexpectedCharacter '#' 26)) := by decide +kernel
  constructor
  · obtain ⟨fault, hfault, -⟩ :=
      (parseWithin_error_at_first_unviable (by decide +kernel) hand).1 7 ⟨.andKw, "AND", ⟨26, 29⟩⟩
        (by decide +kernel) (by decide +kernel)
    exact ⟨fault, by rw [hand, hfault]⟩
  · obtain ⟨e, he, herr⟩ :=
      (parseWithin_error_at_first_unviable (by decide +kernel) hmark).2 (by decide +kernel)
    exact ⟨e, he, by rw [hmark, herr]⟩

end SelectQuery
