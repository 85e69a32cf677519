import Mathlib.Data.List.Nodup
import SelectQuery.Proofs.Limit
import SelectQuery.Proofs.Seam

/-!
# Rejected tokens

A syntax error is about one token: the one that has its span, and no other has
(`Lexer.located_yielded`). What it says of it depends on the position at which the token stands
(`Parser.State.fault_eq`). So kinds of token go by their names, and texts and places play no part,
except where the operator of a comparison must stand: there the whole token is shown
(`fault_byName_iff`).
-/

namespace SelectQuery

/-- The token has the span, `front` stands in front of it, and no other of the tokens has that
span. -/
structure Token.Located (tokens : List Token) (span : Span) (front : List Token) (t : Token) :
    Prop where
  stands : front ++ [t] <+: tokens
  span_eq : t.span = span
  only : ∀ front' u, front' ++ [u] <+: tokens → u.span = span → front' = front ∧ u = t

namespace Lexer

/-- The tokens that remain come one behind the other. -/
theorem ordered_remaining (l : Lexer) :
    (∀ t ∈ l.remaining.1, l.offset ≤ t.span.start) ∧
      l.remaining.1.Pairwise fun t u ↦ t.span.stop ≤ u.span.start := by
  induction l using scan_induction with
  | failed l e hs => simp [remaining_of_failed hs]
  | atEnd l stop hs => simp [remaining_of_atEnd hs]
  | token l t rest stop hs ih =>
    obtain ⟨lead, text', -, -, hreads, ht, -⟩ := scan_eq_token_iff.mp hs
    obtain ⟨taken, -, -, hstop, hspan⟩ := hreads.exists_split ht
    rw [remaining_of_token hs]
    constructor
    · refine List.forall_mem_cons.mpr ⟨by rw [hspan]; exact Nat.le_add_right .., fun u hu ↦ ?_⟩
      have hle : stop ≤ u.span.start := ih.1 u hu
      omega
    · refine List.pairwise_cons.mpr ⟨fun u hu ↦ ?_, ih.2⟩
      rw [hspan]
      exact ih.1 u hu

/-- No two of the tokens that a lexer yields have one span. -/
theorem nodup_spans (l : Lexer) : (l.yielded.1.map Token.span).Nodup := by
  have hnonempty := (remaining_within l).1
  have htokens : (l.remaining.1.map Token.span).Nodup := by
    refine List.pairwise_map.mpr (l.ordered_remaining.2.imp_of_mem fun {t u} ht _ hle heq ↦ ?_)
    have hlt := (hnonempty t ht).1
    rw [← heq] at hle
    omega
  rw [yielded_eq_withEnd]
  unfold withEnd
  split
  next offset _ =>
    rw [List.map_append, List.map_singleton]
    refine List.Nodup.append htokens (List.nodup_singleton _) fun span hmem heof ↦ ?_
    -- The end of the source covers nothing.
    obtain ⟨t, ht, hspan⟩ := List.mem_map.mp hmem
    have hlt := (hnonempty t ht).1
    rw [hspan, List.mem_singleton.mp heof] at hlt
    exact Nat.lt_irrefl _ hlt
  next => exact htokens

/-- A token that is yielded is located by its span. -/
theorem located_yielded {l : Lexer} {front behind : List Token} {t : Token}
    (h : l.yielded.1 = front ++ t :: behind) : Token.Located l.yielded.1 t.span front t where
  stands := ⟨behind, by simp [h]⟩
  span_eq := rfl
  only := by
    rintro front' u ⟨behind', h'⟩ hspan
    rw [List.append_assoc, List.singleton_append] at h'
    have hspans : (l.yielded.1.map Token.span)[front'.length]? =
        (l.yielded.1.map Token.span)[front.length]? := by
      have hleft : l.yielded.1[front'.length]? = some u := by simp [← h']
      have hright : l.yielded.1[front.length]? = some t := by simp [h]
      rw [List.getElem?_map, List.getElem?_map, hleft, hright, Option.map_some, hspan,
        Option.map_some]
    have hlength : front'.length = front.length :=
      (List.getElem?_inj (by simp [← h']) l.nodup_spans).mp hspans
    obtain ⟨hfront, hrest⟩ := List.append_inj (h'.trans h) hlength
    exact ⟨hfront, (List.cons.inj hrest).1⟩

/-- What is yielded is one of the tokens that remain, or the end of the source behind them. -/
theorem eq_of_withEnd_eq {ending : Except LexError Nat} {tokens front behind : List Token}
    {t : Token} (h : withEnd ending tokens = front ++ t :: behind) :
    (∃ rest, tokens = front ++ t :: rest) ∨
      tokens = front ∧ ∃ offset, ending = .ok offset ∧ t = .eof offset := by
  induction front generalizing tokens with
  | nil =>
    cases tokens with
    | nil =>
      cases ending with
      | error e => cases h
      | ok offset => exact .inr ⟨rfl, offset, rfl, (List.cons.inj h).1.symm⟩
    | cons u tokens =>
      rw [withEnd_cons] at h
      exact .inl ⟨tokens, by rw [(List.cons.inj h).1]; rfl⟩
  | cons u front ih =>
    cases tokens with
    | nil =>
      cases ending with
      | error e => cases h
      | ok offset => simp [withEnd] at h
    | cons v tokens =>
      rw [withEnd_cons] at h
      obtain ⟨rfl, hrest⟩ := List.cons.inj h
      rcases ih hrest with ⟨rest, rfl⟩ | ⟨rfl, hend⟩
      · exact .inl ⟨rest, rfl⟩
      · exact .inr ⟨rfl, hend⟩

/-- What stands in front of a token that is yielded is not the end of the source. -/
theorem kind_ne_eof_of_yielded {l : Lexer} {front behind : List Token} {t : Token}
    (h : l.yielded.1 = front ++ t :: behind) : ∀ u ∈ front, u.kind ≠ .eof := by
  intro u hu
  rw [yielded_eq_withEnd] at h
  apply kind_ne_eof_of_mem_remaining (l := l)
  rcases eq_of_withEnd_eq h with ⟨rest, htokens⟩ | ⟨htokens, -⟩
  · rw [htokens]
    exact List.mem_append_left _ hu
  · rwa [htokens]

end Lexer

namespace Frame

/-- A parenthesis is open if it is among the openers. -/
theorem paren_mem_openers (frames : List Frame) : .paren ∈ openers frames ↔ .paren ∈ frames := by
  induction frames with
  | nil => simp
  | cons f frames ih => cases f <;> simp [ih]

end Frame

namespace Parser

/-- What is wrong with a token that cannot be taken at a position. -/
def Position.fault (limit : Nat) (p : Position) (t : Token) : SyntaxFault :=
  match p with
  | start => .missingStatement t.kind.name
  | projection | column | columnAlias | table => expected .identifier
  | wildcard | columnName | columnEnd => expected .fromKw
  | tableName => expected .semicolon
  | expression opens =>
    if (expression opens).keeps limit then .unrecognizedCondition t.kind.name
    else .nestedTooDeeply
  | condition _ => .unrecognizedCondition t.kind.name
  | operator _ => .missingComparison (toString t)
  | operand _ => .unrecognizedOperand t.kind.name
  | conditionEnd opens => expected (if .paren ∈ opens then .rightParen else .semicolon)
  | complete | ended => expected .eof
where
  expected (kind : TokenKind) : SyntaxFault := .unexpectedToken kind.name t.kind.name

namespace State

/-- What is wrong with a token depends on the position of the state. -/
theorem fault_eq (limit : Nat) (s : State) (t : Token) :
    s.fault limit t = s.position.fault limit t := by
  cases s with
  | expression h frames =>
    simp [fault, position, Position.fault, Position.keeps, Frame.nesting_eq]
  | conditionEnd h frames c =>
    simp only [fault, position, Position.fault, Frame.paren_mem_openers,
      List.contains_iff_mem]
    rfl
  | _ => rfl

/-- A token other than the end of the source is taken if its kind is. -/
theorem step?_eq_none_iff {limit : Nat} {s : State} {t : Token} (ht : t.kind ≠ .eof) :
    s.step? limit t = none ↔ s.position.stepWithin? limit t.kind = none := by
  rw [Position.stepWithin?, ← map_position_step? limit s ht, Option.map_eq_none_iff]

/-- The end of the source is taken behind a complete statement. -/
theorem stepWithin?_eof_eq_none_iff {limit : Nat} {s : State} :
    s.position.stepWithin? limit .eof = none ↔ s.position ≠ .complete := by
  constructor
  · intro h hposition
    rw [hposition] at h
    cases h
  · intro hposition
    rw [Option.eq_none_iff_forall_ne_some]
    intro q hq
    unfold Position.stepWithin? at hq
    split at hq
    next => exact hposition (Position.step?_eof hq).1
    next => cases hq

/-- The end of the source concludes no statement that is not complete. -/
theorem conclude_nil_of_ne_complete {limit : Nat} {s : State} (h : s.position ≠ .complete)
    (offset : Nat) : s.conclude limit (.ok offset) [] =
      .error (.syntactic ⟨s.fault limit (.eof offset), (Token.eof offset).span⟩) := by
  cases s with
  | complete statement => exact absurd rfl h
  | _ => rfl

/-- A run fails with a syntax error at the first token that cannot be taken, and only there. -/
theorem conclude_eq_syntactic_iff {limit : Nat} {ending : Except LexError Nat} {s : State}
    {tokens : List Token} {e : SyntaxError} (heof : ∀ t ∈ tokens, t.kind ≠ .eof) :
    s.conclude limit ending tokens = .error (.syntactic e) ↔
      ∃ front t behind s', Lexer.withEnd ending tokens = front ++ t :: behind ∧
        s.run? limit front = some s' ∧ s'.position.stepWithin? limit t.kind = none ∧
        e = ⟨s'.fault limit t, t.span⟩ := by
  constructor
  · intro h
    rcases conclude_eq_error h with
      ⟨front, t, rest, s', rfl, hrun, hstep, he⟩ | ⟨s', offset, hrun, rfl, hs', he⟩ |
        ⟨s', e', -, -, he⟩
    · obtain rfl := ParseError.syntactic.inj he
      refine ⟨front, t, Lexer.withEnd ending rest, s', ?_, hrun, ?_, rfl⟩
      · cases ending <;> simp [Lexer.withEnd]
      · exact (step?_eq_none_iff (heof t (by simp))).mp hstep
    · obtain rfl := ParseError.syntactic.inj he
      exact ⟨tokens, .eof offset, [], s', rfl, hrun, stepWithin?_eof_eq_none_iff.mpr hs', rfl⟩
    · cases he
  · rintro ⟨front, t, behind, s', hend, hrun, hstep, rfl⟩
    rcases Lexer.eq_of_withEnd_eq hend with ⟨rest, rfl⟩ | ⟨rfl, offset, rfl, rfl⟩
    · rw [conclude_append hrun, conclude, (step?_eq_none_iff (heof t (by simp))).mpr hstep]
    · rw [← List.append_nil tokens, conclude_append hrun]
      exact conclude_nil_of_ne_complete (stepWithin?_eof_eq_none_iff.mp hstep) offset

end State

end Parser

/-- A source is rejected with a syntax error at the token that stands where nothing of its kind can,
and with the fault that belongs to that position. -/
theorem parseWithin_eq_syntactic_iff {limit : Nat} {source : String} {e : SyntaxError} :
    parseWithin limit source = .error (.syntactic e) ↔
      ∃ front t behind p, (Lexer.ofSource source).yielded.1 = front ++ t :: behind ∧
        Parser.Position.start.runWithin? limit (front.map Token.kind) = some p ∧
        p.stepWithin? limit t.kind = none ∧ e = ⟨p.fault limit t, t.span⟩ := by
  rw [parseWithin_eq_conclude,
    Parser.State.conclude_eq_syntactic_iff fun t ht ↦ Lexer.kind_ne_eof_of_mem_remaining ht,
    ← Lexer.yielded_eq_withEnd]
  constructor
  · rintro ⟨front, t, behind, s, hyielded, hrun, hstep, rfl⟩
    have hmap := Parser.State.map_position_run? limit .start
      (Lexer.kind_ne_eof_of_yielded hyielded)
    rw [hrun] at hmap
    exact ⟨front, t, behind, s.position, hyielded, hmap.symm, hstep, by rw [s.fault_eq]⟩
  · rintro ⟨front, t, behind, p, hyielded, hrun, hstep, rfl⟩
    have hmap := Parser.State.map_position_run? limit .start
      (Lexer.kind_ne_eof_of_yielded hyielded)
    obtain ⟨s, hs, rfl⟩ := Option.map_eq_some_iff.mp (hmap.trans hrun)
    exact ⟨front, t, behind, s, hyielded, hs, hstep, by rw [s.fault_eq]⟩

/-- Every kind of token that the fault speaks of goes by its name. -/
def SyntaxFault.ByName (t : Token) : SyntaxFault → Prop
  | unexpectedToken expected found =>
    (∃ k : TokenKind, expected = k.name) ∧ found = t.kind.name
  | unrecognizedOperand found | unrecognizedCondition found | missingComparison found
  | missingStatement found => found = t.kind.name
  | nestedTooDeeply => True

/-- The fault is that of a comparison without an operator. -/
def SyntaxFault.IsMissingComparison (fault : SyntaxFault) : Prop :=
  ∃ found, fault = missingComparison found

/-- A token as it is shown is no name of a kind. -/
theorem Token.toString_ne_name (t : Token) (k : TokenKind) : toString t ≠ k.name := by
  intro h
  have hhead : k.name.toList.head? = some 'T' := by simp [← h, toString]
  cases k <;> simp [TokenKind.name] at hhead

namespace Parser.Position

/-- Kinds go by name unless an operator is missing. -/
theorem byName_fault_iff (limit : Nat) (p : Position) (t : Token) :
    (p.fault limit t).ByName t ↔ ¬ (p.fault limit t).IsMissingComparison := by
  have hexpected (k : TokenKind) : (fault.expected t k).ByName t := ⟨⟨k, rfl⟩, rfl⟩
  cases p with
  | expression opens =>
    simp only [fault]
    split <;> simp [SyntaxFault.ByName, SyntaxFault.IsMissingComparison]
  | operator opens =>
    simp [fault, SyntaxFault.ByName, SyntaxFault.IsMissingComparison, Token.toString_ne_name]
  | start | condition | operand =>
    simp [fault, SyntaxFault.ByName, SyntaxFault.IsMissingComparison]
  | _ =>
    simp [fault, fault.expected, SyntaxFault.ByName, SyntaxFault.IsMissingComparison]

/-- If no operator is missing, the fault is the same for every token of the kind. -/
theorem fault_congr {limit : Nat} {p : Position} {t u : Token} (hkind : u.kind = t.kind)
    (h : ¬ (p.fault limit t).IsMissingComparison) : p.fault limit u = p.fault limit t := by
  cases p with
  | operator opens => exact absurd ⟨_, rfl⟩ h
  | _ => simp only [fault, fault.expected, hkind]

/-- A missing comparison is reported with the token that stands in its place. -/
theorem fault_of_isMissingComparison {limit : Nat} {p : Position} {t : Token}
    (h : (p.fault limit t).IsMissingComparison) :
    p.fault limit t = .missingComparison (toString t) := by
  obtain ⟨found, h⟩ := h
  cases p with
  | operator opens => rfl
  | expression opens =>
    simp only [fault] at h
    split at h <;> cases h
  | _ => cases h

end Parser.Position

/-- A syntax error speaks of the token that has its span, and of kinds by name; the same is said
wherever the same kinds come up to that token. Where the operator of a comparison is missing the
whole token is shown instead. -/
theorem fault_byName_iff {limit : Nat} {source : String} {e : SyntaxError}
    (h : parseWithin limit source = .error (.syntactic e)) :
    ∃ front t, Token.Located (Lexer.ofSource source).yielded.1 e.span front t ∧
      (e.fault.ByName t ↔ ¬ e.fault.IsMissingComparison) ∧
      (e.fault.IsMissingComparison → e.fault = .missingComparison (toString t)) ∧
      (¬ e.fault.IsMissingComparison → ∀ source',
        (front ++ [t]).map Token.kind <+: (Lexer.ofSource source').yielded.1.map Token.kind →
        ∃ span, parseWithin limit source' = .error (.syntactic ⟨e.fault, span⟩)) := by
  obtain ⟨front, t, behind, p, hyielded, hrun, hstep, rfl⟩ := parseWithin_eq_syntactic_iff.mp h
  refine ⟨front, t, Lexer.located_yielded hyielded, p.byName_fault_iff limit t,
    Parser.Position.fault_of_isMissingComparison, fun hoperator source' hkinds ↦ ?_⟩
  obtain ⟨tokens', ⟨behind', hbehind⟩, htokens'⟩ := List.prefix_map_iff.mp hkinds
  rw [List.map_append, List.map_singleton] at htokens'
  obtain ⟨front', u', rfl, hfront, hu'⟩ := List.append_eq_map_iff.mp htokens'
  obtain ⟨u, rfl, hu⟩ := List.map_eq_singleton_iff.mp hu'
  refine ⟨u.span, parseWithin_eq_syntactic_iff.mpr ⟨front', u, behind', p, ?_, ?_, ?_, ?_⟩⟩
  · rw [← hbehind, List.append_assoc, List.singleton_append]
  · rwa [hfront]
  · rwa [hu]
  · rw [Parser.Position.fault_congr hu hoperator]

/-- A name where an operator must stand. -/
def namesWithoutOperator : String := "SELECT x FROM t WHERE a b;"

/-- An operator where an operand must stand. -/
def operatorWithoutOperand : String := "SELECT x FROM t WHERE a = AND;"

/-- A name is shown as a whole where an operator is missing; what is said of an `AND` is said of it
among other names as well. -/
theorem fault_byName_iff_names :
    (∃ front t, Token.Located (Lexer.ofSource namesWithoutOperator).yielded.1 ⟨24, 25⟩ front t ∧
      parseWithin 1 namesWithoutOperator =
        .error (.syntactic ⟨.missingComparison (toString t), ⟨24, 25⟩⟩) ∧
      ¬ (SyntaxFault.missingComparison (toString t)).ByName t) ∧
    ∃ front t, Token.Located (Lexer.ofSource operatorWithoutOperand).yielded.1 ⟨26, 29⟩ front t ∧
      (SyntaxFault.unrecognizedOperand "AND").ByName t ∧
      ∃ span, parseWithin 1 "SELECT name FROM people WHERE id = AND" =
        .error (.syntactic ⟨.unrecognizedOperand "AND", span⟩) := by
  constructor
  · have h : parseWithin 1 namesWithoutOperator =
        .error (.syntactic ⟨.missingComparison "Token(IDENTIFIER, b)[24,25]", ⟨24, 25⟩⟩) := by
      decide +kernel
    obtain ⟨front, t, hlocated, hname, hshown, -⟩ := fault_byName_iff h
    have hmissing : SyntaxFault.missingComparison "Token(IDENTIFIER, b)[24,25]" =
        .missingComparison (toString t) := hshown ⟨_, rfl⟩
    rw [hmissing] at h hname
    exact ⟨front, t, hlocated, h, fun hbyName ↦ hname.mp hbyName ⟨_, rfl⟩⟩
  · have h : parseWithin 1 operatorWithoutOperand =
        .error (.syntactic ⟨.unrecognizedOperand "AND", ⟨26, 29⟩⟩) := by decide +kernel
    obtain ⟨front, t, hlocated, hname, -, hsame⟩ := fault_byName_iff h
    have hoperator : ¬ (SyntaxFault.unrecognizedOperand "AND").IsMissingComparison := by
      rintro ⟨found, hfound⟩
      cases hfound
    obtain ⟨rfl, rfl⟩ := hlocated.only
      ((Lexer.ofSource operatorWithoutOperand).yielded.1.take 7) ⟨.andKw, "AND", ⟨26, 29⟩⟩
      (by decide +kernel) rfl
    exact ⟨_, _, hlocated, hname.mpr hoperator, hsame hoperator _ (by decide +kernel)⟩

/-- So not every kind goes by its name. -/
theorem not_forall_byName : ¬ ∀ limit source e front t,
    parseWithin limit source = .error (.syntactic e) →
    Token.Located (Lexer.ofSource source).yielded.1 e.span front t → e.fault.ByName t := by
  intro hall
  have h : parseWithin 1 namesWithoutOperator =
      .error (.syntactic ⟨.missingComparison "Token(IDENTIFIER, b)[24,25]", ⟨24, 25⟩⟩) := by
    decide +kernel
  have hyielded : (Lexer.ofSource namesWithoutOperator).yielded.1 =
      (Lexer.ofSource namesWithoutOperator).yielded.1.take 6 ++
        ⟨.identifier, "b", ⟨24, 25⟩⟩ :: (Lexer.ofSource namesWithoutOperator).yielded.1.drop 7 := by
    decide +kernel
  have hname : "Token(IDENTIFIER, b)[24,25]" = TokenKind.identifier.name :=
    hall 1 _ _ _ _ h (Lexer.located_yielded hyielded)
  exact absurd hname (by decide)

end SelectQuery
