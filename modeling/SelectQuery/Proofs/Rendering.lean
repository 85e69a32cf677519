import SelectQuery.Proofs.Consumed
import SelectQuery.Proofs.WellFormed

/-!
# Parsing undoes rendering

The text of a well-formed statement, with a semicolon behind it, is written from tokens that spell
the statement (`Statement.WellFormed.exists_spelled`). So it is read back as the same statement but
for the places of its tokens, under every limit that reaches as deep as the text nests, and under
no other.
-/

namespace SelectQuery

open Token (Written)

namespace Condition

/-- The walk down the left spine puts the text of the condition in front of what is pending. -/
theorem renderSpine_eq (c : Condition) (pending : List String) :
    c.renderSpine pending = c.render ++ String.join pending := by
  induction c generalizing pending with
  | comparison c => simp [render, renderSpine, String.join_cons]
  | negation t e ih => simp [render, renderSpine, String.join_cons]
  | boolean t op l r ihl ihr =>
    simp only [render, renderSpine]
    split
    next => simp [String.join_cons, String.append_assoc]
    next =>
      rw [ihl, ihl]
      simp [String.append_assoc]

/-- A negation is written as its word and then what it negates. -/
theorem render_negation (t : Token) (e : Condition) :
    (negation t e).render = t.text ++ " " ++ e.render := by
  simp [render, renderSpine, String.join_cons]

/-- A join is written as its sides, in parentheses if need be, with its word between them. -/
theorem render_boolean (t : Token) (op : BooleanOperator) (l r : Condition) :
    (boolean t op l r).render =
      fence (l.needsParens op .left) l.render ++ " " ++ t.text ++ " " ++
        fence (r.needsParens op .right) r.render := by
  have hspine (c : Condition) : c.renderSpine [] = c.render := rfl
  rw [render, renderSpine, hspine r]
  split
  next hl => simp [hl, hspine, String.join_cons, String.append_assoc]
  next hl =>
    rw [renderSpine_eq]
    simp [hl, fence, String.join_cons, String.append_assoc]

end Condition

/-- The quotes at the two ends of a text are taken off. -/
theorem StringLiteral.unquote_quoted (body : List Char) :
    unquote (.ofList ('"' :: body ++ ['"'])) = .ofList body := by
  simp [unquote]

private theorem render_string {t : Token} (h : TokenKind.Lexeme .string t.text) :
    (StringLiteral.mk t).render = t.text := by
  obtain ⟨body, -, htext⟩ := TokenKind.exists_body_of_lexeme h
  rw [StringLiteral.render, StringLiteral.value, htext, StringLiteral.unquote_quoted]
  simp [String.append_assoc]

private theorem Identifier.WellFormed.written {i : Identifier} (h : i.WellFormed) :
    Written i.render [i.token] :=
  .single h.2 (by rw [h.1]; rfl)

/-- An operand is written with the text of its token. -/
theorem Operand.WellFormed.render_eq {o : Operand} (h : o.WellFormed) :
    o.render = o.token.text := by
  obtain ⟨hkind, hlexeme⟩ := h
  cases o with
  | identifier i => rfl
  | number n => rfl
  | string s =>
    apply render_string
    have hstring : s.token.kind = .string := by
      unfold Operand.ofToken? at hkind
      split at hkind <;> simp_all [Operand.token]
    have hs : s.token.kind.Lexeme s.token.text := hlexeme
    rwa [hstring] at hs

private theorem Operand.WellFormed.written {o : Operand} (h : o.WellFormed) :
    Written o.render [o.token] := by
  have hfree : o.token.kind.isFree := by
    have hkind := h.1
    unfold Operand.ofToken? at hkind
    split at hkind
    next hk => rw [hk]; rfl
    next hk => rw [hk]; rfl
    next hk => rw [hk]; rfl
    next => cases hkind
  rw [h.render_eq]
  exact .single h.2 hfree

private theorem Comparison.WellFormed.written {c : Comparison} (h : c.WellFormed) :
    Written c.render (Layout.comparison c).tokens := by
  have hop := Written.fixed (ComparisonOperator.text?_of_ofKind? h.kind) h.text
    (ComparisonOperator.isFree_of_ofKind? h.kind)
  rw [Comparison.render, h.text]
  exact (h.left.written.join hop).join h.right.written

private theorem Token.Written.fenceIf {text : String} {l : Layout} (h : Written text l.tokens)
    (parens : Bool) : Written (Condition.fence parens text) (l.fence parens).tokens := by
  cases parens with
  | true => exact h.fence
  | false => exact h

/-- A well-formed condition is written from the tokens of its layout. -/
theorem Condition.WellFormed.written {c : Condition} (h : c.WellFormed) :
    Written c.render c.layout.tokens := by
  induction c with
  | comparison c =>
    have hrender : (comparison c).render = c.render := by
      simp [render, renderSpine, String.join_cons]
    rw [hrender]
    exact Comparison.WellFormed.written h
  | boolean t op l r ihl ihr =>
    obtain ⟨⟨hkind, htext⟩, hl, hr⟩ := h
    have hop := Written.fixed (BooleanOperator.text?_of_ofKind? hkind) htext
      (BooleanOperator.isFree_of_ofKind? hkind)
    have hjoin := (((ihl hl).fenceIf (l.needsParens op .left)).join hop).join
      ((ihr hr).fenceIf (r.needsParens op .right))
    rw [render_boolean, htext]
    simpa [layout, Layout.tokens] using hjoin
  | negation t e ih =>
    obtain ⟨⟨hkind, htext⟩, he⟩ := h
    have hword : Written "NOT" [t] := .fixed (by rw [hkind]; rfl) htext (by rw [hkind]; rfl)
    rw [render_negation, htext]
    exact hword.join (ih he)

private theorem Column.WellFormed.written {c : Column} (h : c.WellFormed) :
    ∃ tokens, c.Spelled tokens ∧ Written c.render tokens := by
  obtain ⟨name, alias'⟩ := c
  obtain ⟨hname, halias⟩ := h
  cases alias' with
  | none => exact ⟨_, .name hname.1, hname.written⟩
  | some a =>
    have ha : a.WellFormed := halias a rfl
    have hword : Written "AS" [.ofKind .asKw] := .supplied rfl rfl
    have hjoin := (hname.written.join hword).join ha.written
    have hrender : name.render ++ " " ++ "AS" ++ " " ++ a.render =
        (Column.mk name (some a)).render := by
      simp [Column.render, String.append_assoc]
    rw [hrender] at hjoin
    exact ⟨_, .aliased hname.1 (Token.kind_ofKind .asKw) ha.1, hjoin⟩

private theorem exists_columnsSpelled {columns : List Column} (hne : columns ≠ [])
    (h : ∀ c ∈ columns, c.WellFormed) :
    ∃ tokens, Projection.ColumnsSpelled columns tokens ∧
      Written (String.intercalate ", " (columns.reverse.map Column.render)) tokens := by
  induction columns with
  | nil => exact absurd rfl hne
  | cons c columns ih =>
    obtain ⟨hc, hcolumns⟩ := List.forall_mem_cons.mp h
    obtain ⟨tokens, hspelled, hwritten⟩ := hc.written
    by_cases hnil : columns = []
    · subst hnil
      exact ⟨tokens, .single hspelled, by simpa using hwritten⟩
    · obtain ⟨tokens', hspelled', hwritten'⟩ := ih hnil hcolumns
      refine ⟨_, .more hspelled' (Token.kind_ofKind .comma) hspelled, ?_⟩
      have hlist := hwritten'.list hwritten
      have hrender :
          String.intercalate ", " (columns.reverse.map Column.render) ++ ", " ++ c.render =
            String.intercalate ", " ((c :: columns).reverse.map Column.render) := by
        rw [List.reverse_cons, List.map_append,
          String.intercalate_append_of_ne_nil (by simpa using hnil) (by simp)]
        simp
      rwa [hrender] at hlist

private theorem Projection.WellFormed.written {p : Projection} (h : p.WellFormed) :
    ∃ tokens, p.Spelled tokens ∧ Written p.render tokens := by
  cases p with
  | wildcard star =>
    obtain ⟨hkind, htext⟩ := h
    have hstar : Written "*" [star] := .fixed (by rw [hkind]; rfl) htext (by rw [hkind]; rfl)
    have hrender : (Projection.wildcard star).render = "*" := by
      simpa [Projection.render, toList, Column.render, Column.ofStar, Identifier.render,
        Identifier.value] using htext
    rw [hrender]
    exact ⟨[star], ⟨hkind, rfl⟩, hstar⟩
  | columns list =>
    obtain ⟨hne, hlist⟩ := h
    have hreverse : list.reverse ≠ [] := by simpa using hne
    obtain ⟨tokens, hspelled, hwritten⟩ :=
      exists_columnsSpelled hreverse fun c hc ↦ hlist c (List.mem_reverse.mp hc)
    rw [List.reverse_reverse] at hwritten
    exact ⟨tokens, hspelled, hwritten⟩

namespace Statement.WellFormed

variable {s : Statement}

/-- What precedes the condition of a well-formed statement is written from tokens that spell it. -/
theorem exists_header (h : s.WellFormed) :
    ∃ tokens, (Header.mk s.token s.projection s.table).Spelled tokens ∧
      Written (s.name ++ " " ++ s.projection.render ++ " FROM " ++ s.table.render) tokens := by
  obtain ⟨tokens, hspelled, hwritten⟩ := h.projection.written
  have hselect : Written s.name [s.token] := by
    refine .fixed ?_ h.text (by rw [h.kind]; rfl)
    rw [h.kind, h.name]
    rfl
  have hfrom : Written "FROM" [.ofKind .fromKw] := .supplied rfl rfl
  have hjoin := ((hselect.join hwritten).join hfrom).join h.table.written
  refine ⟨_, .intro h.kind hspelled (Token.kind_ofKind .fromKw) h.table.1, ?_⟩
  simpa [String.append_assoc] using hjoin

/-- The text of a well-formed statement and a semicolon are written from tokens that spell the
statement. They nest as deep as is needed. -/
theorem exists_spelled (h : s.WellFormed) :
    ∃ tokens, s.Spelled s.need tokens ∧ (∀ t ∈ tokens, t.IsLexeme) ∧
      Token.write tokens = (s.render ++ ";").toList := by
  obtain ⟨tokens, hheader, hwritten⟩ := h.exists_header
  obtain ⟨token, name, projection, table, condition⟩ := s
  obtain rfl : name = command := h.name
  have hend (text : String) (ts : List Token) (hts : Written text ts) :
      (∀ t ∈ ts ++ [.ofKind .semicolon], t.IsLexeme) ∧
        Token.write (ts ++ [.ofKind .semicolon]) = (text ++ ";").toList := by
    refine ⟨fun t ht ↦ ?_, hts.write_concat rfl⟩
    rcases List.mem_append.mp ht with ht | ht
    · exact hts.isLexeme t ht
    · rw [List.mem_singleton.mp ht]
      exact Token.isLexeme_ofKind rfl
  cases condition with
  | none => exact ⟨_, .unconditional hheader (Token.kind_ofKind .semicolon), hend _ _ hwritten⟩
  | some c =>
    have hc : c.WellFormed := h.condition? c rfl
    have hwhere : Written "WHERE" [.ofKind .whereKw] := .supplied rfl rfl
    have hjoin := (hwritten.join hwhere).join hc.written
    have hspelled := Spelled.conditional hheader (Token.kind_ofKind .whereKw) hc.proper_layout
      (Token.kind_ofKind .semicolon)
    rw [c.tree_layout, ← c.need_eq] at hspelled
    refine ⟨_, hspelled, ?_⟩
    simpa [render, String.append_assoc] using hend _ _ hjoin

open Parser.State (start) in
private theorem exists_run (h : s.WellFormed) :
    ∃ tokens stop, (Lexer.ofSource (s.render ++ ";")).remaining = (tokens, .ok stop) ∧
      ∀ limit, (start.run? limit tokens).map Parser.State.bare =
        if s.need ≤ limit then some (.complete s.bare) else none := by
  obtain ⟨tokens, hspelled, hlexeme, hwrite⟩ := h.exists_spelled
  have hlead : ∀ c ∈ ([] : List Char), Lexer.isBlank c := by simp
  obtain ⟨tokens', stop, hremaining, hbare⟩ := (Token.laid_write hlexeme hlead).remaining 0
  rw [List.nil_append, hwrite] at hremaining
  refine ⟨tokens', stop, hremaining, fun limit ↦ ?_⟩
  rw [Parser.State.map_bare_run?, hbare, ← Parser.State.map_bare_run?,
    Parser.State.run?_of_spelled hspelled]
  split <;> rfl

/-- Under a limit that reaches as deep as needed, the text is read back as the same statement. -/
theorem parseWithin_of_need_le (h : s.WellFormed) {limit : Nat} (hlimit : s.need ≤ limit) :
    ∃ s', parseWithin limit (s.render ++ ";") = .ok s' ∧ s'.bare = s.bare := by
  obtain ⟨tokens, stop, hremaining, hrun⟩ := h.exists_run
  have hbare := hrun limit
  rw [if_pos hlimit] at hbare
  obtain ⟨state, hstate, hcomplete⟩ := Option.map_eq_some_iff.mp hbare
  obtain ⟨s', rfl, hs'⟩ := Parser.State.bare_eq_complete_iff.mp hcomplete
  refine ⟨s', parseWithin_eq_ok_iff.mpr ⟨?_, stop, ?_⟩, hs'⟩
  · rwa [hremaining]
  · rw [hremaining]

/-- Under a lower limit the text is nested too deeply. -/
theorem parseWithin_of_lt_need (h : s.WellFormed) {limit : Nat} (hlimit : limit < s.need) :
    ∃ span, parseWithin limit (s.render ++ ";") =
      .error (.syntactic ⟨.nestedTooDeeply, span⟩) := by
  obtain ⟨tokens, stop, hremaining, hrun⟩ := h.exists_run
  have hnone := hrun limit
  have hsome := hrun s.need
  rw [if_neg (Nat.not_le.mpr hlimit), Option.map_eq_none_iff] at hnone
  rw [if_pos (Nat.le_refl _)] at hsome
  obtain ⟨state, hstate, -⟩ := Option.map_eq_some_iff.mp hsome
  rw [parseWithin_eq_conclude, hremaining]
  exact Parser.State.conclude_of_run?_eq_none (Nat.le_of_lt hlimit) hnone hstate _

end Statement.WellFormed

/-- Parsing undoes rendering on every well-formed statement: under a limit that is not below
`Statement.need` the text and a semicolon are read as a statement that differs in the places of its
tokens alone, and under every other limit they are nested too deeply. -/
theorem parseWithin_render {s : Statement} (h : s.WellFormed) (limit : Nat) :
    (s.need ≤ limit → ∃ s', parseWithin limit (s.render ++ ";") = .ok s' ∧ s'.bare = s.bare) ∧
      (limit < s.need → ∃ span, parseWithin limit (s.render ++ ";") =
        .error (.syntactic ⟨.nestedTooDeeply, span⟩)) :=
  ⟨h.parseWithin_of_need_le, h.parseWithin_of_lt_need⟩

/-- A statement built by hand from tokens without places. Its text is
`SELECT a AS b FROM t WHERE (NOT c < 1) AND (c = 2 AND d = "x")`. -/
def Statement.fencedOnBothSides : Statement where
  token := .ofKind .selectKw
  name := command
  projection := .columns [⟨name "a", some (name "b")⟩]
  table := name "t"
  condition? := some (.boolean (.ofKind .andKw) .and
    (.negation (.ofKind .notKw) (.comparison ⟨.ofKind .less, .less, left, number "1"⟩))
    (.boolean (.ofKind .andKw) .and
      (.comparison ⟨.ofKind .equal, .equal, left, number "2"⟩)
      (.comparison ⟨.ofKind .equal, .equal, .identifier (name "d"), string⟩)))
where
  name (text : String) : Identifier := ⟨⟨.identifier, text, ⟨0, 0⟩⟩⟩
  left : Operand := .identifier (name "c")
  number (text : String) : Operand := .number ⟨⟨.number, text, ⟨0, 0⟩⟩⟩
  string : Operand := .string ⟨⟨.string, "\"x\"", ⟨0, 0⟩⟩⟩

/-- The parentheses on either side of a conjunction take three levels to be read back. -/
theorem parseWithin_render_fencedOnBothSides :
    Statement.fencedOnBothSides.WellFormed ∧ Statement.fencedOnBothSides.need = 3 ∧
      (∃ s', parseWithin 3 (Statement.fencedOnBothSides.render ++ ";") = .ok s' ∧
        s'.bare = Statement.fencedOnBothSides.bare) ∧
      ∃ span, parseWithin 2 (Statement.fencedOnBothSides.render ++ ";") =
        .error (.syntactic ⟨.nestedTooDeeply, span⟩) := by
  have hs : Statement.fencedOnBothSides.WellFormed := by decide +kernel
  have hneed : Statement.fencedOnBothSides.need = 3 := by decide +kernel
  exact ⟨hs, hneed, (parseWithin_render hs 3).1 (by omega), (parseWithin_render hs 2).2 (by omega)⟩

end SelectQuery
