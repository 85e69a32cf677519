import Mathlib.Tactic.TFAE
import SelectQuery.Proofs.RoundTrip
import SelectQuery.Proofs.Spine

/-!
# Outlines and texts as fingerprints

The outline of a parsed statement shows all of it but the places of its tokens, and so does its text
(`outline_render_bare_tfae`). A text shows the statement because it is read back. An outline is not
read by any parser; it is taken apart from the left, where each part ends at the first character
that cannot go on with it, whatever strings are inside of it.
-/

namespace SelectQuery

private theorem separate_blank (text : List Char) : Lexer.Separate (' ' :: text) :=
  Lexer.separate_cons.mpr (by decide)

/-- Two lexemes at the heads of one text agree, if neither is followed by what goes on with it. -/
theorem Token.IsLexeme.append_inj {t u : Token} (ht : t.IsLexeme) (hu : u.IsLexeme)
    {rest rest' : List Char} (hrest : Lexer.Separate rest) (hrest' : Lexer.Separate rest')
    (h : t.text.toList ++ rest = u.text.toList ++ rest') : t.bare = u.bare ∧ rest = rest' := by
  have hscan := Lexer.scanLexeme_lexeme ht (.inr hrest) 0
  have hscan' := Lexer.scanLexeme_lexeme hu (.inr hrest') 0
  rw [h, hscan'] at hscan
  simp only [Lexer.Scan.ofText, Token.ofText, Lexer.Scan.token.injEq, Token.mk.injEq] at hscan
  obtain ⟨⟨hkind, htext, -⟩, hrest, -⟩ := hscan
  exact ⟨bare_inj.mpr ⟨hkind.symm, htext.symm⟩, hrest.symm⟩

private theorem Token.bare_eq_of_text? {t u : Token} {s : String} (ht : t.kind.text? = some s)
    (hu : u.kind.text? = some s) (htext : t.text = s) (hutext : u.text = s) : t.bare = u.bare := by
  have hnil : Lexer.Separate [] := fun c hc ↦ by cases hc
  have htlexeme : t.IsLexeme := (TokenKind.lexeme_iff ht).mpr htext
  have hulexeme : u.IsLexeme := (TokenKind.lexeme_iff hu).mpr hutext
  exact (htlexeme.append_inj hulexeme hnil hnil (by rw [htext, hutext])).1

private theorem Operand.WellFormed.append_inj {o o' : Operand} (h : o.WellFormed)
    (h' : o'.WellFormed) {rest rest' : List Char} (hrest : Lexer.Separate rest)
    (hrest' : Lexer.Separate rest') (htext : o.render.toList ++ rest = o'.render.toList ++ rest') :
    o.bare = o'.bare ∧ rest = rest' := by
  rw [h.render_eq, h'.render_eq] at htext
  obtain ⟨htoken, hrest⟩ := h.2.append_inj h'.2 hrest hrest' htext
  have hbare := Parser.State.ofToken?_bare o.token
  rw [htoken, Parser.State.ofToken?_bare, h.1, h'.1] at hbare
  exact ⟨(Option.some.inj hbare).symm, hrest⟩

private theorem Comparison.WellFormed.isLexeme {c : Comparison} (h : c.WellFormed) :
    c.token.IsLexeme :=
  (TokenKind.lexeme_iff (ComparisonOperator.text?_of_ofKind? h.kind)).mpr h.text

private theorem Comparison.WellFormed.append_inj {c c' : Comparison} (h : c.WellFormed)
    (h' : c'.WellFormed) {rest rest' : List Char} (hrest : Lexer.Separate rest)
    (hrest' : Lexer.Separate rest') (htext : c.render.toList ++ rest = c'.render.toList ++ rest') :
    c.bare = c'.bare ∧ rest = rest' := by
  simp only [render, String.toList_append, List.append_assoc, String.reduceToList,
    List.singleton_append] at htext
  obtain ⟨hleft, htext⟩ := h.left.append_inj h'.left (separate_blank _) (separate_blank _) htext
  obtain ⟨htoken, htext⟩ := h.isLexeme.append_inj h'.isLexeme (separate_blank _)
    (separate_blank _) (List.cons.inj htext).2
  obtain ⟨hright, hrest⟩ := h.right.append_inj h'.right hrest hrest' (List.cons.inj htext).2
  have hkind : c.token.kind = c'.token.kind := (Token.bare_inj.mp htoken).1
  have hop : c.op = c'.op := Option.some.inj (h.kind.symm.trans (hkind ▸ h'.kind))
  exact ⟨by rw [bare, bare, htoken, hop, hleft, hright], hrest⟩

namespace Condition

private theorem toList_outline_comparison (c : Comparison) (rest : List Char) :
    (comparison c).outline.toList ++ rest =
      "Compare(".toList ++ (c.render.toList ++ ')' :: rest) := by
  simp [outline_comparison]

private theorem toList_outline_negation (t : Token) (e : Condition) (rest : List Char) :
    (negation t e).outline.toList ++ rest = "NOT(".toList ++ (e.outline.toList ++ ')' :: rest) := by
  simp [outline_negation]

private theorem toList_outline_boolean (t : Token) (op : BooleanOperator) (l r : Condition)
    (rest : List Char) :
    (boolean t op l r).outline.toList ++ rest =
      op.word.toList ++ '(' :: (l.outline.toList ++
        ',' :: ' ' :: (r.outline.toList ++ ')' :: rest)) := by
  simp [outline_boolean]

/-- Well-formed conditions whose outlines are at the heads of one text agree. -/
theorem WellFormed.outline_append_inj {c d : Condition} (hc : c.WellFormed) (hd : d.WellFormed)
    {rest rest' : List Char} (h : c.outline.toList ++ rest = d.outline.toList ++ rest') :
    c.bare = d.bare ∧ rest = rest' := by
  induction c generalizing d rest rest' with
  | comparison c =>
    rw [toList_outline_comparison] at h
    cases d with
    | comparison d =>
      rw [toList_outline_comparison] at h
      have hclose (text : List Char) : Lexer.Separate (')' :: text) :=
        Lexer.separate_cons.mpr (by decide)
      obtain ⟨hbare, htext⟩ := Comparison.WellFormed.append_inj hc hd (hclose _) (hclose _)
        (List.append_cancel_left h)
      exact ⟨congrArg comparison hbare, (List.cons.inj htext).2⟩
    | negation t e => simp [toList_outline_negation] at h
    | boolean t op l r => cases op <;> simp [toList_outline_boolean, BooleanOperator.word] at h
  | negation t e ih =>
    rw [toList_outline_negation] at h
    cases d with
    | comparison d => simp [toList_outline_comparison] at h
    | negation t' e' =>
      rw [toList_outline_negation] at h
      obtain ⟨⟨hkind, htext⟩, he⟩ := hc
      obtain ⟨⟨hkind', htext'⟩, he'⟩ := hd
      obtain ⟨hbare, hrest⟩ := ih he he' (List.append_cancel_left h)
      have htoken : t.bare = t'.bare :=
        Token.bare_inj.mpr ⟨hkind.trans hkind'.symm, htext.trans htext'.symm⟩
      exact ⟨by rw [bare, bare, htoken, hbare], (List.cons.inj hrest).2⟩
    | boolean t' op l r => cases op <;> simp [toList_outline_boolean, BooleanOperator.word] at h
  | boolean t op l r ihl ihr =>
    rw [toList_outline_boolean] at h
    cases d with
    | comparison d => cases op <;> simp [toList_outline_comparison, BooleanOperator.word] at h
    | negation t' e => cases op <;> simp [toList_outline_negation, BooleanOperator.word] at h
    | boolean t' op' l' r' =>
      rw [toList_outline_boolean] at h
      obtain ⟨⟨hkind, htext⟩, hl, hr⟩ := hc
      obtain ⟨⟨hkind', htext'⟩, hl', hr'⟩ := hd
      obtain rfl : op = op' := by cases op <;> cases op' <;> simp [BooleanOperator.word] at h ⊢
      obtain ⟨hleft, h⟩ := ihl hl hl' (List.cons.inj (List.append_cancel_left h)).2
      obtain ⟨hright, h⟩ := ihr hr hr' (List.cons.inj (List.cons.inj h).2).2
      have htoken := Token.bare_eq_of_text? (BooleanOperator.text?_of_ofKind? hkind)
        (BooleanOperator.text?_of_ofKind? hkind') htext htext'
      exact ⟨by rw [bare, bare, htoken, hleft, hright], (List.cons.inj h).2⟩

end Condition

-- The text goes on with a further item of a list, or ends the list.
private def IsListEnd (text : List Char) : Prop := ∃ c rest, text = c :: rest ∧ (c = ',' ∨ c = ']')

private theorem IsListEnd.separate {text : List Char} (h : IsListEnd text) :
    Lexer.Separate text := by
  obtain ⟨c, rest, rfl, rfl | rfl⟩ := h <;> exact Lexer.separate_cons.mpr (by decide)

private theorem IsListEnd.ne_blank {text rest : List Char} (h : IsListEnd text) :
    text ≠ ' ' :: rest := by
  obtain ⟨c, text, rfl, rfl | rfl⟩ := h <;> simp

namespace Column

private def IsLexeme (c : Column) : Prop :=
  c.name.token.IsLexeme ∧ ∀ a ∈ c.alias?, a.token.IsLexeme

private theorem render_aliased (name a : Identifier) (rest : List Char) :
    (Column.mk name (some a)).render.toList ++ rest =
      name.render.toList ++ ' ' :: ("AS ".toList ++ (a.render.toList ++ rest)) := by
  simp [render]

private theorem IsLexeme.append_inj {c c' : Column} (h : c.IsLexeme) (h' : c'.IsLexeme)
    {rest rest' : List Char} (hrest : IsListEnd rest) (hrest' : IsListEnd rest')
    (htext : c.render.toList ++ rest = c'.render.toList ++ rest') :
    c.bare = c'.bare ∧ rest = rest' := by
  obtain ⟨name, alias?⟩ := c
  obtain ⟨name', alias?'⟩ := c'
  have hname {text text' : List Char} (hsep : Lexer.Separate text) (hsep' : Lexer.Separate text')
      (heq : name.render.toList ++ text = name'.render.toList ++ text') :
      name.bare = name'.bare ∧ text = text' :=
    (h.1.append_inj h'.1 hsep hsep' heq).imp_left (congrArg Identifier.mk)
  cases alias? with
  | none =>
    cases alias?' with
    | none =>
      obtain ⟨hbare, hrest⟩ := hname hrest.separate hrest'.separate htext
      exact ⟨by rw [bare, bare, hbare], hrest⟩
    | some a' =>
      rw [render_aliased] at htext
      obtain ⟨-, hblank⟩ := hname hrest.separate (separate_blank _) htext
      exact absurd hblank hrest.ne_blank
  | some a =>
    cases alias?' with
    | none =>
      rw [render_aliased] at htext
      obtain ⟨-, hblank⟩ := hname (separate_blank _) hrest'.separate htext
      exact absurd hblank.symm hrest'.ne_blank
    | some a' =>
      rw [render_aliased, render_aliased] at htext
      obtain ⟨hbare, htext⟩ := hname (separate_blank _) (separate_blank _) htext
      obtain ⟨halias, hrest⟩ := (h.2 a rfl).append_inj (h'.2 a' rfl) hrest.separate
        hrest'.separate (List.append_cancel_left (List.cons.inj htext).2)
      have ha : a.bare = a'.bare := congrArg Identifier.mk halias
      exact ⟨by rw [bare, bare, hbare, Option.map_some, Option.map_some, ha], hrest⟩

-- The further columns of a list that ends with a bracket, with something behind it.
private def listTail : List Column → List Char → List Char
  | [], rest => ']' :: rest
  | c :: columns, rest => ',' :: ' ' :: (c.render.toList ++ listTail columns rest)

private theorem isListEnd_listTail (columns : List Column) (rest : List Char) :
    IsListEnd (listTail columns rest) := by
  cases columns with
  | nil => exact ⟨']', _, rfl, .inr rfl⟩
  | cons c columns => exact ⟨',', _, rfl, .inl rfl⟩

private theorem intercalate_eq_listTail (c : Column) (columns : List Column) (rest : List Char) :
    (String.intercalate ", " ((c :: columns).map render)).toList ++ ']' :: rest =
      c.render.toList ++ listTail columns rest := by
  induction columns generalizing c with
  | nil => simp [listTail]
  | cons d columns ih =>
    rw [List.map_cons, List.map_cons, String.intercalate_cons_cons, ← List.map_cons,
      String.toList_append, List.append_assoc, ih]
    simp [listTail]

private theorem listTail_inj {columns columns' : List Column} (h : ∀ c ∈ columns, c.IsLexeme)
    (h' : ∀ c ∈ columns', c.IsLexeme) {rest rest' : List Char}
    (htext : listTail columns rest = listTail columns' rest') :
    columns.map bare = columns'.map bare ∧ rest = rest' := by
  induction columns generalizing columns' with
  | nil =>
    cases columns' with
    | nil => exact ⟨rfl, (List.cons.inj htext).2⟩
    | cons c' columns' => simp [listTail] at htext
  | cons c columns ih =>
    cases columns' with
    | nil => simp [listTail] at htext
    | cons c' columns' =>
      obtain ⟨hc, hcolumns⟩ := List.forall_mem_cons.mp h
      obtain ⟨hc', hcolumns'⟩ := List.forall_mem_cons.mp h'
      obtain ⟨hbare, htail⟩ := hc.append_inj hc' (isListEnd_listTail _ _) (isListEnd_listTail _ _)
        (List.cons.inj (List.cons.inj htext).2).2
      obtain ⟨hmap, hrest⟩ := ih hcolumns hcolumns' htail
      exact ⟨by rw [List.map_cons, List.map_cons, hbare, hmap], hrest⟩

end Column

namespace Projection.WellFormed

private theorem exists_cons {p : Projection} (h : p.WellFormed) :
    ∃ c columns, p.toList = c :: columns ∧ ∀ d ∈ p.toList, d.IsLexeme := by
  cases p with
  | wildcard star =>
    obtain ⟨hkind, htext⟩ := h
    have hstar : star.IsLexeme := (TokenKind.lexeme_iff (by rw [hkind]; rfl)).mpr htext
    refine ⟨.ofStar star, [], rfl, fun d hd ↦ ?_⟩
    rw [List.mem_singleton.mp hd]
    exact ⟨hstar, fun a ha ↦ by cases ha⟩
  | columns list =>
    obtain ⟨hne, hlist⟩ := h
    obtain ⟨c, columns, rfl⟩ := List.exists_cons_of_ne_nil hne
    refine ⟨c, columns, rfl, fun d hd ↦ ?_⟩
    exact ⟨(hlist d hd).name.2, fun a ha ↦ ((hlist d hd).alias? a ha).2⟩

private theorem bare_eq {p p' : Projection} (h : p.WellFormed) (h' : p'.WellFormed)
    (hcolumns : p.toList.map Column.bare = p'.toList.map Column.bare) : p.bare = p'.bare := by
  have hkind {star : Token} {list : List Column} (hstar : (wildcard star).WellFormed)
      (hlist : (columns list).WellFormed) :
      (wildcard star).toList.map Column.bare ≠ (columns list).toList.map Column.bare := by
    intro heq
    obtain ⟨c, tail, rfl⟩ := List.exists_cons_of_ne_nil hlist.1
    have hname : star.bare = c.name.token.bare :=
      congrArg (·.name.token) (List.cons.inj heq).1
    have hsame : star.kind = c.name.token.kind := (Token.bare_inj.mp hname).1
    rw [hstar.1, (hlist.2 c (List.mem_cons_self ..)).name.1] at hsame
    cases hsame
  cases p with
  | wildcard star =>
    cases p' with
    | wildcard star' =>
      have hstar : star.bare = star'.bare := congrArg (·.name.token) (List.cons.inj hcolumns).1
      exact congrArg wildcard hstar
    | columns list => exact absurd hcolumns (hkind h h')
  | columns list =>
    cases p' with
    | wildcard star => exact absurd hcolumns.symm (hkind h' h)
    | columns list' => exact congrArg columns hcolumns

private theorem append_inj {p p' : Projection} (h : p.WellFormed) (h' : p'.WellFormed)
    {rest rest' : List Char}
    (htext : p.render.toList ++ ']' :: rest = p'.render.toList ++ ']' :: rest') :
    p.bare = p'.bare ∧ rest = rest' := by
  obtain ⟨c, columns, hlist, hlexeme⟩ := h.exists_cons
  obtain ⟨c', columns', hlist', hlexeme'⟩ := h'.exists_cons
  rw [render, render, hlist, hlist', Column.intercalate_eq_listTail,
    Column.intercalate_eq_listTail] at htext
  -- With a comma in front, the first column is one more of the further ones.
  have htail : Column.listTail (c :: columns) rest = Column.listTail (c' :: columns') rest' :=
    congrArg (',' :: ' ' :: ·) htext
  rw [← hlist, ← hlist'] at htail
  obtain ⟨hmap, hrest⟩ := Column.listTail_inj hlexeme hlexeme' htail
  exact ⟨h.bare_eq h' hmap, hrest⟩

end Projection.WellFormed

namespace Statement

-- What stands behind the name of the table in an outline.
private def outlineTail (condition? : Option Condition) : List Char :=
  match condition? with
  | some c => ',' :: ' ' :: (c.outline.toList ++ [')'])
  | none => [')']

private theorem outline_eq (s : Statement) :
    s.outline.toList = s.name.toList ++ "([".toList ++ (s.projection.render.toList ++
      ']' :: ',' :: ' ' :: (s.table.render.toList ++ outlineTail s.condition?)) := by
  unfold outline outlineTail
  cases s.condition? <;> simp

private theorem separate_outlineTail (condition? : Option Condition) :
    Lexer.Separate (outlineTail condition?) := by
  cases condition? <;> exact Lexer.separate_cons.mpr (by decide)

private theorem outlineTail_inj {c? d? : Option Condition} (hc : ∀ c ∈ c?, c.WellFormed)
    (hd : ∀ d ∈ d?, d.WellFormed) (h : outlineTail c? = outlineTail d?) :
    c?.map Condition.bare = d?.map Condition.bare := by
  cases c? with
  | none =>
    cases d? with
    | none => rfl
    | some d => simp [outlineTail] at h
  | some c =>
    cases d? with
    | none => simp [outlineTail] at h
    | some d =>
      have htext := (List.cons.inj (List.cons.inj h).2).2
      exact congrArg some ((hc c rfl).outline_append_inj (hd d rfl) htext).1

namespace WellFormed

variable {s s' : Statement}

/-- Well-formed statements of one outline differ in places alone. -/
theorem bare_eq_of_outline (h : s.WellFormed) (h' : s'.WellFormed) (heq : s.outline = s'.outline) :
    s.bare = s'.bare := by
  have htext := congrArg String.toList heq
  rw [outline_eq, outline_eq, h.name, h'.name] at htext
  obtain ⟨hprojection, htext⟩ := h.projection.append_inj h'.projection
    (List.append_cancel_left htext)
  obtain ⟨htable, htail⟩ := h.table.2.append_inj h'.table.2 (separate_outlineTail _)
    (separate_outlineTail _) (List.cons.inj (List.cons.inj htext).2).2
  have htable : s.table.bare = s'.table.bare := congrArg Identifier.mk htable
  have hcondition := outlineTail_inj h.condition? h'.condition? htail
  have htoken : s.token.bare = s'.token.bare :=
    Token.bare_inj.mpr ⟨h.kind.trans h'.kind.symm, by rw [h.text, h'.text, h.name, h'.name]⟩
  rw [bare, bare, htoken, h.name, h'.name, hprojection, htable, hcondition]

/-- Well-formed statements of one text differ in places alone, since what is read back is both. -/
theorem bare_eq_of_render (h : s.WellFormed) (h' : s'.WellFormed) (heq : s.render = s'.render) :
    s.bare = s'.bare := by
  obtain ⟨read, hread, hbare⟩ := h.parseWithin_of_need_le (Nat.le_max_left s.need s'.need)
  obtain ⟨read', hread', hbare'⟩ := h'.parseWithin_of_need_le (Nat.le_max_right s.need s'.need)
  rw [heq, hread'] at hread
  obtain rfl : read' = read := Except.ok.inj hread
  exact hbare.symm.trans hbare'

end WellFormed

end Statement

/-- Of two statements that were parsed, from whatever sources and under whatever limits, the
outlines are equal exactly when the texts are, and exactly when the statements differ in places
alone. -/
theorem outline_render_bare_tfae {limit limit' : Nat} {source source' : String} {s s' : Statement}
    (h : parseWithin limit source = .ok s) (h' : parseWithin limit' source' = .ok s') :
    [s.outline = s'.outline, s.render = s'.render, s.bare = s'.bare].TFAE := by
  obtain ⟨hs, -⟩ := wellFormed_of_parseWithin h
  obtain ⟨hs', -⟩ := wellFormed_of_parseWithin h'
  tfae_have 1 → 3 := hs.bare_eq_of_outline hs'
  tfae_have 2 → 3 := hs.bare_eq_of_render hs'
  tfae_have 3 → 1 := fun hbare ↦ (outline_render_of_bare hbare).1
  tfae_have 3 → 2 := fun hbare ↦ (outline_render_of_bare hbare).2
  tfae_finish

/-- Two sources of one statement: the second is spaced differently, and has parentheses that it
does not need. The string looks like the rest of an outline. -/
def looselySpelled : String × String :=
  ("SELECT a, b AS c FROM t WHERE a = \"), x = (\" OR b < 1 AND a = b;",
    "SELECT a ,b  AS c FROM t WHERE ((a=\"), x = (\") OR (b<1 AND a=b)) ;")

/-- Both have one outline, so they have one text and differ in places alone. -/
theorem outline_render_bare_tfae_looselySpelled : ∃ s s',
    parseWithin 1 looselySpelled.1 = .ok s ∧ parseWithin 3 looselySpelled.2 = .ok s' ∧
      s.table.token.span = ⟨22, 23⟩ ∧ s'.table.token.span = ⟨23, 24⟩ ∧
      s.outline = s'.outline ∧ s.render = s'.render ∧ s.bare = s'.bare := by
  have htight : (parseWithin 1 looselySpelled.1).toOption.map
      (fun s ↦ (s.table.token.span, s.outline)) =
      some (⟨22, 23⟩, "SELECT([a, b AS c], t, OR(Compare(a = \"), x = (\"), " ++
        "AND(Compare(b < 1), Compare(a = b))))") := by decide +kernel
  have hloose : (parseWithin 3 looselySpelled.2).toOption.map
      (fun s ↦ (s.table.token.span, s.outline)) =
      some (⟨23, 24⟩, "SELECT([a, b AS c], t, OR(Compare(a = \"), x = (\"), " ++
        "AND(Compare(b < 1), Compare(a = b))))") := by decide +kernel
  obtain ⟨s, h, heq⟩ := exists_parseWithin_eq_ok htight
  obtain ⟨s', h', heq'⟩ := exists_parseWithin_eq_ok hloose
  obtain ⟨hspan, houtline⟩ := Prod.mk.inj heq
  obtain ⟨hspan', houtline'⟩ := Prod.mk.inj heq'
  have hsame : s.outline = s'.outline := houtline.trans houtline'.symm
  have htfae := outline_render_bare_tfae h h'
  exact ⟨s, s', h, h', hspan, hspan', hsame, (htfae.out 0 1).mp hsame, (htfae.out 0 2).mp hsame⟩

end SelectQuery
