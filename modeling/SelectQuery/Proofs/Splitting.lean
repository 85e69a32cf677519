import SelectQuery.Proofs.Language

/-!
# Conditions by splitting

The tree of a condition, found by cutting its tokens instead of reading them one by one. A range is
cut at its `OR`s, each piece of that at its `AND`s, both outside of parentheses and only before the
first `NOT` there, which takes all that follows. The pieces are joined from the left. What is left
is a negation, a range in parentheses or a comparison. `Splitting.range?_tokens` says that a range
with a proper layout has the tree of this layout, so the condition of a statement is the tree of the
tokens between `WHERE` and the semicolon (`condition?_eq_range?`).
-/

namespace SelectQuery

namespace Splitting

/-- A range of tokens that has been cut: the first piece, and each other piece with the token in
front of it at which it was cut. -/
structure Pieces where
  first : List Token
  rest : List (Token × List Token)
  deriving DecidableEq, Repr

namespace Pieces

/-- The pieces in order. -/
def toList (p : Pieces) : List (List Token) := p.first :: p.rest.map Prod.snd

/-- Tokens in front of the first piece are made part of it. -/
def prepend (tokens : List Token) (p : Pieces) : Pieces := ⟨tokens ++ p.first, p.rest⟩

/-- Tokens in front of the pieces belong to the first. -/
@[simp] theorem first_prepend (tokens : List Token) (p : Pieces) :
    (p.prepend tokens).first = tokens ++ p.first := rfl

/-- Tokens in front of the pieces leave the others as they are. -/
@[simp] theorem rest_prepend (tokens : List Token) (p : Pieces) :
    (p.prepend tokens).rest = p.rest := rfl

/-- Tokens may be put in front in two portions. -/
@[simp] theorem prepend_prepend (tokens tokens' : List Token) (p : Pieces) :
    (p.prepend tokens').prepend tokens = p.prepend (tokens ++ tokens') := by
  simp [prepend]

/-- The trees of the pieces joined from the left, each node with the token of its cut. -/
def join? (op : BooleanOperator) (p : Pieces)
    (read : (piece : List Token) → piece ∈ p.toList → Option Condition) : Option Condition :=
  (read p.first (List.mem_cons_self ..)).bind fun first ↦
    p.rest.attach.foldlM (fun left ⟨cut, h⟩ ↦
      (read cut.2 (List.mem_cons_of_mem _ (List.mem_map_of_mem h))).map (.boolean cut.1 op left))
      first

end Pieces

/-- How many parentheses are open behind a token. -/
def depthAfter (depth : Nat) : TokenKind → Nat
  | .leftParen => depth + 1
  | .rightParen => depth - 1
  | _ => depth

/-- Cuts a range at every token of an operator that stands outside of parentheses and in front of
the first `NOT` there. -/
def cut (op : BooleanOperator) (depth : Nat) : List Token → Pieces
  | [] => ⟨[], []⟩
  | t :: tokens =>
    if depth = 0 ∧ t.kind = .notKw then ⟨t :: tokens, []⟩
    else if depth = 0 ∧ BooleanOperator.ofKind? t.kind = some op then
      let behind := cut op 0 tokens
      ⟨[], (t, behind.first) :: behind.rest⟩
    else (cut op (depthAfter depth t.kind) tokens).prepend [t]

/-- What stands in front of the parenthesis that closes the one before the tokens, if that is the
last token. -/
def inside? (depth : Nat) : List Token → Option (List Token)
  | [] => none
  | t :: tokens =>
    if depth = 0 ∧ t.kind = .rightParen then if tokens = [] then some [] else none
    else (inside? (depthAfter depth t.kind) tokens).map (t :: ·)

/-- The comparison that three tokens make. -/
def comparison? : List Token → Option Condition
  | [l, t, r] => do
    let left ← Operand.ofToken? l
    let op ← ComparisonOperator.ofKind? t.kind
    let right ← Operand.ofToken? r
    return .comparison ⟨t, op, left, right⟩
  | _ => none

/-- A piece is no longer than the range that was cut. -/
theorem length_le_of_mem_cut {op : BooleanOperator} {depth : Nat} {tokens piece : List Token}
    (h : piece ∈ (cut op depth tokens).toList) : piece.length ≤ tokens.length := by
  induction tokens generalizing depth piece with
  | nil =>
    obtain rfl : piece = [] := by simpa [cut, Pieces.toList] using h
    exact Nat.le_refl _
  | cons t tokens ih =>
    simp only [cut] at h
    split at h
    next =>
      obtain rfl : piece = t :: tokens := by simpa [Pieces.toList] using h
      exact Nat.le_refl _
    next =>
      split at h
      next =>
        rcases List.mem_cons.mp h with rfl | h
        · exact Nat.zero_le _
        · exact Nat.le_succ_of_le (ih h)
      next =>
        rcases List.mem_cons.mp h with rfl | h
        · exact Nat.succ_le_succ (ih (List.mem_cons_self ..))
        · exact Nat.le_succ_of_le (ih (List.mem_cons_of_mem _ h))

/-- What stands inside is shorter. -/
theorem length_lt_of_inside? {depth : Nat} {tokens inner : List Token}
    (h : inside? depth tokens = some inner) : inner.length < tokens.length := by
  induction tokens generalizing depth inner with
  | nil => cases h
  | cons t tokens ih =>
    simp only [inside?] at h
    split at h
    next =>
      split at h
      next =>
        obtain rfl := Option.some.inj h
        exact Nat.succ_pos _
      next => cases h
    next =>
      obtain ⟨inner, hinner, rfl⟩ := Option.map_eq_some_iff.mp h
      exact Nat.succ_lt_succ (ih hinner)

mutual

/-- The tree of a range: its pieces between `OR`s, joined. -/
def range? (tokens : List Token) : Option Condition :=
  (cut .or 0 tokens).join? .or fun piece _ ↦ conjunction? piece
termination_by (tokens.length, 2)
decreasing_by
  have hle := length_le_of_mem_cut ‹_›
  grind

/-- The tree of a piece between two `OR`s: its pieces between `AND`s, joined. -/
def conjunction? (tokens : List Token) : Option Condition :=
  (cut .and 0 tokens).join? .and fun piece _ ↦ piece? piece
termination_by (tokens.length, 1)
decreasing_by
  have hle := length_le_of_mem_cut ‹_›
  grind

/-- The tree of a piece between two `AND`s: a negation of all that follows the `NOT`, the tree of
what is inside a pair of parentheses around the piece, or a comparison. -/
def piece? : List Token → Option Condition
  | [] => none
  | t :: tokens =>
    match t.kind with
    | .notKw => (range? tokens).map (.negation t)
    | .leftParen =>
      match _h : inside? 0 tokens with
      | some inner => range? inner
      | none => comparison? (t :: tokens)
    | _ => comparison? (t :: tokens)
termination_by tokens => (tokens.length, 0)
decreasing_by
  · grind
  · have hlt := length_lt_of_inside? _h
    grind

end

section

variable {op : BooleanOperator} {depth : Nat} {tokens rest : List Token} {t : Token}

/-- A token that is no place to cut is part of the first piece. -/
theorem cut_cons (h : depth = 0 → t.kind ≠ .notKw ∧ BooleanOperator.ofKind? t.kind ≠ some op) :
    cut op depth (t :: tokens) = (cut op (depthAfter depth t.kind) tokens).prepend [t] := by
  rw [cut, if_neg fun ⟨hd, hk⟩ ↦ (h hd).1 hk, if_neg fun ⟨hd, hk⟩ ↦ (h hd).2 hk]

/-- A token of a comparison negates nothing, and neither opens nor closes anything. -/
theorem ordinary_of_isCompared (h : t.kind.isCompared = true) :
    t.kind ≠ .notKw ∧ t.kind ≠ .rightParen ∧ ∀ depth, depthAfter depth t.kind = depth := by
  cases hk : t.kind <;> simp_all [TokenKind.isCompared, depthAfter]

/-- Tokens of comparisons are part of one piece. -/
theorem cut_compared (h : ∀ t ∈ tokens, t.kind.isCompared = true) :
    cut op depth (tokens ++ rest) = (cut op depth rest).prepend tokens := by
  induction tokens with
  | nil => rfl
  | cons t tokens ih =>
    obtain ⟨ht, htokens⟩ := List.forall_mem_cons.mp h
    obtain ⟨hnot, -, hdepth⟩ := ordinary_of_isCompared ht
    have hcut : BooleanOperator.ofKind? t.kind ≠ some op := by
      cases hk : t.kind <;> simp_all [TokenKind.isCompared, BooleanOperator.ofKind?]
    rw [List.cons_append, cut_cons fun _ ↦ ⟨hnot, hcut⟩, hdepth, ih htokens]
    simp

/-- The token of an operator negates nothing either, and neither opens nor closes anything. -/
theorem ordinary_of_ofKind? (h : BooleanOperator.ofKind? t.kind = some op) :
    t.kind ≠ .notKw ∧ t.kind ≠ .rightParen ∧ ∀ depth, depthAfter depth t.kind = depth := by
  cases hk : t.kind <;> simp_all [BooleanOperator.ofKind?, depthAfter]

/-- Inside of parentheses nothing is cut, and a layout closes what it opens. -/
theorem cut_enclosed {l : Layout} (hl : l.Proper) (op : BooleanOperator) (depth : Nat)
    (rest : List Token) :
    cut op (depth + 1) (l.tokens ++ rest) = (cut op (depth + 1) rest).prepend l.tokens := by
  induction l generalizing depth rest with
  | comparison c => exact cut_compared hl.isCompared
  | paren p l q ih =>
    obtain ⟨hp, hl, hq⟩ := hl
    have hclose : cut op (depth + 2) (q :: rest) = (cut op (depth + 1) rest).prepend [q] := by
      rw [cut_cons (by simp), hq]
      rfl
    rw [Layout.tokens, List.cons_append, cut_cons (by simp), hp, depthAfter, List.append_assoc,
      ih hl, List.singleton_append, hclose]
    simp
  | negation t l ih =>
    obtain ⟨ht, hl⟩ := hl
    rw [Layout.tokens, List.cons_append, cut_cons (by simp), ht, depthAfter, ih hl]
    · simp
    all_goals simp
  | boolean t op' l r ihl ihr =>
    obtain ⟨⟨ht, hl, hr⟩, -⟩ := hl
    rw [Layout.tokens, List.append_assoc, ihl hl, List.cons_append, cut_cons (by simp),
      (ordinary_of_ofKind? ht).2.2, ihr hr]
    simp

/-- A layout that binds tighter than the operator is not cut at it. If it is open, nothing behind it
is either, but then it is the last. -/
theorem cut_tight {l : Layout} (hl : l.Proper) (hop : op.binding < l.binding)
    (hrest : l.isOpen = false ∨ rest = []) :
    cut op 0 (l.tokens ++ rest) = (cut op 0 rest).prepend l.tokens := by
  induction l generalizing rest with
  | comparison c => exact cut_compared hl.isCompared
  | paren p l q ih =>
    obtain ⟨hp, hl, hq⟩ := hl
    have hopen : p.kind ≠ .notKw ∧ BooleanOperator.ofKind? p.kind ≠ some op := by
      simp [hp, BooleanOperator.ofKind?]
    have hclose : cut op 1 (q :: rest) = (cut op 0 rest).prepend [q] := by
      rw [cut_cons (by simp), hq]
      rfl
    rw [Layout.tokens, List.cons_append, cut_cons fun _ ↦ hopen, hp, depthAfter, List.append_assoc,
      cut_enclosed hl, List.singleton_append, hclose]
    simp
  | negation t l ih =>
    obtain ⟨ht, hl⟩ := hl
    obtain rfl : rest = [] := hrest.resolve_left (by simp [Layout.isOpen])
    simp [Layout.tokens, cut, ht, Pieces.prepend]
  | boolean t op' l r ihl ihr =>
    obtain ⟨⟨ht, hl, hr⟩, ho, hopl, hopr⟩ := hl
    have hop : op.binding < op'.binding := hop
    obtain ⟨hnot, -, hdepth⟩ := ordinary_of_ofKind? ht
    have hcut : BooleanOperator.ofKind? t.kind ≠ some op := by
      rw [ht]
      rintro h
      obtain rfl := Option.some.inj h
      exact Nat.lt_irrefl _ hop
    rw [Layout.tokens, List.append_assoc, ihl hl (by omega) (.inl ho), List.cons_append,
      cut_cons fun _ ↦ ⟨hnot, hcut⟩, hdepth, ihr hr (by omega) hrest]
    simp

/-- A range is cut at the token of its operator. -/
theorem cut_operator (ht : BooleanOperator.ofKind? t.kind = some op) :
    cut op 0 (t :: rest) = ⟨[], (t, (cut op 0 rest).first) :: (cut op 0 rest).rest⟩ := by
  rw [cut, if_neg fun h ↦ (ordinary_of_ofKind? ht).1 h.2, if_pos ⟨rfl, ht⟩]

/-- A token that does not close the parenthesis stands inside. -/
theorem inside?_cons (h : ¬ (depth = 0 ∧ t.kind = .rightParen)) :
    inside? depth (t :: rest) = (inside? (depthAfter depth t.kind) rest).map (t :: ·) := by
  rw [inside?, if_neg h]

/-- Tokens of comparisons stand inside. -/
theorem inside?_compared (h : ∀ t ∈ tokens, t.kind.isCompared = true) :
    inside? depth (tokens ++ rest) = (inside? depth rest).map (tokens ++ ·) := by
  induction tokens with
  | nil => simp
  | cons t tokens ih =>
    obtain ⟨ht, htokens⟩ := List.forall_mem_cons.mp h
    obtain ⟨hnot, hclose, hdepth⟩ := ordinary_of_isCompared ht
    rw [List.cons_append, inside?_cons (by simp [hclose]), hdepth, ih htokens]
    simp [Function.comp_def]

/-- What stands inside begins with any layout that follows the opening parenthesis. -/
theorem inside?_layout {l : Layout} (hl : l.Proper) (depth : Nat) (rest : List Token) :
    inside? depth (l.tokens ++ rest) = (inside? depth rest).map (l.tokens ++ ·) := by
  induction l generalizing depth rest with
  | comparison c => exact inside?_compared hl.isCompared
  | paren p l q ih =>
    obtain ⟨hp, hl, hq⟩ := hl
    rw [Layout.tokens, List.cons_append, inside?_cons (by simp [hp]), hp, depthAfter,
      List.append_assoc, ih hl, List.singleton_append, inside?_cons (by simp), hq]
    simp [depthAfter, Function.comp_def]
  | negation t l ih =>
    obtain ⟨ht, hl⟩ := hl
    rw [Layout.tokens, List.cons_append, inside?_cons (by simp [ht]), ht, depthAfter, ih hl]
    · simp [Function.comp_def]
    all_goals simp
  | boolean t op l r ihl ihr =>
    obtain ⟨⟨ht, hl, hr⟩, -⟩ := hl
    obtain ⟨-, hclose, hdepth⟩ := ordinary_of_ofKind? ht
    rw [Layout.tokens, List.append_assoc, ihl hl, List.cons_append, inside?_cons (by simp [hclose]),
      hdepth, ihr hr]
    simp [Function.comp_def]

end

namespace Pieces

/-- The trees of further pieces joined to the tree on their left. -/
def joinFrom? (op : BooleanOperator) (read : List Token → Option Condition) (left : Condition)
    (rest : List (Token × List Token)) : Option Condition :=
  rest.foldlM (fun left cut ↦ (read cut.2).map (.boolean cut.1 op left)) left

/-- The first piece is joined to the others. -/
theorem join?_eq (op : BooleanOperator) (read : List Token → Option Condition) (p : Pieces) :
    p.join? op (fun piece _ ↦ read piece) =
      (read p.first).bind fun first ↦ joinFrom? op read first p.rest := by
  unfold join? joinFrom?
  congr 1
  funext first
  rw [List.foldlM_subtype (g := fun left cut ↦ (read cut.2).map (.boolean cut.1 op left)),
    List.unattach_attach]
  exact fun left cut h ↦ rfl

end Pieces

section

variable {op : BooleanOperator} {read : List Token → Option Condition}

-- What follows a layout that binds tighter than an operator, and the operator behind it, is joined
-- to the tree of the layout.
private theorem join?_tight {l : Layout} (hl : l.Proper) (ho : l.isOpen = false)
    (hop : op.binding < l.binding) (hread : read l.tokens = some l.tree) {t : Token}
    (ht : BooleanOperator.ofKind? t.kind = some op) (rest : List Token) :
    (cut op 0 (l.tokens ++ t :: rest)).join? op (fun piece _ ↦ read piece) =
      Pieces.joinFrom? op read l.tree ((t, (cut op 0 rest).first) :: (cut op 0 rest).rest) := by
  rw [cut_tight hl hop (.inl ho), cut_operator ht, Pieces.join?_eq]
  simp [hread]

private theorem join?_chain {l : Layout} (hl : l.Proper) (ho : l.isOpen = false)
    (hop : op.binding ≤ l.binding)
    (hread : ∀ p : Layout, p.Proper → op.binding < p.binding →
      p.tokens.length ≤ l.tokens.length → read p.tokens = some p.tree)
    {t : Token} (ht : BooleanOperator.ofKind? t.kind = some op) (rest : List Token) :
    (cut op 0 (l.tokens ++ t :: rest)).join? op (fun piece _ ↦ read piece) =
      Pieces.joinFrom? op read l.tree ((t, (cut op 0 rest).first) :: (cut op 0 rest).rest) := by
  induction l generalizing t rest with
  | boolean t' op' l r ihl _ =>
    rcases Nat.lt_or_eq_of_le hop with hlt | heq
    · exact join?_tight hl ho hlt (hread _ hl hlt (Nat.le_refl _)) ht rest
    obtain rfl : op = op' := BooleanOperator.binding_inj heq
    obtain ⟨⟨ht', hl, hr⟩, hol, hopl, hopr⟩ := hl
    have hlength : (Layout.boolean t' op l r).tokens.length =
        l.tokens.length + (r.tokens.length + 1) := by simp [Layout.tokens]
    have hleft := ihl hl hol hopl (fun p hp hop hle ↦ hread p hp hop (by omega)) ht'
      (r.tokens ++ t :: rest)
    have hright : read r.tokens = some r.tree := hread r hr hopr (by omega)
    have hbehind : cut op 0 (r.tokens ++ t :: rest) =
        ⟨r.tokens, (t, (cut op 0 rest).first) :: (cut op 0 rest).rest⟩ := by
      rw [cut_tight hr hopr (.inl ho), cut_operator ht]
      simp [Pieces.prepend]
    rw [Layout.tokens, List.append_assoc, List.cons_append, hleft, hbehind]
    simp [Pieces.joinFrom?, hright, Layout.tree]
  | _ =>
    have hlt := op.binding_lt_three
    exact join?_tight hl ho hlt (hread _ hl hlt (Nat.le_refl _)) ht rest

private theorem join?_layout {l : Layout} (hl : l.Proper) (hop : op.binding ≤ l.binding)
    (hread : ∀ p : Layout, p.Proper → op.binding < p.binding →
      p.tokens.length ≤ l.tokens.length → read p.tokens = some p.tree) :
    (cut op 0 l.tokens).join? op (fun piece _ ↦ read piece) = some l.tree := by
  have hwhole {p : Layout} (hp : p.Proper) (hlt : op.binding < p.binding) :
      cut op 0 p.tokens = ⟨p.tokens, []⟩ := by
    have h := cut_tight hp hlt (.inr rfl)
    rw [List.append_nil] at h
    rw [h]
    simp [cut, Pieces.prepend]
  rcases Nat.lt_or_eq_of_le hop with hlt | heq
  · rw [hwhole hl hlt, Pieces.join?_eq, hread l hl hlt (Nat.le_refl _)]
    rfl
  cases l with
  | boolean t op' l r =>
    obtain rfl : op = op' := BooleanOperator.binding_inj heq
    obtain ⟨⟨ht, hl, hr⟩, ho, hopl, hopr⟩ := hl
    have hlength : (Layout.boolean t op l r).tokens.length =
        l.tokens.length + (r.tokens.length + 1) := by simp [Layout.tokens]
    have hright : read r.tokens = some r.tree := hread r hr hopr (by omega)
    rw [Layout.tokens, join?_chain hl ho hopl (fun p hp hop hle ↦ hread p hp hop (by omega)) ht,
      hwhole hr hopr]
    simp [Pieces.joinFrom?, hright, Layout.tree]
  | _ => exact absurd heq (Nat.ne_of_lt op.binding_lt_three)

end

private theorem piece?_layout {l : Layout} (hl : l.Proper)
    (hop : BooleanOperator.and.binding < l.binding)
    (hrange : ∀ p : Layout, p.Proper → p.tokens.length < l.tokens.length →
      range? p.tokens = some p.tree) :
    piece? l.tokens = some l.tree := by
  cases l with
  | comparison c =>
    have hkind : c.left.token.kind.isCompared = true := hl.isCompared _ (List.mem_cons_self ..)
    obtain ⟨hleft, hmark, hright⟩ := hl
    have hcomparison : comparison? (Layout.comparison c).tokens = some (.comparison c) := by
      simp [Layout.tokens, comparison?, hleft, hmark, hright]
    rw [← Layout.tree] at hcomparison
    rw [← hcomparison, Layout.tokens, piece?]
    cases hk : c.left.token.kind <;> simp_all [TokenKind.isCompared]
  | paren p l q =>
    obtain ⟨hp, hl, hq⟩ := hl
    have hinside : inside? 0 (l.tokens ++ [q]) = some l.tokens := by
      rw [inside?_layout hl]
      simp [inside?, hq]
    have hlt : l.tokens.length < (Layout.paren p l q).tokens.length := by
      simp only [Layout.tokens, List.length_cons, List.length_append]
      omega
    have h := hrange l hl hlt
    rw [Layout.tokens, piece?]
    simp only [hp]
    split
    next inner hinner =>
      obtain rfl : l.tokens = inner := Option.some.inj (hinside.symm.trans hinner)
      exact h
    next hnone => simp [hinside] at hnone
  | negation t l =>
    obtain ⟨ht, hl⟩ := hl
    have h := hrange l hl (by simp [Layout.tokens])
    rw [Layout.tokens, piece?]
    simp [ht, h, Layout.tree]
  | boolean t op l r => cases op <;> simp [Layout.binding, BooleanOperator.binding] at hop

/-- A range with a proper layout has the tree of the layout. -/
theorem range?_tokens {l : Layout} (hl : l.Proper) : range? l.tokens = some l.tree := by
  generalize hn : l.tokens.length = n
  induction n using Nat.strongRecOn generalizing l with
  | ind n ih =>
    have hpiece (p : Layout) (hp : p.Proper) (hop : BooleanOperator.and.binding < p.binding)
        (hle : p.tokens.length ≤ n) : piece? p.tokens = some p.tree :=
      piece?_layout hp hop fun q hq hlt ↦ ih q.tokens.length (by omega) hq rfl
    have hconjunction (p : Layout) (hp : p.Proper) (hop : BooleanOperator.or.binding < p.binding)
        (hle : p.tokens.length ≤ n) : conjunction? p.tokens = some p.tree := by
      rw [conjunction?]
      exact join?_layout hp hop fun q hq hop hlt ↦ hpiece q hq hop (by omega)
    rw [range?]
    exact join?_layout hl l.binding_pos fun p hp hop hle ↦ hconjunction p hp hop (by omega)

/-- The tokens between `WHERE` and the semicolon, if there is a `WHERE`. -/
def clause? (tokens : List Token) : Option (List Token) :=
  match tokens.dropWhile (·.kind ≠ .whereKw) with
  | [] => none
  | _ :: behind => some (behind.takeWhile (·.kind ≠ .semicolon))

end Splitting

private theorem Column.Spelled.kind_ne_whereKw {c : Column} {tokens : List Token}
    (h : c.Spelled tokens) : ∀ t ∈ tokens, t.kind ≠ .whereKw := by
  cases h with
  | name hn => simp [hn]
  | aliased hn ht ha => simp [hn, ht, ha]

private theorem Projection.ColumnsSpelled.kind_ne_whereKw {columns : List Column}
    {tokens : List Token} (h : ColumnsSpelled columns tokens) :
    ∀ t ∈ tokens, t.kind ≠ .whereKw := by
  induction h with
  | single hc => exact hc.kind_ne_whereKw
  | more _ ht hc ih =>
    intro u hu
    rcases List.mem_append.mp hu with hu | hu
    · exact ih u hu
    · rcases List.mem_cons.mp hu with rfl | hu
      · simp [ht]
      · exact hc.kind_ne_whereKw u hu

/-- What precedes a condition holds no `WHERE`. -/
theorem Header.Spelled.kind_ne_whereKw {h : Header} {tokens : List Token}
    (hh : h.Spelled tokens) : ∀ t ∈ tokens, t.kind ≠ .whereKw := by
  obtain ⟨htoken, hp, ht, htable⟩ := hh
  rename_i t tokens
  have hprojection : ∀ u ∈ tokens, u.kind ≠ .whereKw := by
    cases hproj : h.projection with
    | wildcard star =>
      rw [hproj] at hp
      obtain ⟨hstar, rfl⟩ := hp
      simp [hstar]
    | columns list =>
      rw [hproj] at hp
      exact Projection.ColumnsSpelled.kind_ne_whereKw hp
  simp only [List.forall_mem_cons, List.forall_mem_append]
  exact ⟨by simp [htoken], hprojection, by simp [ht], by simp [htable], by simp⟩

/-- What precedes a condition is passed over in search of a `WHERE`. -/
theorem dropWhile_header {h : Header} {tokens : List Token} (hh : h.Spelled tokens)
    (rest : List Token) : (tokens ++ rest).dropWhile (·.kind ≠ .whereKw) =
      rest.dropWhile (·.kind ≠ .whereKw) :=
  List.dropWhile_append_of_pos (by simpa using hh.kind_ne_whereKw)

open Splitting in
private theorem Statement.Spelled.condition?_eq {s : Statement} {n : Nat} {tokens : List Token}
    (h : s.Spelled n tokens) (offset : Nat) :
    s.condition?.map some = (clause? (tokens ++ [.eof offset])).map range? := by
  cases h with
  | @unconditional h t tokens hh ht =>
    have hnone : clause? (tokens ++ [t] ++ [.eof offset]) = none := by
      rw [clause?, List.append_assoc, dropWhile_header hh]
      simp [ht, Token.eof]
    rw [hnone]
    rfl
  | @conditional h l w t tokens hh hw hl ht =>
    have hsome : clause? (tokens ++ [w] ++ l.tokens ++ [t] ++ [.eof offset]) = some l.tokens := by
      have htake : (l.tokens ++ t :: [.eof offset]).takeWhile (·.kind ≠ .semicolon) = l.tokens := by
        have hne : ∀ t ∈ l.tokens, t.kind ≠ .semicolon := fun t ht ↦ (hl.marked.kind_ne t ht).1
        rw [List.takeWhile_append_of_pos (by simpa using hne)]
        simp [ht]
      rw [clause?, List.append_assoc, List.append_assoc, List.append_assoc, dropWhile_header hh]
      simpa [hw] using htake
    rw [hsome, Option.map_some, range?_tokens hl]
    rfl

/-- The condition of a statement that was parsed is the tree of the tokens between `WHERE` and the
semicolon, found by splitting; a statement without a condition has no `WHERE`. -/
theorem condition?_eq_range? {limit : Nat} {source : String} {s : Statement}
    (h : parseWithin limit source = .ok s) :
    ∃ tokens, tokenize source = .ok tokens ∧
      s.condition?.map some = (Splitting.clause? tokens).map Splitting.range? := by
  obtain ⟨hrun, offset, hending⟩ := parseWithin_eq_ok_iff.mp h
  obtain ⟨n, -, hspelled⟩ := Parser.State.run?_start_eq_complete_iff.mp hrun
  exact ⟨_, tokenize_eq_ok_iff.mpr ⟨offset, hending, rfl⟩, hspelled.condition?_eq offset⟩

/-- A source with a chain in parentheses inside of another, and a `NOT` that takes the rest of
both. -/
def negationInChain : String :=
  "SELECT a FROM t WHERE a = 1 OR (b = 2 OR c = 3) AND NOT d = 4 AND e = 5 OR f = 6;"

/-- What follows the `NOT` is cut on its own, at both of its operators. -/
theorem condition?_eq_range?_negationInChain : ∃ s c tokens, parseWithin 3 negationInChain = .ok s ∧
    s.condition? = some c ∧ tokenize negationInChain = .ok tokens ∧
    (Splitting.clause? tokens).bind Splitting.range? = some c ∧
    c.outline = "OR(Compare(a = 1), AND(OR(Compare(b = 2), Compare(c = 3)), " ++
      "NOT(OR(AND(Compare(d = 4), Compare(e = 5)), Compare(f = 6)))))" := by
  have houtline : (parseWithin 3 negationInChain).toOption.map
      (fun s ↦ s.condition?.map Condition.outline) =
      some (some ("OR(Compare(a = 1), AND(OR(Compare(b = 2), Compare(c = 3)), " ++
        "NOT(OR(AND(Compare(d = 4), Compare(e = 5)), Compare(f = 6)))))")) := by decide +kernel
  obtain ⟨s, h, houtline⟩ := exists_parseWithin_eq_ok houtline
  obtain ⟨c, hc, houtline⟩ := Option.map_eq_some_iff.mp houtline
  obtain ⟨tokens, htokens, hrange⟩ := condition?_eq_range? h
  rw [hc, Option.map_some] at hrange
  obtain ⟨range, hclause, hrange⟩ := Option.map_eq_some_iff.mp hrange.symm
  exact ⟨s, c, tokens, h, hc, htokens, by rw [hclause, Option.bind_some, hrange], houtline⟩

end SelectQuery
