import SelectQuery.Proofs.Spelling

/-!
# What a state has consumed

Which tokens lead to a parser state. A state holds every token consumed but the words and marks
that its place in the grammar implies, so its tokens spell what it holds: finished columns, and in
a condition the frames from the outermost in and then the last condition. Taking a token keeps
this up (`Parser.State.Consumed.step`), so that every statement made is spelled by its source.
-/

namespace SelectQuery

namespace Frame

/-- The tokens that lead to what is open in a condition, behind the tokens of `head`. The frames
come innermost first; a chain keeps a layout of what stands to the left of its operator. -/
inductive Spelled (head : List Token) : List Frame → List Token → Prop where
  | nil : Spelled head [] head
  | paren {frames : List Frame} {p : Token} {tokens : List Token} : Spelled head frames tokens →
      p.kind = .leftParen → Spelled head (paren :: frames) (tokens ++ [p])
  | negation {frames : List Frame} {t : Token} {tokens : List Token} :
      Spelled head frames tokens → t.kind = .notKw →
      Spelled head (negation t :: frames) (tokens ++ [t])
  | chain {frames : List Frame} {f : Frame} {op : BooleanOperator} {l : Layout}
      {t : Token} {tokens : List Token} : Spelled head frames tokens → l.Proper → l.isOpen = false →
      op.binding ≤ l.binding → binding frames < op.binding →
      BooleanOperator.ofKind? t.kind = some op → f = Frame.chain op l.tree t →
      Spelled head (f :: frames) (tokens ++ l.tokens ++ [t])

private theorem binding_lt_three (frames : List Frame) : binding frames < 3 := by
  match frames with
  | [] | paren :: _ | negation _ :: _ | conjunct _ _ :: _ | disjunct _ _ :: _ =>
    simp [binding, BooleanOperator.binding]

private theorem binding_lt_or_chain (op : BooleanOperator) (frames : List Frame) :
    binding frames < op.binding ∨ ∃ op' left t frames',
      frames = Frame.chain op' left t :: frames' ∧ op.binding ≤ op'.binding := by
  match op, frames with
  | .and, [] | .and, paren :: _ | .and, negation _ :: _ | .or, [] | .or, paren :: _
  | .or, negation _ :: _ | .and, disjunct _ _ :: _ =>
    exact .inl (by simp [binding, BooleanOperator.binding])
  | .and, conjunct left t :: frames => exact .inr ⟨.and, left, t, frames, rfl, by decide⟩
  | .or, conjunct left t :: frames => exact .inr ⟨.and, left, t, frames, rfl, by decide⟩
  | .or, disjunct left t :: frames => exact .inr ⟨.or, left, t, frames, rfl, by decide⟩

namespace Spelled

variable {head tokens : List Token}

/-- A chain and the layout of its right side are together the layout of a boolean node. -/
theorem fold {frames : List Frame} {op : BooleanOperator} {left : Condition} {t : Token}
    (h : Spelled head (Frame.chain op left t :: frames) tokens) {r : Layout} (hr : r.Proper)
    (hop : op.binding < r.binding) :
    ∃ tokens' : List Token, ∃ l : Layout, Spelled head frames tokens' ∧ l.Proper ∧
      l.isOpen = r.isOpen ∧ l.binding = op.binding ∧ l.tree = .boolean t op left r.tree ∧
      tokens' ++ l.tokens = tokens ++ r.tokens ∧ binding frames < op.binding := by
  generalize hf : Frame.chain op left t :: frames = frames' at h
  cases h with
  | nil => cases hf
  | paren | negation => cases op <;> simp [Frame.chain] at hf
  | @chain frames' f op' l t' tokens h hl ho hopl hb ht hfl =>
    obtain ⟨rfl, rfl⟩ := List.cons.inj hf
    obtain ⟨rfl, rfl, rfl⟩ : op = op' ∧ left = l.tree ∧ t = t' := by
      cases op <;> cases op' <;> simp_all [Frame.chain]
    exact ⟨tokens, .boolean t op l r, h, ⟨⟨ht, hl, hr⟩, ho, hopl, hop⟩, rfl, rfl, rfl,
      by simp [Layout.tokens], hb⟩

private theorem join_of_binding_le {frames : List Frame} (h : Spelled head frames tokens)
    {r : Layout} (hr : r.Proper) (ho : r.isOpen = false) (op : BooleanOperator)
    (hop : op.binding ≤ r.binding) (hb : binding frames < r.binding)
    (hle : binding frames ≤ op.binding) :
    ∃ tokens' : List Token, ∃ l : Layout, Spelled head (Frame.join op frames r.tree).1 tokens' ∧
      l.Proper ∧ l.isOpen = false ∧ l.tree = (Frame.join op frames r.tree).2 ∧
      tokens' ++ l.tokens = tokens ++ r.tokens ∧ op.binding ≤ l.binding ∧
      binding (Frame.join op frames r.tree).1 < op.binding := by
  rcases binding_lt_or_chain op frames with hlt | ⟨op', left, t, frames, rfl, hge⟩
  · rw [Frame.join_of_binding_lt hlt]
    exact ⟨tokens, r, h, hr, ho, rfl, rfl, hop, hlt⟩
  · rw [binding_chain] at hb hle
    obtain rfl : op' = op := BooleanOperator.binding_inj (Nat.le_antisymm hle hge)
    obtain ⟨tokens', l, h', hl, hol, hbl, htree, htokens, hlt⟩ := h.fold hr hb
    rw [Frame.join_chain (Nat.le_refl _) hlt]
    exact ⟨tokens', l, h', hl, hol.trans ho, htree, htokens, Nat.le_of_eq hbl.symm, hlt⟩

/-- An operator leaves a layout of all that it joins. -/
theorem join {frames : List Frame} (h : Spelled head frames tokens) {r : Layout} (hr : r.Proper)
    (ho : r.isOpen = false) (hb : r.binding = 3) (op : BooleanOperator) :
    ∃ tokens' : List Token, ∃ l : Layout, Spelled head (Frame.join op frames r.tree).1 tokens' ∧
      l.Proper ∧ l.isOpen = false ∧ l.tree = (Frame.join op frames r.tree).2 ∧
      tokens' ++ l.tokens = tokens ++ r.tokens ∧ op.binding ≤ l.binding ∧
      binding (Frame.join op frames r.tree).1 < op.binding := by
  have hlt : binding frames < r.binding := hb ▸ binding_lt_three frames
  have hand := h.join_of_binding_le hr ho .and (by rw [hb]; decide) hlt
    (Nat.le_of_lt_succ (binding_lt_three frames))
  cases op with
  | and => exact hand
  | or =>
    -- The conjunction is joined first; what holds on to it then is a disjunction at most.
    obtain ⟨tokens₁, l₁, h₁, hl₁, ho₁, htree₁, htokens₁, hop₁, hb₁⟩ := hand
    have hor : Frame.join .or frames r.tree =
        Frame.join .or (Frame.join .and frames r.tree).1 l₁.tree := by
      rw [Frame.join_or, Frame.join_or, Frame.join_of_binding_lt hb₁, htree₁]
    obtain ⟨tokens₂, l₂, h₂, hl₂, ho₂, htree₂, htokens₂, hop₂, hb₂⟩ :=
      h₁.join_of_binding_le hl₁ ho₁ .or (Nat.le_of_succ_le hop₁)
        (Nat.lt_of_lt_of_le hb₁ hop₁) (Nat.le_of_lt_succ hb₁)
    rw [hor]
    exact ⟨tokens₂, l₂, h₂, hl₂, ho₂, htree₂, htokens₂.trans htokens₁, hop₂, hb₂⟩

/-- Closing leaves a layout of all that stands inside the innermost open parenthesis. -/
theorem close {frames : List Frame} (h : Spelled head frames tokens) {r : Layout} (hr : r.Proper)
    (hb : binding frames < r.binding) :
    ∃ tokens' : List Token, ∃ l : Layout, Spelled head (Frame.close frames r.tree).1 tokens' ∧
      l.Proper ∧ l.tree = (Frame.close frames r.tree).2 ∧
      tokens' ++ l.tokens = tokens ++ r.tokens := by
  induction frames generalizing r tokens with
  | nil => exact ⟨tokens, r, h, hr, rfl, rfl⟩
  | cons f frames ih =>
    -- A chain takes the layout as its right side and goes on as the layout of a boolean node.
    have hchain : ∀ op left t, f = Frame.chain op left t → ∃ tokens' : List Token,
        ∃ l : Layout, Spelled head (Frame.close (f :: frames) r.tree).1 tokens' ∧ l.Proper ∧
          l.tree = (Frame.close (f :: frames) r.tree).2 ∧
          tokens' ++ l.tokens = tokens ++ r.tokens := by
      rintro op left t rfl
      rw [binding_chain] at hb
      obtain ⟨tokens', l, h', hl, -, hbl, htree, htokens, hlt⟩ := h.fold hr hb
      obtain ⟨tokens'', l', h'', hl', htree', htokens'⟩ := ih h' hl (hbl ▸ hlt)
      rw [Frame.close_chain, ← htree]
      exact ⟨tokens'', l', h'', hl', htree', htokens'.trans htokens⟩
    cases f with
    | paren => exact ⟨tokens, r, h, hr, rfl, rfl⟩
    | conjunct left t => exact hchain .and left t rfl
    | disjunct left t => exact hchain .or left t rfl
    | negation t =>
      cases h with
      | @negation _ _ tokens h ht =>
        obtain ⟨tokens', l, h', hl, htree, htokens⟩ :=
          ih h (r := .negation t r) ⟨ht, hr⟩ (binding_lt_three frames)
        exact ⟨tokens', l, h', hl, htree, by simp [htokens, Layout.tokens]⟩
      | @chain _ _ op _ _ _ _ _ _ _ _ _ hf => cases op <;> cases hf

end Spelled

end Frame

namespace Parser.State

open Projection (ColumnsSpelled)

/-- The tokens that lead to what is open in the condition of a statement. -/
inductive Opened (h : Header) (frames : List Frame) : List Token → Prop where
  | intro {w : Token} {head tokens : List Token} : h.Spelled head → w.kind = .whereKw →
      Frame.Spelled (head ++ [w]) frames tokens → Opened h frames tokens

/-- The tokens that lead to a state, from the beginning of the statement on. -/
def Consumed : State → List Token → Prop
  | start, tokens => tokens = []
  | projection token, tokens => token.kind = .selectKw ∧ tokens = [token]
  | wildcard token star, tokens =>
    token.kind = .selectKw ∧ star.kind = .star ∧ tokens = [token, star]
  | column token columns, tokens =>
    token.kind = .selectKw ∧ ∃ cs t, ColumnsSpelled columns cs ∧ t.kind = .comma ∧
      tokens = token :: (cs ++ [t])
  | columnName token columns name, tokens =>
    token.kind = .selectKw ∧ ∃ cs, ColumnsSpelled (⟨name, none⟩ :: columns) cs ∧
      tokens = token :: cs
  | columnAlias token columns name, tokens =>
    token.kind = .selectKw ∧ ∃ cs t, ColumnsSpelled (⟨name, none⟩ :: columns) cs ∧
      t.kind = .asKw ∧ tokens = token :: (cs ++ [t])
  | columnEnd token columns, tokens =>
    token.kind = .selectKw ∧ ∃ cs, ColumnsSpelled columns cs ∧ tokens = token :: cs
  | table token list, tokens =>
    token.kind = .selectKw ∧ ∃ cs t, list.Spelled cs ∧ t.kind = .fromKw ∧
      tokens = token :: (cs ++ [t])
  | tableName h, tokens => h.Spelled tokens
  | expression h frames, tokens => Opened h frames tokens ∧ Frame.binding frames = 0
  | condition h frames, tokens => Opened h frames tokens
  | operator h frames left, tokens =>
    Operand.ofToken? left.token = some left ∧ ∃ ts, Opened h frames ts ∧
      tokens = ts ++ [left.token]
  | operand h frames left op token, tokens =>
    Operand.ofToken? left.token = some left ∧ ComparisonOperator.ofKind? token.kind = some op ∧
      ∃ ts, Opened h frames ts ∧ tokens = ts ++ [left.token, token]
  | conditionEnd h frames c, tokens =>
    ∃ ts, ∃ l : Layout, Opened h frames ts ∧ l.Proper ∧ l.isOpen = false ∧ l.binding = 3 ∧
      l.tree = c ∧ tokens = ts ++ l.tokens
  | complete statement, tokens => ∃ n, statement.Spelled n tokens

/-- An operand holds the token that it is made of. -/
theorem token_of_ofToken? {t : Token} {o : Operand} (h : Operand.ofToken? t = some o) :
    o.token = t := by
  unfold Operand.ofToken? at h
  split at h <;> cases h <;> rfl

private theorem columnsSpelled_alias {columns : List Column} {name a : Identifier}
    {cs : List Token} {t : Token} (h : ColumnsSpelled (⟨name, none⟩ :: columns) cs)
    (ht : t.kind = .asKw) (ha : a.token.kind = .identifier) :
    ColumnsSpelled (⟨name, some a⟩ :: columns) (cs ++ [t, a.token]) := by
  cases h with
  | single hc =>
    cases hc with
    | name hn => exact .single (.aliased hn ht ha)
  | @more _ _ t' tokens _ h ht' hc =>
    cases hc with
    | name hn =>
      have hl : tokens ++ t' :: [name.token] ++ [t, a.token] =
          tokens ++ t' :: [name.token, t, a.token] := by simp
      rw [hl]
      exact .more h ht' (.aliased hn ht ha)

private theorem Consumed.beginCondition {h : Header} {frames : List Frame} {tokens : List Token}
    {t : Token} {s : State} (ho : Opened h frames tokens)
    (hs : beginCondition? h frames t = some s) : s.Consumed (tokens ++ [t]) := by
  obtain ⟨hh, hw, hf⟩ := ho
  unfold beginCondition? at hs
  split at hs
  next hk =>
    obtain rfl := Option.some.inj hs
    exact ⟨⟨hh, hw, .paren hf hk⟩, rfl⟩
  next hk =>
    obtain rfl := Option.some.inj hs
    exact ⟨⟨hh, hw, .negation hf hk⟩, rfl⟩
  next =>
    obtain ⟨o, hto, rfl⟩ := Option.map_eq_some_iff.mp hs
    obtain rfl := token_of_ofToken? hto
    exact ⟨hto, tokens, ⟨hh, hw, hf⟩, rfl⟩

private theorem Consumed.endCondition {h : Header} {frames : List Frame} {c : Condition}
    {tokens : List Token} {t : Token} {s : State}
    (hc : (conditionEnd h frames c).Consumed tokens) {limit : Nat}
    (hs : (conditionEnd h frames c).step? limit t = some s) : s.Consumed (tokens ++ [t]) := by
  obtain ⟨ts, l, ⟨hh, hw, hf⟩, hl, ho, hb, rfl, rfl⟩ := hc
  have hlt : Frame.binding frames < l.binding := hb ▸ Frame.binding_lt_three frames
  obtain ⟨ts', l', hf', hl', htree', htokens'⟩ := hf.close hl hlt
  have hchain : ∀ op, BooleanOperator.ofKind? t.kind = some op →
      s.Consumed (ts ++ l.tokens ++ [t]) := by
    intro op hop
    rw [step?_chain hop] at hs
    obtain rfl := Option.some.inj hs
    obtain ⟨ts', l', hf', hl', ho', htree', htokens', hop', hb'⟩ := hf.join hl ho hb op
    rw [← htokens']
    exact ⟨hh, hw, .chain hf' hl' ho' hop' hb' hop (by rw [htree'])⟩
  have hs' : endCondition? h frames l.tree t = some s := hs
  unfold endCondition? at hs'
  split at hs'
  next hk => exact hchain .and (by rw [hk]; rfl)
  next hk => exact hchain .or (by rw [hk]; rfl)
  next hk =>
    split at hs'
    next f frames' c' hclose =>
      obtain rfl := Option.some.inj hs'
      obtain rfl : f = .paren := by
        have hp := Frame.close_eq_nil_or_paren frames l.tree
        simpa [hclose] using hp
      rw [hclose] at hf' htree'
      cases hf' with
      | @paren _ p ts' hf' hp =>
        refine ⟨ts', .paren p l' t, ⟨hh, hw, hf'⟩, ⟨hp, hl', hk⟩, rfl, rfl, htree', ?_⟩
        simp [← htokens', Layout.tokens]
      | @chain _ _ op _ _ _ _ _ _ _ _ _ hf => cases op <;> cases hf
    next => cases hs'
  next hk =>
    split at hs'
    next => cases hs'
    next c' hclose =>
      obtain rfl := Option.some.inj hs'
      rw [hclose] at hf' htree'
      cases hf' with
      | nil =>
        obtain rfl : l'.tree = c' := htree'
        rw [← htokens']
        exact ⟨_, .conditional hh hw hl' hk⟩
  next => cases hs'

/-- Taking a token keeps up what has been consumed. -/
theorem Consumed.step {s s' : State} {tokens : List Token} {t : Token} {limit : Nat}
    (h : s.Consumed tokens) (hs : s.step? limit t = some s') : s'.Consumed (tokens ++ [t]) := by
  cases s with
  | start =>
    obtain rfl := h
    simp only [step?] at hs
    split at hs
    next hk => cases hs; exact ⟨hk, rfl⟩
    next => cases hs
  | projection token =>
    obtain ⟨htoken, rfl⟩ := h
    simp only [step?] at hs
    split at hs
    next hk => cases hs; exact ⟨htoken, hk, rfl⟩
    next hk => cases hs; exact ⟨htoken, [t], .single (.name hk), rfl⟩
    next => cases hs
  | wildcard token star =>
    obtain ⟨htoken, hstar, rfl⟩ := h
    simp only [step?] at hs
    split at hs
    next hk => cases hs; exact ⟨htoken, [star], t, ⟨hstar, rfl⟩, hk, rfl⟩
    next => cases hs
  | column token columns =>
    obtain ⟨htoken, cs, t', hcs, ht', rfl⟩ := h
    simp only [step?] at hs
    split at hs
    next hk => cases hs; exact ⟨htoken, _, .more hcs ht' (.name hk), by simp⟩
    next => cases hs
  | columnName token columns name =>
    obtain ⟨htoken, cs, hcs, rfl⟩ := h
    simp only [step?] at hs
    split at hs
    next hk => cases hs; exact ⟨htoken, cs, t, hcs, hk, rfl⟩
    next hk => cases hs; exact ⟨htoken, cs, t, hcs, hk, rfl⟩
    next hk =>
      cases hs
      exact ⟨htoken, cs, t, by simpa [Projection.Spelled] using hcs, hk, rfl⟩
    next => cases hs
  | columnAlias token columns name =>
    obtain ⟨htoken, cs, t', hcs, ht', rfl⟩ := h
    simp only [step?] at hs
    split at hs
    next hk => cases hs; exact ⟨htoken, _, columnsSpelled_alias (a := ⟨t⟩) hcs ht' hk, by simp⟩
    next => cases hs
  | columnEnd token columns =>
    obtain ⟨htoken, cs, hcs, rfl⟩ := h
    simp only [step?] at hs
    split at hs
    next hk => cases hs; exact ⟨htoken, cs, t, hcs, hk, rfl⟩
    next hk =>
      cases hs
      exact ⟨htoken, cs, t, by simpa [Projection.Spelled] using hcs, hk, rfl⟩
    next => cases hs
  | table token list =>
    obtain ⟨htoken, cs, t', hcs, ht', rfl⟩ := h
    simp only [step?] at hs
    split at hs
    next hk =>
      cases hs
      have hh := Header.Spelled.intro (h := ⟨token, list, ⟨t⟩⟩) htoken hcs ht' hk
      simpa [Consumed] using hh
    next => cases hs
  | tableName h' =>
    simp only [step?] at hs
    split at hs
    next hk => cases hs; exact ⟨⟨h, hk, .nil⟩, rfl⟩
    next hk => cases hs; exact ⟨0, .unconditional h hk⟩
    next => cases hs
  | expression h' frames =>
    simp only [step?] at hs
    split at hs
    next => exact .beginCondition h.1 hs
    next => cases hs
  | condition h' frames => exact .beginCondition h hs
  | operator h' frames left =>
    obtain ⟨hleft, ts, ho, rfl⟩ := h
    obtain ⟨op, hop, rfl⟩ := Option.map_eq_some_iff.mp hs
    exact ⟨hleft, hop, ts, ho, by simp⟩
  | operand h' frames left op token =>
    obtain ⟨hleft, hop, ts, ho, rfl⟩ := h
    obtain ⟨right, hright, rfl⟩ := Option.map_eq_some_iff.mp hs
    obtain rfl := token_of_ofToken? hright
    exact ⟨ts, .comparison ⟨token, op, left, right⟩, ho, ⟨hleft, hop, hright⟩, rfl, rfl, rfl,
      by simp [Layout.tokens]⟩
  | conditionEnd h' frames c => exact .endCondition h hs
  | complete statement => cases hs

/-- The tokens that a run takes are consumed. -/
theorem Consumed.run {s s' : State} {tokens tokens' : List Token} {limit : Nat}
    (h : s.Consumed tokens) (hs : s.run? limit tokens' = some s') :
    s'.Consumed (tokens ++ tokens') := by
  induction tokens' generalizing s tokens with
  | nil =>
    obtain rfl := Option.some.inj hs
    simpa using h
  | cons t tokens' ih =>
    obtain ⟨s₁, hs₁, hs'⟩ := Option.bind_eq_some_iff.mp hs
    simpa using ih (h.step hs₁) hs'

/-- A run over a list of tokens makes a statement exactly when the tokens spell it and the limit
reaches as deep as they nest. -/
theorem run?_start_eq_complete_iff {limit : Nat} {tokens : List Token} {statement : Statement} :
    start.run? limit tokens = some (complete statement) ↔
      ∃ n ≤ limit, statement.Spelled n tokens := by
  constructor
  · intro hrun
    obtain ⟨n, hn⟩ : ∃ n, statement.Spelled n tokens := (show start.Consumed [] from rfl).run hrun
    rw [run?_of_spelled hn] at hrun
    by_cases hlimit : n ≤ limit
    · exact ⟨n, hlimit, hn⟩
    · simp [hlimit] at hrun
  · rintro ⟨n, hlimit, hn⟩
    rw [run?_of_spelled hn, if_pos hlimit]

end Parser.State

/-- A source is parsed as the statement that its tokens spell, if the limit reaches as deep as they
nest and no lexical error ends them. -/
theorem parseWithin_eq_ok_iff_spelled {limit : Nat} {source : String} {s : Statement} :
    parseWithin limit source = .ok s ↔
      ∃ n ≤ limit, s.Spelled n (Lexer.ofSource source).remaining.1 ∧
        ∃ stop, (Lexer.ofSource source).remaining.2 = .ok stop := by
  rw [parseWithin_eq_ok_iff, Parser.State.run?_start_eq_complete_iff]
  constructor
  · rintro ⟨⟨n, hn, hspelled⟩, hending⟩
    exact ⟨n, hn, hspelled, hending⟩
  · rintro ⟨n, hn, hspelled, hending⟩
    exact ⟨⟨n, hn, hspelled⟩, hending⟩

end SelectQuery
