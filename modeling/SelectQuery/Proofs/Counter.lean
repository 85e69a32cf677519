import SelectQuery.Parser.Descent
import SelectQuery.Proofs.Layout
import SelectQuery.Proofs.Run

/-!
# The counter of the descent

The frames of a state stand for the calls of the recursive descent that are under way. As long as
the levels taken from the limit are the expressions that the frames open, a call and the state that
begins in its place come to the same (`Agrees`). Every call keeps this up for the calls that it
makes and gives back all levels that it has taken, so a clause leaves the counter as it was
(`clause_snd`), and the states read it as the descent does (`conclude_eq_clause`).
-/

namespace SelectQuery

/-- Where an expression begins in a frame of its own, as many are open already as `nesting` counts
without that frame. -/
theorem Frame.countP_opens_cons {f : Frame} (h : f.opens = true) (frames : List Frame) :
    (f :: frames).countP opens = nesting frames := by
  rw [List.countP_cons_of_pos h, nesting, Nat.add_comm]

namespace Parser

namespace Levels

/-- A level given back makes up for the one taken. -/
theorem leave_of_enter? {levels inner : Levels} (h : levels.enter? = some inner) :
    inner.leave = levels := by
  obtain ⟨_ | n⟩ := levels <;> cases h
  rfl

/-- Where the levels taken are the expressions that the frames open, there is none left to take if
one more would exceed the limit, and only then. -/
theorem enter?_eq_none_iff {limit : Nat} {levels : Levels} {frames : List Frame}
    (h : levels.remaining + frames.countP Frame.opens = limit) :
    levels.enter? = none ↔ limit < Frame.nesting frames := by
  rw [Frame.nesting]
  obtain ⟨_ | n⟩ := levels
  · exact iff_of_true rfl (by dsimp only at h; omega)
  · exact iff_of_false (Option.some_ne_none _) (by dsimp only at h; omega)

/-- Inside an expression the levels taken are those that `Frame.nesting` counts. -/
theorem remaining_add_nesting {levels inner : Levels} (h : levels.enter? = some inner)
    (frames : List Frame) :
    inner.remaining + Frame.nesting frames =
      levels.remaining + frames.countP Frame.opens := by
  rw [← leave_of_enter? h, leave, Frame.nesting, Nat.add_assoc]

end Levels

namespace Descent

variable {ending : Except LexError Nat}

namespace Exit

variable {α β : Type} {m n limit : Nat} {exit : Exit α m}
  {next : (a : α) → (rest : List Token) → rest.length < m → Exit β n}

/-- What becomes of a statement when a procedure has ended and something is done behind what it has
read. -/
def followedBy (go : α → List Token → Except ParseError Statement) :
    Exit α n → Except ParseError Statement
  | read a rest _ => go a rest
  | failed e => .error e

/-- What becomes of a statement when a procedure has ended and a state goes on. -/
def conclude (limit : Nat) (ending : Except LexError Nat) (s : α → State) (exit : Exit α n) :
    Except ParseError Statement :=
  exit.followedBy fun a rest ↦ (s a).conclude limit ending rest

/-- What is done behind what has been read may be left to the procedure. -/
theorem followedBy_bind {go : α → List Token → Except ParseError Statement}
    {go' : β → List Token → Except ParseError Statement}
    (h : ∀ a rest shorter, go a rest = (next a rest shorter).followedBy go') :
    exit.followedBy go = (exit.bind next).followedBy go' := by
  cases exit with
  | read a rest shorter => exact h a rest shorter
  | failed e => rfl

/-- What a state does behind what has been read may be left to the procedure. -/
theorem conclude_bind {s : α → State} {s' : β → State} (h : ∀ a rest shorter,
      (s a).conclude limit ending rest = (next a rest shorter).conclude limit ending s') :
    exit.conclude limit ending s = (exit.bind next).conclude limit ending s' :=
  followedBy_bind h

end Exit

/-- No operator comes next that binds as tightly. -/
def Stops (tight : Nat) (tokens : List Token) : Prop :=
  ∀ t ∈ tokens.head?, ∀ op, BooleanOperator.ofKind? t.kind = some op → op.binding < tight

/-- Where nothing comes next that binds at all, no operator does. -/
theorem Stops.ofKind?_eq_none {tokens : List Token} {t : Token} (h : Stops 1 tokens)
    (ht : t ∈ tokens.head?) : BooleanOperator.ofKind? t.kind = none := by
  cases hop : BooleanOperator.ofKind? t.kind with
  | none => rfl
  | some op =>
    have hlt := h t ht op hop
    cases op <;> simp [BooleanOperator.binding] at hlt

section

variable {limit : Nat} {s : State} {tokens : List Token}

/-- A state that cannot take what comes next refuses it. -/
theorem conclude_of_step?_eq_none (hs : ∀ statement, s ≠ .complete statement)
    (hstep : ∀ t ∈ tokens.head?, s.step? limit t = none) :
    s.conclude limit ending tokens = .error (refusal ending (s.fault limit) tokens) := by
  cases tokens with
  | cons t rest => simp only [State.conclude, hstep t rfl, refusal]
  | nil =>
    cases ending with
    | error e => rfl
    | ok offset =>
      cases s with
      | complete statement => exact absurd rfl (hs statement)
      | _ => rfl

/-- A state that takes a token for what it makes is one that eats it. -/
theorem conclude_eq_take {α : Type} (make? : Token → Option α) (next : α → State)
    {fault : Token → SyntaxFault} (hs : ∀ statement, s ≠ .complete statement)
    (hstep : ∀ t ∈ tokens.head?, s.step? limit t = (make? t).map next)
    (hfault : s.fault limit = fault) :
    s.conclude limit ending tokens =
      (take ending make? fault tokens).conclude limit ending next := by
  subst hfault
  cases tokens with
  | nil => exact conclude_of_step?_eq_none hs (by simp)
  | cons t rest =>
    have ht := hstep t rfl
    cases hmake : make? t with
    | none => simp [State.conclude, ht, take, hmake, Exit.conclude, Exit.followedBy, refusal]
    | some a => simp [State.conclude, ht, take, hmake, Exit.conclude, Exit.followedBy]

/-- A state that takes a token of one kind only is one that eats it. -/
theorem conclude_eq_eat {kind : TokenKind} (next : Token → State)
    (hs : ∀ statement, s ≠ .complete statement)
    (hstep : ∀ t ∈ tokens.head?, s.step? limit t = if t.kind = kind then some (next t) else none)
    (hfault : ∀ t, s.fault limit t = .unexpectedToken kind.name t.kind.name) :
    s.conclude limit ending tokens = (eat ending kind tokens).conclude limit ending next := by
  refine conclude_eq_take _ next hs (fun t ht ↦ ?_) (funext hfault)
  rw [hstep t ht]
  split <;> rfl

/-- Behind its left operand a comparison is read to its end. -/
theorem conclude_operator (h : Header) (frames : List Frame) (left : Operand) :
    (State.operator h frames left).conclude limit ending tokens =
      (comparison ending left tokens).conclude limit ending (.conditionEnd h frames) := by
  refine (conclude_eq_take (fun t ↦ (ComparisonOperator.ofKind? t.kind).map (·, t))
    (fun op ↦ .operand h frames left op.1 op.2) (fun _ ↦ State.noConfusion) (fun t _ ↦ ?_)
      rfl).trans (Exit.conclude_bind fun op rest shorter ↦ ?_)
  · simp [State.step?, Function.comp_def]
  · exact (conclude_eq_take Operand.ofToken?
      (fun right ↦ .conditionEnd h frames (.comparison ⟨op.2, op.1, left, right⟩))
      (fun _ ↦ State.noConfusion) (fun _ _ ↦ rfl) rfl).trans (Exit.conclude_bind fun _ _ _ ↦ rfl)

/-- Within the limit an expression begins as a condition does. -/
theorem conclude_expression_of_le {frames : List Frame} (hn : Frame.nesting frames ≤ limit)
    (h : Header) : (State.expression h frames).conclude limit ending tokens =
      (State.condition h frames).conclude limit ending tokens := by
  cases tokens with
  | nil => cases ending <;> simp [State.conclude, State.fault, hn]
  | cons t rest => simp [State.conclude, State.step?, State.fault, hn]

/-- Beyond the limit an expression is refused, whatever it begins with. -/
theorem conclude_expression_of_lt {frames : List Frame} (hn : limit < Frame.nesting frames)
    (h : Header) : (State.expression h frames).conclude limit ending tokens =
      .error (refusal ending (fun _ ↦ .nestedTooDeeply) tokens) := by
  have hstep (t : Token) : (State.expression h frames).step? limit t = none :=
    if_neg (Nat.not_le.mpr hn)
  have hfault : (State.expression h frames).fault limit = fun _ ↦ .nestedTooDeeply :=
    funext fun t ↦ if_neg (Nat.not_le.mpr hn)
  rw [conclude_of_step?_eq_none (s := .expression h frames) (fun _ ↦ State.noConfusion)
    fun t _ ↦ hstep t, hfault]

/-- A condition may be moved out of its frames as far as nothing that can follow tells the
difference: neither an operator that comes next nor the end of what is open. -/
theorem conclude_conditionEnd_congr {frames frames' : List Frame} {c c' : Condition}
    (hjoin : ∀ t ∈ tokens.head?, ∀ op, BooleanOperator.ofKind? t.kind = some op →
      Frame.join op frames c = Frame.join op frames' c')
    (hclose : Frame.close frames c = Frame.close frames' c')
    (hparen : frames.contains .paren = frames'.contains .paren) (h : Header) :
    (State.conditionEnd h frames c).conclude limit ending tokens =
      (State.conditionEnd h frames' c').conclude limit ending tokens := by
  have hfault : (State.conditionEnd h frames c).fault limit =
      (State.conditionEnd h frames' c').fault limit := by
    funext t
    simp only [State.fault, hparen]
  cases tokens with
  | nil =>
    rw [conclude_of_step?_eq_none (fun _ ↦ State.noConfusion) (by simp),
      conclude_of_step?_eq_none (fun _ ↦ State.noConfusion) (by simp), hfault]
  | cons t rest =>
    have hstep : (State.conditionEnd h frames c).step? limit t =
        (State.conditionEnd h frames' c').step? limit t := by
      cases hop : BooleanOperator.ofKind? t.kind with
      | some op => rw [State.step?_chain hop, State.step?_chain hop, hjoin t rfl op hop]
      | none =>
        cases hk : t.kind <;>
          simp [State.step?, State.endCondition?, hk, hclose, BooleanOperator.ofKind?] at hop ⊢
    simp only [State.conclude, hstep, hfault]

/-- The innermost chain takes the condition as its right side where no operator follows that binds
tighter. -/
theorem conclude_chain {op : BooleanOperator} {frames : List Frame}
    (hf : Frame.binding frames < op.binding) (hstops : Stops (op.binding + 1) tokens) (h : Header)
    (left c : Condition) (t : Token) :
    (State.conditionEnd h (.chain op left t :: frames) c).conclude limit ending tokens =
      (State.conditionEnd h frames (.boolean t op left c)).conclude limit ending tokens := by
  refine conclude_conditionEnd_congr (fun u hu op' hop' ↦ ?_)
    (Frame.close_chain op left t frames c) ?_ h
  · have hle : op'.binding ≤ op.binding := Nat.le_of_lt_succ (hstops u hu op' hop')
    exact Frame.join_chain_of_binding_lt hle hf left t c
  · cases op <;> simp [Frame.chain]

/-- The innermost negation takes the condition where no operator follows. -/
theorem conclude_negation (hstops : Stops 1 tokens) (h : Header) (frames : List Frame)
    (c : Condition) (t : Token) :
    (State.conditionEnd h (.negation t :: frames) c).conclude limit ending tokens =
      (State.conditionEnd h frames (.negation t c)).conclude limit ending tokens := by
  refine conclude_conditionEnd_congr (fun u hu op hop ↦ ?_) ?_ ?_ h
  · rw [hstops.ofKind?_eq_none hu] at hop
    cases hop
  · rfl
  · simp

/-- The innermost parenthesis has to close where no operator follows. -/
theorem conclude_paren (hstops : Stops 1 tokens) (h : Header) (frames : List Frame)
    (c : Condition) :
    (State.conditionEnd h (.paren :: frames) c).conclude limit ending tokens =
      (eat ending .rightParen tokens).conclude limit ending
        fun _ ↦ .conditionEnd h frames c := by
  refine conclude_eq_eat _ (fun _ ↦ State.noConfusion) (fun t ht ↦ ?_) fun t ↦ ?_
  · have hop := hstops.ofKind?_eq_none ht
    cases hk : t.kind <;>
      simp [hk, BooleanOperator.ofKind?, State.step?, State.endCondition?, Frame.close] at hop ⊢
  · simp [State.fault, State.fault.expected]

/-- A statement that is complete behind a semicolon is finished there. -/
theorem conclude_semicolon (statement : Statement) :
    (eat ending .semicolon tokens).conclude limit ending (fun _ ↦ .complete statement) =
      finish ending statement tokens := by
  rw [finish]
  cases eat ending .semicolon tokens with
  | failed e => rfl
  | read a rest shorter => cases rest <;> cases ending <;> rfl

/-- Outside of all frames the statement has to end where no operator follows. -/
theorem conclude_conditionEnd_nil (hstops : Stops 1 tokens) (h : Header) (c : Condition) :
    (State.conditionEnd h [] c).conclude limit ending tokens =
      finish ending (h.statement (some c)) tokens := by
  rw [← conclude_semicolon]
  refine conclude_eq_eat _ (fun _ ↦ State.noConfusion) (fun t ht ↦ ?_) fun t ↦ ?_
  · have hop := hstops.ofKind?_eq_none ht
    cases hk : t.kind <;>
      simp [hk, BooleanOperator.ofKind?, State.step?, State.endCondition?, Frame.close] at hop ⊢
  · simp [State.fault, State.fault.expected]

end

/-- A procedure that has been called on the levels and in front of the tokens given agrees with the
states that begin there. It gives back the levels that it was given, and stops where no operator
comes next that binds as tightly as what it reads. Whatever frames stand around, the state goes on
as it does behind the procedure, if these frames hold less tightly and open as many expressions as
levels are taken from the limit. -/
structure Agrees (ending : Except LexError Nat) (begins : Header → List Frame → State)
    (taken : List Frame → Nat) (tight : Nat) (levels : Levels) (tokens : List Token) {n : Nat}
    (result : Exit Condition n × Levels) : Prop where
  levels_eq : result.2 = levels
  stops : ∀ c rest shorter, result.1 = .read c rest shorter → Stops tight rest
  conclude_eq : ∀ limit h frames, Frame.binding frames < tight →
    levels.remaining + taken frames = limit →
      (begins h frames).conclude limit ending tokens =
        result.1.conclude limit ending (.conditionEnd h frames)

namespace Agrees

variable {begins begins' : Header → List Frame → State} {taken taken' : List Frame → Nat}
  {tight tight' m n : Nat} {levels : Levels} {tokens tokens' : List Token}

/-- A state that comes to the same may take the place of the one that begins. -/
theorem of_conclude_eq {result : Exit Condition n × Levels}
    (hagrees : Agrees ending begins' taken tight levels tokens' result)
    (hbegins : ∀ limit h frames, Frame.binding frames < tight →
      (begins h frames).conclude limit ending tokens =
        (begins' h frames).conclude limit ending tokens') :
    Agrees ending begins taken tight levels tokens result where
  levels_eq := hagrees.levels_eq
  stops := hagrees.stops
  conclude_eq limit h frames hf hlevels :=
    (hbegins limit h frames hf).trans (hagrees.conclude_eq limit h frames hf hlevels)

/-- What no operator joins agrees if it comes to the same, since any operator binds less tightly. -/
theorem of_exit {exit : Exit Condition n} (hbegins : ∀ limit h frames,
      (begins h frames).conclude limit ending tokens =
        exit.conclude limit ending (.conditionEnd h frames)) :
    Agrees ending begins taken 3 levels tokens (exit, levels) where
  levels_eq := rfl
  stops _ _ _ _ _ _ op _ := op.binding_lt_three
  conclude_eq limit h frames _ _ := hbegins limit h frames

/-- A call inside of a procedure, and what the procedure does behind it. The call stands in a frame
of its own, or in none, and as many levels are taken for it as this frame says. -/
theorem andThen (push : List Frame → List Frame) {result : Exit Condition m × Levels}
    {next : (c : Condition) → (rest : List Token) → rest.length < m → Levels →
      Exit Condition n × Levels}
    (hcall : Agrees ending begins' taken' tight' levels tokens' result)
    (hbinding : ∀ frames, Frame.binding frames < tight → Frame.binding (push frames) < tight')
    (htaken : ∀ frames, taken' (push frames) = taken frames)
    (hbegins : ∀ limit h frames, Frame.binding frames < tight →
      (begins h frames).conclude limit ending tokens =
        (begins' h (push frames)).conclude limit ending tokens')
    (hnext : ∀ c rest shorter, Stops tight' rest →
      Agrees ending (fun h frames ↦ .conditionEnd h (push frames) c) taken tight levels rest
        (next c rest shorter levels)) :
    Agrees ending begins taken tight levels tokens (Exit.andThen result next) := by
  obtain ⟨exit, levels'⟩ := result
  obtain rfl : levels' = levels := hcall.levels_eq
  have hconclude limit h frames (hf : Frame.binding frames < tight)
      (hlevels : levels'.remaining + taken frames = limit) :
      (begins h frames).conclude limit ending tokens =
        exit.conclude limit ending (.conditionEnd h (push frames)) :=
    (hbegins limit h frames hf).trans
      (hcall.conclude_eq limit h _ (hbinding frames hf) (by rw [htaken, hlevels]))
  cases exit with
  | failed e =>
    refine ⟨rfl, ?_, hconclude⟩
    rintro _ _ _ ⟨⟩
  | read c rest shorter =>
    have hagrees := hnext c rest shorter (hcall.stops c rest shorter rfl)
    exact ⟨hagrees.levels_eq, hagrees.stops, fun limit h frames hf hlevels ↦
      (hconclude limit h frames hf hlevels).trans
        (hagrees.conclude_eq limit h frames hf hlevels)⟩

end Agrees

section

variable {tokens : List Token}

/-- An expression agrees if the chain in it does, one level further in. -/
theorem agrees_expression_of_chain {levels : Levels} (hchain : ∀ inner,
      Agrees ending .condition Frame.nesting BooleanOperator.or.binding inner tokens
        (chain ending .or inner tokens)) :
    Agrees ending .expression (List.countP Frame.opens) 1 levels tokens
      (expression ending levels tokens) := by
  rw [expression, Levels.within]
  cases hlevel : levels.enter? with
  | none =>
    refine ⟨rfl, by simp, fun limit h frames _ hlevels ↦ ?_⟩
    exact conclude_expression_of_lt ((Levels.enter?_eq_none_iff hlevels).mp hlevel) h
  | some inner =>
    have hinner := hchain inner
    refine ⟨?_, hinner.stops, fun limit h frames hf hlevels ↦ ?_⟩
    · dsimp only
      rw [hinner.levels_eq, Levels.leave_of_enter? hlevel]
    · have hnesting : inner.remaining + Frame.nesting frames = limit :=
        (Levels.remaining_add_nesting hlevel frames).trans hlevels
      rw [conclude_expression_of_le (hnesting ▸ Nat.le_add_left ..)]
      exact hinner.conclude_eq limit h frames hf hnesting

/-- A condition agrees if the expressions do that are shorter. -/
theorem agrees_condition (hexpression : ∀ rest : List Token, rest.length < tokens.length →
      ∀ levels, Agrees ending .expression (List.countP Frame.opens) 1 levels rest
        (expression ending levels rest)) (levels : Levels) :
    Agrees ending .condition Frame.nesting 3 levels tokens (condition ending levels tokens) := by
  cases tokens with
  | nil =>
    rw [condition]
    exact .of_exit fun _ _ _ ↦ conclude_of_step?_eq_none (fun _ ↦ State.noConfusion) (by simp)
  | cons t rest =>
    have hrest := hexpression rest (Nat.lt_succ_self _) levels
    rw [condition]
    split
    next hk =>
      refine hrest.andThen (.paren :: ·) (fun _ _ ↦ Nat.zero_lt_one) (Frame.countP_opens_cons rfl)
        (fun limit h frames _ ↦ ?_) fun c rest' shorter hstops ↦ .of_exit fun limit h frames ↦ ?_
      · simp [State.conclude, State.step?, State.beginCondition?, hk]
      · exact (conclude_paren hstops h frames c).trans (Exit.conclude_bind fun _ _ _ ↦ rfl)
    next hk =>
      refine hrest.andThen (.negation t :: ·) (fun _ _ ↦ Nat.zero_lt_one)
        (Frame.countP_opens_cons rfl) (fun limit h frames _ ↦ ?_) fun c rest' shorter hstops ↦
          .of_exit fun limit h frames ↦ ?_
      · simp [State.conclude, State.step?, State.beginCondition?, hk]
      · exact conclude_negation hstops h frames c t
    next hparen hnot =>
      split
      next left ht =>
        refine .of_exit fun limit h frames ↦ ?_
        simp only [State.conclude, State.step?_operand ht]
        exact (conclude_operator h frames left).trans (Exit.conclude_bind fun _ _ _ ↦ rfl)
      next ht =>
        refine .of_exit fun limit h frames ↦
          conclude_of_step?_eq_none (fun _ ↦ State.noConfusion) fun u hu ↦ ?_
        obtain rfl : t = u := by simpa using hu
        unfold State.step? State.beginCondition?
        split <;> simp_all

/-- The links of a chain agree if their right sides do, where no operator comes next that binds
tighter. -/
theorem agrees_links {n : Nat} {op : BooleanOperator} (hside : ∀ rest : List Token,
      rest.length < tokens.length → ∀ levels, Agrees ending .condition Frame.nesting
        (op.binding + 1) levels rest (side ending op levels rest))
    (hstops : Stops (op.binding + 1) tokens) (left : Condition) (levels : Levels)
    (shorter : tokens.length < n) :
    Agrees ending (fun h frames ↦ .conditionEnd h frames left) Frame.nesting op.binding levels
      tokens (links ending op left levels tokens shorter) := by
  induction hn : tokens.length using Nat.strongRecOn generalizing tokens left with
  | ind k ih =>
    subst hn
    cases tokens with
    | nil =>
      rw [links]
      refine ⟨rfl, fun c rest _ h ↦ ?_, fun _ _ _ _ _ ↦ rfl⟩
      cases h
      simp [Stops]
    | cons t rest =>
      rw [links]
      split
      next hop =>
        refine (hside rest (Nat.lt_succ_self _) levels).andThen (.chain op left t :: ·)
          (fun frames _ ↦ ?_) (Frame.nesting_chain op left t) (fun limit h frames hf ↦ ?_)
          fun right rest' shorter' hstops' ↦ ?_
        · rw [Frame.binding_chain]
          exact Nat.lt_succ_self _
        · simp only [State.conclude, State.step?_chain hop, Frame.join_of_binding_lt hf]
        -- The right side is joined before the next link is read, so the links go on in the frames
        -- around the chain.
        · have hlt : rest'.length < (t :: rest).length := Nat.lt_succ_of_lt shorter'
          have hlinks := ih _ hlt (fun rest'' h ↦ hside rest'' (Nat.lt_trans h hlt)) hstops'
            (.boolean t op left right) (Nat.lt_trans hlt shorter) rfl
          exact hlinks.of_conclude_eq fun limit h frames hf ↦
            conclude_chain hf hstops' h left right t
      next hop =>
        refine ⟨rfl, fun c rest' _ h ↦ ?_, fun _ _ _ _ _ ↦ rfl⟩
        cases h
        intro u hu op' hop'
        obtain rfl : t = u := by simpa using hu
        have hle : op'.binding ≤ op.binding := Nat.le_of_lt_succ (hstops t hu op' hop')
        refine Nat.lt_of_le_of_ne hle fun hbinding ↦ hop ?_
        rw [hop', BooleanOperator.binding_inj hbinding]

/-- A chain agrees if all that can be a side of it does. -/
theorem agrees_chain (op : BooleanOperator) (hside : ∀ rest : List Token,
      rest.length ≤ tokens.length → ∀ levels, Agrees ending .condition Frame.nesting
        (op.binding + 1) levels rest (side ending op levels rest)) (levels : Levels) :
    Agrees ending .condition Frame.nesting op.binding levels tokens
      (chain ending op levels tokens) := by
  rw [chain]
  refine (hside tokens (Nat.le_refl _) levels).andThen id (fun _ ↦ Nat.lt_succ_of_lt)
    (fun _ ↦ rfl) (fun _ _ _ _ ↦ rfl) fun left rest shorter hstops ↦ ?_
  exact agrees_links (fun rest' h ↦ hside rest' (Nat.le_of_lt (Nat.lt_trans h shorter))) hstops
    left levels shorter

/-- Every expression agrees. -/
theorem agrees_expression (ending : Except LexError Nat) (levels : Levels) (tokens : List Token) :
    Agrees ending .expression (List.countP Frame.opens) 1 levels tokens
      (expression ending levels tokens) := by
  obtain ⟨k, hk⟩ : ∃ k, tokens.length = k := ⟨_, rfl⟩
  induction k using Nat.strongRecOn generalizing levels tokens with
  | ind k ih =>
    subst hk
    -- A condition passes a token of its own before it calls an expression, so `ih` holds of all
    -- expressions that are called on the way.
    have hand (rest : List Token) (hle : rest.length ≤ tokens.length) (levels : Levels) :
        Agrees ending .condition Frame.nesting BooleanOperator.and.binding levels rest
          (chain ending .and levels rest) := by
      refine agrees_chain .and (fun rest' hle' levels ↦ ?_) levels
      rw [side]
      exact agrees_condition (fun rest'' hlt levels ↦ ih _ (by omega) levels rest'' rfl) levels
    refine agrees_expression_of_chain (agrees_chain .or fun rest hle levels ↦ ?_)
    rw [side]
    exact hand rest hle levels

end

/-- Every level that a clause takes is given back, whether the clause is read or not. -/
theorem clause_snd (ending : Except LexError Nat) (h : Header) (levels : Levels)
    (tokens : List Token) : (clause ending h levels tokens).2 = levels := by
  have hlevels := (agrees_expression ending levels tokens).levels_eq
  unfold clause
  split
  next hresult => rwa [hresult] at hlevels
  next hresult => rwa [hresult] at hlevels

/-- The states read what follows `WHERE` as the descent does with all levels left. -/
theorem conclude_eq_clause (limit : Nat) (ending : Except LexError Nat) (h : Header)
    (tokens : List Token) :
    (State.expression h []).conclude limit ending tokens = (clause ending h ⟨limit⟩ tokens).1 := by
  have hagrees := agrees_expression ending ⟨limit⟩ tokens
  have hconclude := hagrees.conclude_eq limit h [] Nat.zero_lt_one rfl
  have hstops := hagrees.stops
  unfold clause
  rw [hconclude]
  split
  next hresult => rw [hresult, Exit.conclude, Exit.followedBy]
  next hresult =>
    rw [hresult] at hstops ⊢
    rw [Exit.conclude, Exit.followedBy, conclude_conditionEnd_nil (hstops _ _ _ rfl)]

end Descent

end Parser

end SelectQuery
