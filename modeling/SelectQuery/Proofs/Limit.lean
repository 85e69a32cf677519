import Mathlib.Data.List.Infix
import SelectQuery.Proofs.FirstError

/-!
# The limit on nesting

What a limit does to the parse of any source. `Grammar.level` counts the expressions that are open
behind a list of tokens, by their kinds alone. As long as no tokens consumed open more than the
limit, the result is that of an ample limit; otherwise it is an error at the token behind the first
that opens too much (`parseWithin_of_ample`). A run under a limit and one under an ample limit
go through the same states, up to the first in which the limit is exceeded.
-/

namespace SelectQuery

namespace Grammar

/-- What is open in the condition of a statement behind one more token. Outside of the condition
nothing can be. -/
def conditionAfter : Option (List Opener) → TokenKind → Option (List Opener)
  | none, .whereKw => some []
  | none, _ => none
  | some _, .semicolon => none
  | some opens, k => some (openAfter opens k)

/-- How many expressions are open behind tokens of the given kinds: that of the clause from `WHERE`
on, and one for each parenthesis and negation. -/
def level (kinds : List TokenKind) : Nat :=
  match kinds.foldl conditionAfter none with
  | some opens => 1 + opens.length
  | none => 0

end Grammar

namespace Parser.Position

open Grammar

private theorem step?_semicolon {p q : Position} (h : p.step? .semicolon = some q) :
    q = complete := by
  cases p with
  | tableName => exact (Option.some.inj h).symm
  | conditionEnd opens =>
    simp only [step?, endCondition?] at h
    split at h
    next => cases h
    next => exact (Option.some.inj h).symm
  | _ => cases h

/-- A token opens and closes in a position what its kind says. -/
theorem opens?_of_step? {p q : Position} {k : TokenKind} (h : p.step? k = some q) :
    q.opens? = conditionAfter p.opens? k := by
  cases hp : p.opens? with
  | none =>
    rcases opens?_step?_outside hp h with ⟨rfl, rfl⟩ | ⟨hk, hq⟩
    · rfl
    · cases k <;> simp_all [conditionAfter]
  | some opens =>
    rcases opens?_step? hp h with ⟨rfl, rfl⟩ | ⟨hq, -⟩
    · rfl
    · rw [hq]
      cases k with
      | semicolon =>
        rw [step?_semicolon h] at hq
        cases hq
      | _ => rfl

/-- What is open at a position is read off the kinds that lead to it. -/
theorem opens?_of_run? {p q : Position} {kinds : List TokenKind} (h : p.run? kinds = some q) :
    q.opens? = kinds.foldl conditionAfter p.opens? := by
  induction kinds generalizing p with
  | nil => rw [Option.some.inj h, List.foldl_nil]
  | cons k kinds ih =>
    obtain ⟨p', hp', h⟩ := Option.bind_eq_some_iff.mp h
    rw [ih h, opens?_of_step? hp', List.foldl_cons]

/-- The level of a position is that of the kinds that lead to it. -/
theorem level_of_run? {p : Position} {kinds : List TokenKind} (h : start.run? kinds = some p) :
    p.level = Grammar.level kinds := by
  rw [level, Grammar.level, opens?_of_run? h]
  rfl

/-- Tokens open no more than one expression each. -/
theorem level_run?_le {p q : Position} {kinds : List TokenKind} (h : p.run? kinds = some q) :
    q.level ≤ p.level + kinds.length := by
  induction kinds generalizing p with
  | nil => rw [Option.some.inj h, List.length_nil, Nat.add_zero]
  | cons k kinds ih =>
    obtain ⟨p', hp', h⟩ := Option.bind_eq_some_iff.mp h
    have hstep := level_step?_le hp'
    have hrest := ih h
    rw [List.length_cons]
    omega

/-- A limit is kept where no more is open than it allows. -/
theorem keeps_of_level_le {p : Position} {limit : Nat} (h : p.level ≤ limit) :
    p.keeps limit = true := by
  cases p with
  | expression opens => exact decide_eq_true h
  | _ => rfl

/-- Only `WHERE`, an opening parenthesis and `NOT` raise the level, and an expression begins behind
them. -/
theorem opener_of_level_lt {p q : Position} {k : TokenKind} (h : p.step? k = some q)
    (hlt : p.level < q.level) :
    (k = .whereKw ∨ k = .leftParen ∨ k = .notKw) ∧ ∃ opens, q = expression opens := by
  cases hp : p.opens? with
  | none =>
    rcases opens?_step?_outside hp h with ⟨rfl, rfl⟩ | ⟨-, hq⟩
    · exact ⟨.inl rfl, [], rfl⟩
    · simp [level, hp, hq] at hlt
  | some opens =>
    rcases opens?_step? hp h with ⟨rfl, rfl⟩ | ⟨hq, hq'⟩
    · exact absurd hlt (Nat.not_lt_zero _)
    · have hlength : opens.length < (openAfter opens k).length := by
        simpa [level, hp, hq] using hlt
      refine ⟨?_, _, hq'.resolve_right (by omega)⟩
      have hle := Opener.length_endNegations_le opens
      cases k <;> simp [openAfter] at hlength ⊢
      omega

end Parser.Position

/-- The tokens with the end of the source behind them, or with nothing if a lexical error ends
them. -/
def Lexer.withEnd (ending : Except LexError Nat) (tokens : List Token) : List Token :=
  match ending with
  | .ok offset => tokens ++ [.eof offset]
  | .error _ => tokens

/-- A lexer yields the tokens that remain, with the end behind them. -/
theorem Lexer.yielded_eq_withEnd (l : Lexer) :
    l.yielded.1 = withEnd l.remaining.2 l.remaining.1 := by
  unfold yielded withEnd
  split <;> simp_all

/-- The end of the source counts as one more token. -/
theorem Lexer.length_withEnd_le (ending : Except LexError Nat) (tokens : List Token) :
    (withEnd ending tokens).length ≤ tokens.length + 1 := by
  cases ending <;> simp [withEnd]

/-- The end comes behind all of the tokens. -/
theorem Lexer.withEnd_cons (ending : Except LexError Nat) (t : Token) (tokens : List Token) :
    withEnd ending (t :: tokens) = t :: withEnd ending tokens := by
  cases ending <;> rfl

namespace Parser.State

/-- Limits that a state keeps make no difference to what it does with a token. -/
theorem step?_of_keeps {s : State} {limit limit' : Nat} (h : s.position.keeps limit = true)
    (h' : s.position.keeps limit' = true) (t : Token) :
    s.step? limit t = s.step? limit' t ∧ s.fault limit t = s.fault limit' t := by
  cases s with
  | expression hd frames =>
    simp only [position, Position.keeps, decide_eq_true_eq, ← Frame.nesting_eq] at h h'
    simp [step?, fault, h, h']
  | _ => exact ⟨rfl, rfl⟩

/-- A state that exceeds the limit takes no token at all. -/
theorem step?_of_not_keeps {s : State} {limit : Nat} (h : s.position.keeps limit = false)
    (t : Token) : s.step? limit t = none ∧ s.fault limit t = .nestedTooDeeply := by
  cases s with
  | expression hd frames =>
    simp only [position, Position.keeps, decide_eq_false_iff_not, ← Frame.nesting_eq] at h
    simp [step?, fault, h]
  | _ => cases h

/-- The tokens that a run consumes of those that a lexer yields. A token is consumed once the one
behind it has been read. -/
def taken (limit : Nat) (s : State) : List Token → List Token
  | t :: behind :: tokens =>
    match s.step? limit t with
    | some s' => t :: s'.taken limit (behind :: tokens)
    | none => []
  | _ => []

/-- Nothing is consumed where the first token cannot be taken. -/
theorem taken_of_step?_eq_none {limit : Nat} {s : State} {t : Token}
    (h : s.step? limit t = none) (tokens : List Token) : s.taken limit (t :: tokens) = [] := by
  cases tokens with
  | nil => rfl
  | cons u tokens => rw [taken, h]

/-- A run consumes the tokens that it leads through while one more token has been read. -/
theorem prefix_taken_iff {limit : Nat} {s : State} {front tokens : List Token}
    (hne : tokens ≠ []) :
    front <+: s.taken limit tokens ↔
      ∃ s' t rest, s.run? limit front = some s' ∧ tokens = front ++ t :: rest := by
  induction front generalizing s tokens with
  | nil =>
    obtain ⟨t, rest, rfl⟩ := List.exists_cons_of_ne_nil hne
    exact iff_of_true List.nil_prefix ⟨s, t, rest, rfl, rfl⟩
  | cons u front ih =>
    match tokens with
    | [] => exact absurd rfl hne
    | [t] => simp [taken]
    | t :: behind :: tokens =>
      have ih (s : State) := ih (s := s) (List.cons_ne_nil behind tokens)
      simp only [taken, run?_cons, List.cons_append, List.cons.injEq]
      constructor
      · cases hstep : s.step? limit t with
        | none => simp
        | some s₁ =>
          rw [List.cons_prefix_cons, ih]
          rintro ⟨rfl, s', t', rest, hrun, hrest⟩
          exact ⟨s', t', rest, by rw [hstep, Option.bind_some, hrun], rfl, hrest⟩
      · rintro ⟨s', t', rest, hrun, rfl, hrest⟩
        obtain ⟨s₁, hstep, hrun⟩ := Option.bind_eq_some_iff.mp hrun
        rw [hstep, List.cons_prefix_cons, ih]
        exact ⟨rfl, s', t', rest, hrun, hrest⟩

/-- The end of the source cannot be taken. -/
theorem kind_ne_eof_of_run? {limit : Nat} {s s' : State} {tokens : List Token}
    (h : s.run? limit tokens = some s') : ∀ t ∈ tokens, t.kind ≠ .eof := by
  induction tokens generalizing s with
  | nil => simp
  | cons t tokens ih =>
    obtain ⟨s₁, hstep, h⟩ := Option.bind_eq_some_iff.mp h
    refine List.forall_mem_cons.mpr ⟨fun hk ↦ ?_, ih h⟩
    cases s <;> simp [step?, beginCondition?, endCondition?, Operand.ofToken?,
      ComparisonOperator.ofKind?, hk] at hstep

section

variable {limit ample : Nat} {ending : Except LexError Nat}

/-- Two limits come to the same result if both are kept by every state that looks at a token. -/
theorem conclude_eq_of_keeps {s : State} {tokens : List Token}
    (h : ∀ front t rest s', Lexer.withEnd ending tokens = front ++ t :: rest →
      s.run? ample front = some s' →
      s'.position.keeps limit = true ∧ s'.position.keeps ample = true) :
    s.conclude limit ending tokens = s.conclude ample ending tokens := by
  induction tokens generalizing s with
  | nil =>
    cases ending with
    | error e => rfl
    | ok offset =>
      obtain ⟨hlimit, hample⟩ := h [] (.eof offset) [] s rfl rfl
      have hfault := (step?_of_keeps hlimit hample (.eof offset)).2
      cases s with
      | complete statement => rfl
      | _ => simp only [conclude, hfault]
  | cons t tokens ih =>
    rw [Lexer.withEnd_cons] at h
    obtain ⟨hlimit, hample⟩ := h [] t _ s rfl rfl
    obtain ⟨hstep, hfault⟩ := step?_of_keeps hlimit hample t
    simp only [conclude, hstep, hfault]
    cases hs : s.step? ample t with
    | none => rfl
    | some s₁ =>
      refine ih fun front u rest s' hend hrun ↦ h (t :: front) u rest s' (by rw [hend]; rfl) ?_
      rw [run?_cons, hs, Option.bind_some, hrun]

/-- The first state that exceeds a limit rejects the token that it looks at, whatever it is. -/
theorem conclude_of_not_keeps {s s' : State} {tokens front rest : List Token} {t : Token}
    (hend : Lexer.withEnd ending tokens = front ++ t :: rest) (hrun : s.run? ample front = some s')
    (hkeeps : ∀ front' s'', front' <+: front → front' ≠ front → s.run? ample front' = some s'' →
      s''.position.keeps limit = true ∧ s''.position.keeps ample = true)
    (hs' : s'.position.keeps limit = false) :
    s.conclude limit ending tokens = .error (.syntactic ⟨.nestedTooDeeply, t.span⟩) := by
  induction front generalizing s tokens with
  | nil =>
    obtain rfl := Option.some.inj hrun
    obtain ⟨hstep, hfault⟩ := step?_of_not_keeps hs' t
    cases tokens with
    | nil =>
      cases ending with
      | error e => cases hend
      | ok offset =>
        obtain ⟨rfl, -⟩ := List.cons.inj hend
        cases s with
        | complete statement => cases hs'
        | _ => simp only [conclude, hfault]; rfl
    | cons u tokens =>
      rw [Lexer.withEnd_cons] at hend
      obtain ⟨rfl, -⟩ := List.cons.inj hend
      simp only [conclude, hstep, hfault]
  | cons u front ih =>
    cases tokens with
    | nil =>
      -- The front of a run that goes on is not the end of the source.
      cases ending with
      | error e => cases hend
      | ok offset => simp [Lexer.withEnd] at hend
    | cons v tokens =>
      rw [Lexer.withEnd_cons] at hend
      obtain ⟨rfl, hrest⟩ := List.cons.inj hend
      obtain ⟨s₁, hs₁, hrun⟩ := Option.bind_eq_some_iff.mp hrun
      obtain ⟨hlimit, hample⟩ := hkeeps [] s List.nil_prefix (by simp) rfl
      have hstep := (step?_of_keeps hlimit hample v).1
      simp only [conclude, hstep, hs₁]
      refine ih hrest hrun fun front' s'' hprefix hne hrun' ↦ ?_
      have hprefix' : v :: front' <+: v :: front := List.cons_prefix_cons.mpr ⟨rfl, hprefix⟩
      refine hkeeps (v :: front') s'' hprefix' (by simpa using hne) ?_
      rw [run?_cons, hs₁, Option.bind_some, hrun']

end

end Parser.State

/-- The token that was consumed, if that is what happened. -/
def Event.consumed? : Event → Option Token
  | consumed t => some t
  | _ => none

/-- The tokens that are consumed while a source is parsed, in order. -/
def consumedWithin (limit : Nat) (source : String) : List Token :=
  (parseLogged limit source).2.filterMap Event.consumed?

namespace Parser

private theorem yielded_of_ofLexer {limit : Nat} {l : Lexer} {e : LexError}
    (h : ofLexer limit l = .error e) : l.yielded.1 = [] := by
  rw [Lexer.yielded_eq_withEnd, Lexer.remaining_of_failed (scan_of_ofLexer h).1]
  rfl

private theorem consumed_consumption (s : State) (t behind : Token) :
    (consumption s t behind).filterMap Event.consumed? = [t] := by
  unfold consumption Event.ofRead
  cases s <;> split <;> rfl

namespace StandsAt

variable {p : Parser} {l : Lexer}

/-- Where a parser stands the lexer yields its token, and what is behind. -/
theorem yielded_of_ne (h : p.StandsAt l) (hp : p.current.kind ≠ .eof) :
    l.yielded.1 = p.current :: p.lexer.yielded.1 := by
  rw [Lexer.yielded_eq_withEnd, Lexer.yielded_eq_withEnd, h.remaining_of_ne hp, Lexer.withEnd_cons]

/-- Behind the end of the source the lexer yields nothing. -/
theorem yielded_of_eof (h : p.StandsAt l) (hp : p.current.kind = .eof) :
    l.yielded.1 = [p.current] := by
  obtain ⟨stop, hstop, hscan⟩ := h.scan_of_eof hp
  rw [Lexer.yielded_eq_withEnd, Lexer.remaining_of_atEnd hscan, hstop]
  rfl

private theorem exists_yielded (h : p.StandsAt l) : ∃ rest, l.yielded.1 = p.current :: rest := by
  by_cases hp : p.current.kind = .eof
  · exact ⟨[], h.yielded_of_eof hp⟩
  · exact ⟨_, h.yielded_of_ne hp⟩

/-- The log of a run reports the tokens that are taken as consumed. -/
theorem consumed_run (h : p.StandsAt l) (s : State) (log : List Event) :
    (p.run s log).log.filterMap Event.consumed? =
      log.reverse.filterMap Event.consumed? ++ s.taken p.limit l.yielded.1 := by
  fun_induction run p s log generalizing l with
  | case1 p log hp statement =>
    rw [h.yielded_of_eof hp]
    simp [State.taken, Event.consumed?]
  | case2 p log hp s hs =>
    rw [h.yielded_of_eof hp]
    simp [State.taken]
  | case3 p s log hp hstep =>
    rw [h.yielded_of_ne hp, State.taken_of_step?_eq_none hstep, List.append_nil]
  | case4 p s log hp s' hstep e hadvance =>
    rw [h.yielded_of_ne hp, yielded_of_ofLexer hadvance, State.taken]
    · exact (List.append_nil _).symm
    · simp
  | case5 p s log hp s' hstep q hadvance ih =>
    obtain ⟨hq, hlimit⟩ := standsAt_of_ofLexer hadvance
    obtain ⟨behind, hbehind⟩ := hq.exists_yielded
    have htaken : s.taken p.limit (p.current :: q.current :: behind) =
        p.current :: s'.taken p.limit (q.current :: behind) := by rw [State.taken, hstep]
    rw [ih hq, hlimit, h.yielded_of_ne hp, hbehind, htaken]
    simp [consumed_consumption]

end StandsAt

end Parser

/-- What is consumed of a source is what a run takes of the tokens that its lexer yields. -/
theorem consumedWithin_eq_taken (limit : Nat) (source : String) :
    consumedWithin limit source =
      Parser.State.start.taken limit (Lexer.ofSource source).yielded.1 := by
  unfold consumedWithin parseLogged
  cases hp : Parser.ofLexer limit (.ofSource source) with
  | error e =>
    rw [Parser.yielded_of_ofLexer hp]
    rfl
  | ok p =>
    have hread : (Event.ofRead p.current).filterMap Event.consumed? = [] := by
      unfold Event.ofRead
      split <;> rfl
    obtain ⟨hstands, rfl⟩ := Parser.standsAt_of_ofLexer hp
    simpa [hread, Parser.parse] using hstands.consumed_run .start []

namespace Grammar

/-- Behind no beginning of the tokens are more than `limit` expressions open. -/
def StaysWithin (limit : Nat) (tokens : List Token) : Prop :=
  ∀ front, front <+: tokens → level (front.map Token.kind) ≤ limit

/-- Whether tokens stay within a limit is decided by their beginnings. -/
instance (limit : Nat) (tokens : List Token) : Decidable (StaysWithin limit tokens) :=
  decidable_of_iff (∀ front ∈ tokens.inits, level (front.map Token.kind) ≤ limit)
    (by simp only [List.mem_inits, StaysWithin])

/-- The token behind `front` is the first of the tokens to open more than `limit` expressions. -/
structure FirstAbove (limit : Nat) (tokens front : List Token) (opener : Token) : Prop where
  stands : front ++ [opener] <+: tokens
  opens : opener.kind = .whereKw ∨ opener.kind = .leftParen ∨ opener.kind = .notKw
  within : StaysWithin limit front
  above : limit < level ((front ++ [opener]).map Token.kind)

private theorem exists_first_of_not_staysWithin {limit : Nat} {tokens : List Token}
    (h : ¬ StaysWithin limit tokens) : ∃ front t, front ++ [t] <+: tokens ∧
      StaysWithin limit front ∧ limit < level ((front ++ [t]).map Token.kind) := by
  induction tokens using List.reverseRecOn with
  | nil =>
    refine absurd (fun front hfront ↦ ?_) h
    rw [List.prefix_nil.mp hfront]
    exact Nat.zero_le _
  | append_singleton tokens t ih =>
    by_cases hall : StaysWithin limit tokens
    · refine ⟨tokens, t, List.prefix_rfl, hall, Nat.lt_of_not_le fun hle ↦ h ?_⟩
      intro front hfront
      rcases List.prefix_concat_iff.mp hfront with rfl | hfront
      · exact hle
      · exact hall front hfront
    · obtain ⟨front, u, hfront, h⟩ := ih hall
      exact ⟨front, u, hfront.trans (List.prefix_append _ _), h⟩

end Grammar

open Grammar Parser.State

section

variable {source : String} {limit ample : Nat}

private theorem level_of_yielded (hample : (Lexer.ofSource source).remaining.1.length ≤ ample)
    {front : List Token} {s : Parser.State}
    (hlength : front.length < (Lexer.ofSource source).yielded.1.length)
    (hrun : start.run? ample front = some s) :
    s.position.level = level (front.map Token.kind) ∧ s.position.keeps ample = true := by
  have hposition := run?_position (kind_ne_eof_of_run? hrun) hrun
  have hle := Parser.Position.level_run?_le hposition
  have hend := Lexer.length_withEnd_le (Lexer.ofSource source).remaining.2
    (Lexer.ofSource source).remaining.1
  rw [Lexer.yielded_eq_withEnd] at hlength
  rw [List.length_map, show Parser.Position.start.level = 0 from rfl] at hle
  exact ⟨Parser.Position.level_of_run? hposition, Parser.Position.keeps_of_level_le (by omega)⟩

private theorem parseWithin_eq_of_staysWithin
    (hample : (Lexer.ofSource source).remaining.1.length ≤ ample)
    (h : StaysWithin limit (consumedWithin ample source)) :
    parseWithin limit source = parseWithin ample source := by
  rw [parseWithin_eq_conclude, parseWithin_eq_conclude]
  refine conclude_eq_of_keeps fun front t rest s hend hrun ↦ ?_
  rw [← Lexer.yielded_eq_withEnd] at hend
  obtain ⟨hlevel, hkeeps⟩ := level_of_yielded hample (by simp [hend]) hrun
  refine ⟨Parser.Position.keeps_of_level_le ?_, hkeeps⟩
  rw [hlevel]
  apply h
  rw [consumedWithin_eq_taken, prefix_taken_iff (by simp [hend])]
  exact ⟨s, t, rest, hrun, hend⟩

private theorem parseWithin_of_not_staysWithin
    (hample : (Lexer.ofSource source).remaining.1.length ≤ ample)
    (h : ¬ StaysWithin limit (consumedWithin ample source)) :
    ∃ front opener t rest, FirstAbove limit (consumedWithin ample source) front opener ∧
      (Lexer.ofSource source).yielded.1 = front ++ opener :: t :: rest ∧
      parseWithin limit source = .error (.syntactic ⟨.nestedTooDeeply, t.span⟩) := by
  obtain ⟨front, opener, hstands, hwithin, habove⟩ := exists_first_of_not_staysWithin h
  have hne : (Lexer.ofSource source).yielded.1 ≠ [] := by
    intro hnil
    rw [consumedWithin_eq_taken, hnil] at hstands
    simp [taken] at hstands
  obtain ⟨s, t, rest, hrun, hyielded⟩ :=
    (prefix_taken_iff hne).mp (consumedWithin_eq_taken ample source ▸ hstands)
  obtain ⟨s₁, hrun₁, hstep⟩ := Option.bind_eq_some_iff.mp (run?_append .. ▸ hrun)
  have hlevel := (level_of_yielded hample (by simp [hyielded]) hrun).1
  have hlevel₁ := (level_of_yielded hample (by simp [hyielded]) hrun₁).1
  -- The opener raises the level of the state before it, which is within the limit.
  have hposition : s₁.position.step? opener.kind = some s.position := by
    have h := run?_position (kind_ne_eof_of_run? hrun) hrun
    rw [List.map_append, Parser.Position.run?_append,
      run?_position (kind_ne_eof_of_run? hrun₁) hrun₁] at h
    simpa using h
  have hle := hwithin front List.prefix_rfl
  obtain ⟨hopens, opens, hs⟩ := Parser.Position.opener_of_level_lt hposition (by omega)
  have hkeeps : s.position.keeps limit = false := by
    rw [← hlevel, hs] at habove
    rw [hs]
    exact decide_eq_false (Nat.not_le_of_lt habove)
  refine ⟨front, opener, t, rest, ⟨hstands, hopens, hwithin, habove⟩, by simp [hyielded], ?_⟩
  rw [parseWithin_eq_conclude]
  rw [Lexer.yielded_eq_withEnd] at hyielded
  refine conclude_of_not_keeps hyielded hrun (fun front' s' hfront' hne' hrun' ↦ ?_) hkeeps
  have hprefix : front' <+: front := (List.prefix_concat_iff.mp hfront').resolve_left hne'
  have hshort := hprefix.length_le
  rw [← Lexer.yielded_eq_withEnd] at hyielded
  obtain ⟨hlevel', hkeeps'⟩ := level_of_yielded hample (by simp [hyielded]; omega) hrun'
  exact ⟨Parser.Position.keeps_of_level_le (hlevel' ▸ hwithin front' hprefix), hkeeps'⟩

end

/-- What a limit does to the parse of a source. If the tokens that are consumed under an ample limit
stay within the limit, the result is the same. If not, the first token that leaves it is a `WHERE`,
an opening parenthesis or a `NOT`, and the token behind it is rejected as nested too deeply. So a
result of any other kind is also the result under every higher limit. -/
theorem parseWithin_of_ample {source : String} {ample : Nat}
    (hample : (Lexer.ofSource source).remaining.1.length ≤ ample) (limit : Nat) :
    (Grammar.StaysWithin limit (consumedWithin ample source) →
      parseWithin limit source = parseWithin ample source) ∧
    (¬ Grammar.StaysWithin limit (consumedWithin ample source) →
      ∃ front opener t rest, Grammar.FirstAbove limit (consumedWithin ample source) front opener ∧
        (Lexer.ofSource source).yielded.1 = front ++ opener :: t :: rest ∧
        parseWithin limit source = .error (.syntactic ⟨.nestedTooDeeply, t.span⟩)) ∧
    ∀ limit', limit ≤ limit' →
      (∀ span, parseWithin limit source ≠ .error (.syntactic ⟨.nestedTooDeeply, span⟩)) →
      parseWithin limit' source = parseWithin limit source := by
  refine ⟨parseWithin_eq_of_staysWithin hample, parseWithin_of_not_staysWithin hample, ?_⟩
  intro limit' hle hother
  by_cases hstays : StaysWithin limit (consumedWithin ample source)
  · have hstays' : StaysWithin limit' (consumedWithin ample source) :=
      fun front hfront ↦ (hstays front hfront).trans hle
    rw [parseWithin_eq_of_staysWithin hample hstays, parseWithin_eq_of_staysWithin hample hstays']
  · obtain ⟨-, -, t, -, -, -, herror⟩ := parseWithin_of_not_staysWithin hample hstays
    exact absurd herror (hother t.span)

/-- A source that is no statement, whatever the limit. Its `NOT` takes up the second level and the
parenthesis behind that the third. -/
def parenUnderNegation : String := "SELECT a FROM t WHERE (a = 1) AND NOT (b = 2) OR ;"

/-- Under two levels the name in the parenthesis is rejected, under three or more the semicolon. -/
theorem parseWithin_of_ample_parenUnderNegation :
    (∃ front opener t rest,
      Grammar.FirstAbove 2 (consumedWithin 20 parenUnderNegation) front opener ∧
      (Lexer.ofSource parenUnderNegation).yielded.1 = front ++ opener :: t :: rest ∧
      parseWithin 2 parenUnderNegation = .error (.syntactic ⟨.nestedTooDeeply, t.span⟩) ∧
      t.span = ⟨39, 40⟩) ∧
    parseWithin 3 parenUnderNegation = parseWithin 20 parenUnderNegation ∧
    parseWithin 4 parenUnderNegation = parseWithin 3 parenUnderNegation := by
  have hample : (Lexer.ofSource parenUnderNegation).remaining.1.length ≤ 20 := by decide +kernel
  have htwo : parseWithin 2 parenUnderNegation =
      .error (.syntactic ⟨.nestedTooDeeply, ⟨39, 40⟩⟩) := by decide +kernel
  have hthree : parseWithin 3 parenUnderNegation =
      .error (.syntactic ⟨.unrecognizedCondition "SEMICOLON", ⟨49, 50⟩⟩) := by decide +kernel
  refine ⟨?_, (parseWithin_of_ample hample 3).1 (by decide +kernel),
    (parseWithin_of_ample hample 3).2.2 4 (by omega) (by simp [hthree])⟩
  obtain ⟨front, opener, t, rest, hfirst, hyielded, herror⟩ :=
    (parseWithin_of_ample hample 2).2.1 (by decide +kernel)
  refine ⟨front, opener, t, rest, hfirst, hyielded, herror, ?_⟩
  simpa [htwo] using herror.symm

end SelectQuery
