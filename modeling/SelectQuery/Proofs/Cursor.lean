import SelectQuery.Proofs.Reading

/-!
# One cursor over one stream

A lexer can be read token by token, iterated, and finished, in any order. All of these take from one
stream, which the source fixes: `TokenStream` says what each call answers at a `Cursor`, that is by
the number of tokens taken so far and whether iteration has ended. A lexer answers every sequence of
calls as its stream does (`Lexer.answers_eq_stream`), so that no token is lost or given out twice.
-/

namespace SelectQuery

/-- A call that asks for one token: reading it, or a step of the iteration. -/
inductive Call where
  | next
  | step
  deriving DecidableEq, Repr

/-- What a call is answered. -/
inductive Answer where
  | next (result : Except LexError Token)
  | step (item? : Option (Except LexError Token))
  deriving DecidableEq, Repr

/-- The token that is given out with an answer. The end of the source is not one. -/
def Answer.token? : Answer → Option Token
  | next (.ok t) | step (some (.ok t)) => if t.kind = .eof then none else some t
  | _ => none

/-- What answers calls: how it reads and how it iterates. -/
structure Responder (σ : Type) where
  next : σ → Except LexError Token × σ
  step : σ → Option (Except LexError Token) × σ

namespace Responder

variable {σ τ : Type}

/-- The answer to one call, and what is left behind. -/
def answer (r : Responder σ) (s : σ) : Call → Answer × σ
  | .next => (.next (r.next s).1, (r.next s).2)
  | .step => (.step (r.step s).1, (r.step s).2)

/-- The answers to calls in order, and what is left behind. -/
def answers (r : Responder σ) (s : σ) : List Call → List Answer × σ
  | [] => ([], s)
  | c :: calls =>
    let (first, s) := r.answer s c
    let (others, s) := r.answers s calls
    (first :: others, s)

/-- What answers every single call alike and stays related answers all sequences of calls alike. -/
theorem answers_of_related (r : Responder σ) (r' : Responder τ) (Related : σ → τ → Prop)
    (hnext : ∀ s t, Related s t →
      (r.next s).1 = (r'.next t).1 ∧ Related (r.next s).2 (r'.next t).2)
    (hstep : ∀ s t, Related s t →
      (r.step s).1 = (r'.step t).1 ∧ Related (r.step s).2 (r'.step t).2)
    {s : σ} {t : τ} (h : Related s t) (calls : List Call) :
    (r.answers s calls).1 = (r'.answers t calls).1 ∧
      Related (r.answers s calls).2 (r'.answers t calls).2 := by
  have hanswer : ∀ s t c, Related s t →
      (r.answer s c).1 = (r'.answer t c).1 ∧ Related (r.answer s c).2 (r'.answer t c).2 := by
    intro s t c h
    cases c with
    | next => exact (hnext s t h).imp_left (congrArg Answer.next)
    | step => exact (hstep s t h).imp_left (congrArg Answer.step)
  induction calls generalizing s t with
  | nil => exact ⟨rfl, h⟩
  | cons c calls ih =>
    obtain ⟨hfirst, hrelated⟩ := hanswer s t c h
    obtain ⟨hothers, hrelated⟩ := ih hrelated
    simp only [answers]
    exact ⟨by rw [hfirst, hothers], hrelated⟩

end Responder

/-- What a source holds for all who read it: the tokens in front of its end or of its first lexical
error, that error, and its length. -/
structure TokenStream where
  tokens : List Token
  error? : Option LexError
  size : Nat

/-- A place in a stream: how many tokens have been taken, and whether iteration has ended. -/
structure Cursor where
  taken : Nat
  ended : Bool

namespace TokenStream

/-- The stream of a source. -/
def ofSource (source : String) : TokenStream :=
  ⟨(Lexer.ofSource source).remaining.1,
    match (Lexer.ofSource source).remaining.2 with
    | .ok _ => none
    | .error e => some e,
    source.utf8ByteSize⟩

/-- What stands behind the last token. -/
def ending (s : TokenStream) : Except LexError Token :=
  match s.error? with
  | some e => .error e
  | none => .ok (.eof s.size)

/-- A token that is left is taken. Behind the last the cursor stays, and what stands there is the
answer every time. The mark of the iteration is neither heeded nor set. -/
def next (s : TokenStream) (c : Cursor) : Except LexError Token × Cursor :=
  match s.tokens[c.taken]? with
  | some t => (.ok t, { c with taken := c.taken + 1 })
  | none => (s.ending, c)

/-- A token that is left is taken. Behind the last iteration ends, with the error if there is one,
and then there is nothing ever again. -/
def step (s : TokenStream) (c : Cursor) : Option (Except LexError Token) × Cursor :=
  if c.ended then (none, c)
  else
    match s.tokens[c.taken]? with
    | some t => (some (.ok t), { c with taken := c.taken + 1 })
    | none => (s.error?.map .error, { c with ended := true })

/-- All tokens that are left and the end of the source, or the error. When iteration has ended only
the end of the source is left. -/
def finish (s : TokenStream) (c : Cursor) : Except LexError (List Token) :=
  if c.ended then .ok [.eof s.size]
  else
    match s.error? with
    | some e => .error e
    | none => .ok (s.tokens.drop c.taken ++ [.eof s.size])

/-- A stream answers calls at a cursor. -/
def responder (s : TokenStream) : Responder Cursor := ⟨s.next, s.step⟩

/-- The tokens that are given out are the next ones of the stream. -/
theorem take_answers (s : TokenStream) (hs : ∀ t ∈ s.tokens, t.kind ≠ .eof) (c : Cursor)
    (calls : List Call) :
    s.tokens.take (s.responder.answers c calls).2.taken =
      s.tokens.take c.taken ++ (s.responder.answers c calls).1.filterMap Answer.token? := by
  have hanswer : ∀ c call, s.tokens.take (s.responder.answer c call).2.taken =
      s.tokens.take c.taken ++ (s.responder.answer c call).1.token?.toList := by
    intro c call
    cases ht : s.tokens[c.taken]? with
    | some t =>
      have hkind : t.kind ≠ .eof := hs t (List.mem_of_getElem? ht)
      cases call with
      | next =>
        simp [Responder.answer, responder, next, ht, List.take_add_one, Answer.token?, hkind]
      | step =>
        cases hended : c.ended <;>
          simp [Responder.answer, responder, step, hended, ht, List.take_add_one, Answer.token?,
            hkind]
    | none =>
      cases call with
      | next =>
        cases herror : s.error? <;>
          simp [Responder.answer, responder, next, ht, ending, herror, Answer.token?, Token.eof]
      | step =>
        cases hended : c.ended <;> cases herror : s.error? <;>
          simp [Responder.answer, responder, step, hended, ht, herror, Answer.token?]
  induction calls generalizing c with
  | nil => simp [Responder.answers]
  | cons call calls ih =>
    simp only [Responder.answers]
    rw [ih, hanswer, List.append_assoc, List.filterMap_cons]
    cases (s.responder.answer c call).1.token? <;> rfl

end TokenStream

namespace Lexer

/-- A lexer answers calls. -/
def responder : Responder Lexer := ⟨next, step⟩

/-- The lexer is at a place of the source with as many tokens behind it as the cursor has taken. -/
structure AtCursor (source : String) (l : Lexer) (c : Cursor) : Prop where
  isAt : l.IsAt source
  tokens : l.remaining.1 = (ofSource source).remaining.1.drop c.taken
  ending : l.remaining.2 = (ofSource source).remaining.2
  ended : l.ended = c.ended

private theorem AtCursor.skipBlanks {source : String} {l : Lexer} {c : Cursor}
    (h : AtCursor source l c) : AtCursor source l.skipBlanks c where
  isAt := h.isAt.skipBlanks
  tokens := by rw [remaining_skipBlanks, h.tokens]
  ending := by rw [remaining_skipBlanks, h.ending]
  ended := h.ended

private theorem AtCursor.next_cases {source : String} {l : Lexer} {c : Cursor}
    (h : AtCursor source l c) :
    (∃ t l', l.next = (.ok t, l') ∧ t.kind ≠ .eof ∧
        (TokenStream.ofSource source).tokens[c.taken]? = some t ∧
        AtCursor source l' ⟨c.taken + 1, c.ended⟩) ∨
      (TokenStream.ofSource source).tokens[c.taken]? = none ∧ AtCursor source l.skipBlanks c ∧
        (l.next = (.ok (.eof source.utf8ByteSize), l.skipBlanks) ∧
            (TokenStream.ofSource source).error? = none ∨
          ∃ e, l.next = (.error e, l.skipBlanks) ∧
            (TokenStream.ofSource source).error? = some e) := by
  have hhead : (TokenStream.ofSource source).tokens[c.taken]? = l.remaining.1.head? := by
    rw [h.tokens, List.head?_drop]
    rfl
  have herror : (TokenStream.ofSource source).error? =
      match l.remaining.2 with
      | .ok _ => none
      | .error e => some e := by
    rw [h.ending]
    rfl
  unfold Lexer.next
  cases hs : scan l.offset l.rest with
  | token t rest stop =>
    have htokens := h.tokens
    have hending := h.ending
    rw [remaining_of_token hs] at hhead htokens hending
    refine .inl ⟨t, ⟨rest, stop, l.ended⟩, rfl, kind_ne_eof_of_scan hs, hhead,
      (h.isAt.of_scan hs).1, ?_, hending, h.ended⟩
    rw [← List.drop_drop, ← htokens]
    rfl
  | atEnd stop =>
    rw [remaining_of_atEnd hs] at hhead herror
    rw [h.isAt.of_atEnd hs]
    exact .inr ⟨hhead, h.skipBlanks, .inl ⟨rfl, herror⟩⟩
  | failed e =>
    rw [remaining_of_failed hs] at hhead herror
    exact .inr ⟨hhead, h.skipBlanks, .inr ⟨e, rfl, herror⟩⟩

variable {source : String} {l : Lexer} {c : Cursor}

private theorem AtCursor.next (h : AtCursor source l c) :
    l.next.1 = ((TokenStream.ofSource source).next c).1 ∧
      AtCursor source l.next.2 ((TokenStream.ofSource source).next c).2 := by
  unfold TokenStream.next
  rcases h.next_cases with ⟨t, l', hnext, -, ht, h'⟩ |
    ⟨ht, h', ⟨hnext, herror⟩ | ⟨e, hnext, herror⟩⟩
  · rw [hnext, ht]
    exact ⟨rfl, h'⟩
  · simp only [hnext, ht, TokenStream.ending, herror]
    exact ⟨rfl, h'⟩
  · simp only [hnext, ht, TokenStream.ending, herror, true_and]
    exact h'

private theorem AtCursor.step (h : AtCursor source l c) :
    l.step.1 = ((TokenStream.ofSource source).step c).1 ∧
      AtCursor source l.step.2 ((TokenStream.ofSource source).step c).2 := by
  unfold Lexer.step TokenStream.step
  rw [h.ended]
  cases hended : c.ended with
  | true => exact ⟨rfl, h⟩
  | false =>
    have hmark {l : Lexer} (h : AtCursor source l c) :
        AtCursor source { l with ended := true } { c with ended := true } :=
      ⟨h.isAt, h.tokens, h.ending, rfl⟩
    simp only [Bool.false_eq_true, ite_false]
    rcases h.next_cases with ⟨t, l', hnext, hkind, ht, h'⟩ |
      ⟨ht, h', ⟨hnext, herror⟩ | ⟨e, hnext, herror⟩⟩
    · simp only [hnext, hkind, ite_false, ht, true_and]
      rwa [hended] at h'
    · simp only [hnext, Token.eof, ite_true, ht, herror, Option.map_none, true_and]
      exact hmark h'
    · simp only [hnext, ht, herror, Option.map_some, true_and]
      exact hmark h'

private theorem AtCursor.finish (h : AtCursor source l c) :
    l.finish = (TokenStream.ofSource source).finish c := by
  have hsize : l.endOffset = source.utf8ByteSize := by
    obtain ⟨front, hsource, hoffset⟩ := h.isAt
    rw [endOffset, hoffset, ← byteLength_append, ← hsource, byteLength_toList]
  have htokens : l.remaining.1 = (TokenStream.ofSource source).tokens.drop c.taken := h.tokens
  unfold Lexer.finish TokenStream.finish
  rw [h.ended, hsize]
  cases c.ended with
  | true => rfl
  | false =>
    have herror : (TokenStream.ofSource source).error? =
        match l.remaining.2 with
        | .ok _ => none
        | .error e => some e := by
      rw [h.ending]
      rfl
    cases hr : l.remaining with
    | mk tokens ending =>
      rw [hr] at htokens herror
      cases ending with
      | error e => simp [herror]
      | ok stop =>
        obtain ⟨-, rfl⟩ := (remaining_eq_iff_reading h.isAt).mp hr
        simp only [herror, ← htokens, Bool.false_eq_true, ite_false]
        rfl

/-- A lexer answers every sequence of calls as the stream of its source does at a cursor, and what
it then finishes with is what the stream has left there. The tokens that it has given out are those
that the cursor has passed. -/
theorem answers_eq_stream (source : String) (calls : List Call) :
    let stream := TokenStream.ofSource source
    let (answers, l) := responder.answers (ofSource source) calls
    let (expected, c) := stream.responder.answers ⟨0, false⟩ calls
    answers = expected ∧ l.finish = stream.finish c ∧
      answers.filterMap Answer.token? = stream.tokens.take c.taken := by
  have hstart : AtCursor source (ofSource source) ⟨0, false⟩ :=
    ⟨isAt_ofSource source, rfl, rfl, rfl⟩
  obtain ⟨hanswers, hrelated⟩ := Responder.answers_of_related responder
    (TokenStream.ofSource source).responder (AtCursor source)
    (fun _ _ h ↦ h.next) (fun _ _ h ↦ h.step) hstart calls
  have htaken := (TokenStream.ofSource source).take_answers
    (fun t ht ↦ kind_ne_eof_of_mem_remaining ht) ⟨0, false⟩ calls
  rw [List.take_zero, List.nil_append] at htaken
  exact ⟨hanswers, hrelated.finish, by rw [htaken, hanswers]⟩

end Lexer

end SelectQuery
