import SelectQuery.Proofs.Slice

/-!
# Readings of a source

What it is for tokens to be those of a source, said by their places and texts alone
(`Reading`): they cover all but the blanks, in order and without overlap, each with a lexeme that
could not be longer. Lexing finds a reading (`tokenize_eq_ok_iff_reading`), and there is no other.
-/

namespace SelectQuery

/-- The character begins at a byte offset of the source. -/
def StandsAt (source : String) (offset : Nat) (c : Char) : Prop :=
  ∃ front behind, source.toList = front ++ c :: behind ∧ offset = Lexer.byteLength front

/-- The token is a string that the source leaves open: it covers all that is left of the source,
without a second quote, and its text has one quote more. -/
def Token.LeftOpen (source : String) (t : Token) : Prop :=
  ∃ front body, source = front ++ "\"" ++ body ∧ '"' ∉ body.toList ∧
    t = ⟨.string, "\"" ++ body ++ "\"", ⟨front.utf8ByteSize, source.utf8ByteSize⟩⟩

/-- The tokens are those of a source from a byte offset on, without the end. -/
structure Reading (source : String) (offset : Nat) (tokens : List Token) : Prop where
  /-- No span is empty, and none reaches out of the source. -/
  bounds : ∀ t ∈ tokens, offset ≤ t.span.start ∧ t.span.start < t.span.stop ∧
    t.span.stop ≤ source.utf8ByteSize
  /-- Spans begin and end between characters. -/
  boundary : ∀ t ∈ tokens, String.Pos.Raw.IsValid source ⟨t.span.start⟩ ∧
    String.Pos.Raw.IsValid source ⟨t.span.stop⟩
  /-- Spans follow one another. -/
  ordered : tokens.Pairwise fun t u ↦ t.span.stop ≤ u.span.start
  /-- What no span covers is blank. -/
  blank : ∀ i c, offset ≤ i → StandsAt source i c →
    Lexer.isBlank c ∨ ∃ t ∈ tokens, t.span.start ≤ i ∧ i < t.span.stop
  /-- The text of a token is what its span covers, but the last may be a string that is left
  open. -/
  text : ∀ front t behind, tokens = front ++ t :: behind →
    t.span.Covers source t.text ∨ behind = [] ∧ t.LeftOpen source
  /-- The text of a token is one of its kind: a word has the kind of the keyword that it spells and
  is an identifier otherwise, and a string has quotes at its two ends only. -/
  isLexeme : ∀ t ∈ tokens, t.IsLexeme
  /-- No character goes on with the token that it stands behind. -/
  longest : ∀ t ∈ tokens, ∀ c, StandsAt source t.span.stop c → t.kind.goesOn c = false

namespace Lexer

section

variable {source : String} {passed rest : List Char}

private theorem exists_of_standsAt (hsource : source.toList = passed ++ rest) {i : Nat} {c : Char}
    (hi : byteLength passed ≤ i) (hc : StandsAt source i c) :
    ∃ front behind, rest = front ++ c :: behind ∧ i = byteLength passed + byteLength front := by
  obtain ⟨before, behind, hbefore, rfl⟩ := hc
  have hpassed : passed <+: source.toList := ⟨rest, hsource.symm⟩
  obtain ⟨front, rfl⟩ := prefix_of_byteLength_le hpassed ⟨c :: behind, hbefore.symm⟩ hi
  refine ⟨front, behind, ?_, byteLength_append ..⟩
  rw [hsource, List.append_assoc] at hbefore
  exact List.append_cancel_left hbefore

private theorem standsAt_of_rest (hsource : source.toList = passed ++ rest)
    {front behind : List Char} {c : Char} (hrest : rest = front ++ c :: behind) :
    StandsAt source (byteLength passed + byteLength front) c :=
  ⟨passed ++ front, behind, by rw [hsource, hrest, List.append_assoc], by rw [byteLength_append]⟩

end

/-- What is read is taken from the head of the text, and the span says which bytes. -/
theorem Reads.exists_split {offset stop : Nat} {text rest : List Char} {t : Token}
    (h : Reads offset text t rest stop) (ht : t.IsLexeme) :
    ∃ taken, taken ≠ [] ∧ text = taken ++ rest ∧ stop = offset + byteLength taken ∧
      t.span = ⟨offset, stop⟩ := by
  cases h with
  | @lexeme kind s rest hs htext =>
    obtain ⟨c, tail, hc, -⟩ := head_of_lexeme hs
    exact ⟨s.toList, by simp [hc], htext, by rw [byteLength_toList], rfl⟩
  | unclosed =>
    obtain ⟨body, -, rfl⟩ := exists_body_of_unclosed ht
    exact ⟨'"' :: body, by simp, by simp, rfl, rfl⟩

/-- A token that is read lies in the source as a reading asks for. -/
theorem Reads.covers {source : String} {front text rest : List Char} {t : Token} {stop : Nat}
    (hsource : source.toList = front ++ text) (h : Reads (byteLength front) text t rest stop)
    (ht : t.IsLexeme) : t.span.Covers source t.text ∨ rest = [] ∧ t.LeftOpen source := by
  cases h with
  | @lexeme kind s rest hs htext =>
    rw [htext] at hsource
    exact .inl (covers_ofText hsource kind)
  | unclosed =>
    obtain ⟨body, hbody, rfl⟩ := exists_body_of_unclosed ht
    have hsize : source.utf8ByteSize = byteLength front + byteLength ('"' :: body) := by
      rw [← byteLength_toList, hsource, byteLength_append]
    refine .inr ⟨rfl, .ofList front, .ofList body, ?_, by simpa using hbody, ?_⟩
    · rw [← String.toList_inj, hsource]
      simp
    · rw [utf8ByteSize_ofList, hsize]
      congr 1
      rw [← String.toList_inj]
      simp

/-- A token that lies in the source as a reading asks for is read there. -/
theorem exists_reads_of_covers {source : String} {t : Token} (ht : t.IsLexeme)
    (h : t.span.Covers source t.text ∨ t.LeftOpen source) :
    ∃ front text rest, source.toList = front ++ text ∧
      Reads (byteLength front) text t rest t.span.stop := by
  rcases h with ⟨front, behind, rfl, hspan⟩ | ⟨front, body, rfl, -, rfl⟩
  · refine ⟨front.toList, t.text.toList ++ behind.toList, behind.toList, by simp, ?_⟩
    have hreads : Reads front.utf8ByteSize (t.text.toList ++ behind.toList)
        (.ofText t.kind t.text front.utf8ByteSize) behind.toList
        (front.utf8ByteSize + t.text.utf8ByteSize) := .lexeme ht rfl
    have htoken : Token.ofText t.kind t.text front.utf8ByteSize = t := by
      rw [Token.ofText, ← hspan]
    rw [htoken] at hreads
    rw [byteLength_toList, hspan]
    exact hreads
  · have htext : "\"" ++ body ++ "\"" = .ofList ('"' :: body.toList ++ ['"']) := by
      rw [← String.toList_inj]
      simp
    have hsize : (front ++ "\"" ++ body).utf8ByteSize =
        front.utf8ByteSize + byteLength ('"' :: body.toList) := by
      rw [byteLength_cons, byteLength_toList, String.utf8ByteSize_append,
        String.utf8ByteSize_append, Nat.add_assoc]
      rfl
    refine ⟨front.toList, '"' :: body.toList, [], by simp, ?_⟩
    rw [byteLength_toList, htext, hsize]
    exact .unclosed

end Lexer

/-- The tokens behind the first are read behind it. -/
theorem Reading.tail {source : String} {offset : Nat} {t : Token} {tokens : List Token}
    (h : Reading source offset (t :: tokens)) : Reading source t.span.stop tokens := by
  obtain ⟨hfirst, hordered⟩ := List.pairwise_cons.mp h.ordered
  obtain ⟨hoffset, hlt, -⟩ := h.bounds t (List.mem_cons_self ..)
  constructor
  case bounds =>
    intro u hu
    exact ⟨hfirst u hu, (h.bounds u (List.mem_cons_of_mem _ hu)).2⟩
  case boundary =>
    intro u hu
    exact h.boundary u (List.mem_cons_of_mem _ hu)
  case ordered => exact hordered
  case blank =>
    intro i c hi hc
    rcases h.blank i c (by omega) hc with hblank | ⟨u, hu, hui⟩
    · exact .inl hblank
    · rcases List.mem_cons.mp hu with rfl | hu
      · omega
      · exact .inr ⟨u, hu, hui⟩
  case text =>
    intro front u behind htokens
    exact h.text (t :: front) u behind (by rw [htokens]; rfl)
  case isLexeme =>
    intro u hu
    exact h.isLexeme u (List.mem_cons_of_mem _ hu)
  case longest =>
    intro u hu
    exact h.longest u (List.mem_cons_of_mem _ hu)

/-- Nothing is read at the end of the source. -/
theorem Reading.eq_nil {source : String} {tokens : List Token}
    (h : Reading source source.utf8ByteSize tokens) : tokens = [] := by
  cases tokens with
  | nil => rfl
  | cons t tokens =>
    have hbounds := h.bounds t (List.mem_cons_self ..)
    omega

namespace Lexer

private theorem isValid_byteLength {source : String} {front rest : List Char}
    (hsource : source.toList = front ++ rest) :
    String.Pos.Raw.IsValid source ⟨byteLength front⟩ := by
  apply String.Pos.Raw.isValid_iff_exists_append.mpr
  refine ⟨.ofList front, .ofList rest, ?_, ?_⟩
  · rw [← String.toList_inj, hsource]
    simp
  · rw [← utf8ByteSize_ofList]
    rfl

/-- A token that is read and a reading behind it make a reading. -/
theorem reading_cons {source : String} {front text rest : List Char} {t : Token} {stop : Nat}
    {tokens : List Token} (hsource : source.toList = front ++ text)
    (hreads : Reads (byteLength front) text t rest stop) (ht : t.IsLexeme)
    (hends : t.kind.EndsBefore rest) (h : Reading source stop tokens) :
    Reading source (byteLength front) (t :: tokens) := by
  have hcovers := hreads.covers hsource ht
  obtain ⟨taken, hne, rfl, rfl, hspan⟩ := hreads.exists_split ht
  have hpos : 0 < byteLength taken := Nat.pos_of_ne_zero (mt byteLength_eq_zero_iff.mp hne)
  have hsplit : source.toList = (front ++ taken) ++ rest := by rw [hsource, List.append_assoc]
  have hsize : source.utf8ByteSize = byteLength front + byteLength taken + byteLength rest := by
    rw [← byteLength_toList, hsplit, byteLength_append, byteLength_append]
  constructor
  case bounds =>
    refine List.forall_mem_cons.mpr ⟨?_, ?_⟩
    · rw [hspan]
      dsimp only
      omega
    · intro u hu
      have hbounds := h.bounds u hu
      omega
  case boundary =>
    refine List.forall_mem_cons.mpr ⟨?_, h.boundary⟩
    rw [hspan, ← byteLength_append]
    exact ⟨isValid_byteLength hsource, isValid_byteLength hsplit⟩
  case ordered =>
    apply List.pairwise_cons.mpr
    refine ⟨fun u hu ↦ ?_, h.ordered⟩
    rw [hspan]
    exact (h.bounds u hu).1
  case blank =>
    intro i c hi hc
    by_cases hlt : i < byteLength front + byteLength taken
    · refine .inr ⟨t, List.mem_cons_self .., ?_⟩
      rw [hspan]
      exact ⟨hi, hlt⟩
    · rcases h.blank i c (by omega) hc with hblank | ⟨u, hu, hui⟩
      · exact .inl hblank
      · exact .inr ⟨u, List.mem_cons_of_mem _ hu, hui⟩
  case text =>
    intro before u behind htokens
    cases before with
    | nil =>
      obtain ⟨rfl, rfl⟩ := List.cons.inj htokens
      apply hcovers.imp_right
      rintro ⟨rfl, hopen⟩
      have hend : byteLength front + byteLength taken = source.utf8ByteSize := by
        rw [hsize]
        rfl
      rw [hend] at h
      exact ⟨h.eq_nil, hopen⟩
    | cons v before =>
      obtain ⟨-, htokens⟩ := List.cons.inj htokens
      exact h.text before u behind htokens
  case isLexeme => exact List.forall_mem_cons.mpr ⟨ht, h.isLexeme⟩
  case longest =>
    refine List.forall_mem_cons.mpr ⟨fun c hc ↦ ?_, h.longest⟩
    rw [hspan, ← byteLength_append] at hc
    obtain ⟨before, behind, rfl, hbefore⟩ := exists_of_standsAt hsplit (Nat.le_refl _) hc
    obtain rfl : before = [] := byteLength_eq_zero_iff.mp (by omega)
    exact hends c rfl

/-- Blanks in front of a reading belong to it. -/
theorem reading_of_blank {source : String} {passed lead text : List Char} {tokens : List Token}
    (hsource : source.toList = (passed ++ lead) ++ text) (hlead : ∀ c ∈ lead, isBlank c)
    (h : Reading source (byteLength (passed ++ lead)) tokens) :
    Reading source (byteLength passed) tokens := by
  have hle : byteLength passed ≤ byteLength (passed ++ lead) := by
    rw [byteLength_append]
    omega
  refine { h with bounds := ?_, blank := ?_ }
  · intro t ht
    have hbounds := h.bounds t ht
    omega
  · intro i c hi hc
    by_cases hlt : byteLength (passed ++ lead) ≤ i
    · exact h.blank i c hlt hc
    · rw [List.append_assoc] at hsource
      obtain ⟨before, behind, hrest, rfl⟩ := exists_of_standsAt hsource hi hc
      rcases List.append_eq_append_iff.mp hrest with ⟨more, rfl, -⟩ | ⟨more, rfl, htext⟩
      · exfalso
        simp only [byteLength_append] at hlt
        omega
      · cases more with
        | nil =>
          exfalso
          rw [List.append_nil, byteLength_append] at hlt
          omega
        | cons d more =>
          obtain ⟨rfl, -⟩ := List.cons.inj htext
          exact .inl (hlead c (by simp))

section

variable {source : String} {l : Lexer}

/-- There is no token to read where only blanks are left. -/
theorem reading_nil_iff (hl : l.IsAt source) :
    Reading source l.offset [] ↔ ∃ stop, scan l.offset l.rest = .atEnd stop := by
  obtain ⟨passed, hsource, hoffset⟩ := hl
  rw [hoffset]
  constructor
  · intro h
    refine ⟨_, scan_eq_atEnd_iff.mpr ⟨fun c hc ↦ ?_, rfl⟩⟩
    obtain ⟨front, behind, hrest⟩ := List.append_of_mem hc
    have hblank := h.blank _ c (Nat.le_add_right _ _) (standsAt_of_rest hsource hrest)
    simpa using hblank
  · rintro ⟨stop, hscan⟩
    have hblank := (scan_eq_atEnd_iff.mp hscan).1
    constructor
    case blank =>
      intro i c hi hc
      obtain ⟨front, behind, hrest, -⟩ := exists_of_standsAt hsource hi hc
      exact .inl (hblank c (by simp [hrest]))
    all_goals simp

private theorem exists_lead {passed rest : List Char} {t : Token} {tokens : List Token}
    (hsource : source.toList = passed ++ rest)
    (h : Reading source (byteLength passed) (t :: tokens)) :
    ∃ lead text rest', rest = lead ++ text ∧ (∀ c ∈ lead, isBlank c) ∧
      Reads (byteLength (passed ++ lead)) text t rest' t.span.stop := by
  have ht := h.isLexeme t (List.mem_cons_self ..)
  obtain ⟨hle, -, -⟩ := h.bounds t (List.mem_cons_self ..)
  have hcovers := (h.text [] t tokens rfl).imp_right And.right
  obtain ⟨front, text, rest', hfront, hreads⟩ := exists_reads_of_covers ht hcovers
  obtain ⟨taken, -, -, -, hspan⟩ := hreads.exists_split ht
  rw [hspan] at hle
  obtain ⟨lead, rfl⟩ := prefix_of_byteLength_le ⟨rest, hsource.symm⟩ ⟨text, hfront.symm⟩ hle
  have hrest : rest = lead ++ text := by
    rw [hsource, List.append_assoc] at hfront
    exact List.append_cancel_left hfront
  refine ⟨lead, text, rest', hrest, fun c hc ↦ ?_, hreads⟩
  -- Nothing covers a character in front of the first token.
  obtain ⟨before, behind, rfl⟩ := List.append_of_mem hc
  have hsplit : rest = before ++ c :: (behind ++ text) := by simp [hrest]
  have hstands := standsAt_of_rest hsource hsplit
  rcases h.blank _ c (Nat.le_add_right _ _) hstands with hblank | ⟨u, hu, hstart, -⟩
  · exact hblank
  · have hfirst : t.span.start ≤ u.span.start := by
      rcases List.mem_cons.mp hu with rfl | hu
      · exact Nat.le_refl _
      · have hstop := (List.pairwise_cons.mp h.ordered).1 u hu
        have hlt := (h.bounds t (List.mem_cons_self ..)).2.1
        omega
    have hpos := c.utf8Size_pos
    rw [hspan] at hfirst
    simp only [byteLength_append, byteLength_cons] at hfirst
    omega

/-- A reading goes on behind its first token, which is what the lexer finds. -/
theorem reading_cons_iff (hl : l.IsAt source) {t : Token} {tokens : List Token} :
    Reading source l.offset (t :: tokens) ↔
      ∃ rest stop, scan l.offset l.rest = .token t rest stop ∧ Reading source stop tokens := by
  obtain ⟨passed, hsource, hoffset⟩ := hl
  rw [hoffset]
  constructor
  · intro h
    obtain ⟨lead, text, rest', hrest, hlead, hreads⟩ := exists_lead hsource h
    have ht := h.isLexeme t (List.mem_cons_self ..)
    refine ⟨rest', t.span.stop,
      scan_eq_token_iff.mpr ⟨lead, text, hrest, hlead, ?_, ht, ?_⟩, h.tail⟩
    · rw [← byteLength_append]
      exact hreads
    · obtain ⟨taken, -, rfl, hstop, -⟩ := hreads.exists_split ht
      intro c hc
      obtain ⟨tail, rfl⟩ := List.head?_eq_some_iff.mp hc
      refine h.longest t (List.mem_cons_self ..) c ⟨passed ++ (lead ++ taken), tail, ?_, ?_⟩
      · simp [hsource, hrest]
      · rw [hstop]
        simp only [byteLength_append]
        omega
  · rintro ⟨rest', stop, hscan, h⟩
    obtain ⟨lead, text, hrest, hlead, hreads, ht, hends⟩ := scan_eq_token_iff.mp hscan
    rw [← byteLength_append] at hreads
    rw [hrest, ← List.append_assoc] at hsource
    exact reading_of_blank hsource hlead (reading_cons hsource hreads ht hends h)

/-- The tokens of a reading are those that remain, up to the end of the source. -/
theorem remaining_eq_iff_reading (hl : l.IsAt source) {tokens : List Token} {stop : Nat} :
    l.remaining = (tokens, .ok stop) ↔
      Reading source l.offset tokens ∧ stop = source.utf8ByteSize := by
  induction tokens generalizing l with
  | nil =>
    rw [reading_nil_iff hl]
    cases hs : scan l.offset l.rest with
    | failed e => simp [remaining_of_failed hs]
    | token t rest stop' => simp [remaining_of_token hs]
    | atEnd stop' =>
      have hstop := hl.of_atEnd hs
      simp [remaining_of_atEnd hs, hstop, eq_comm]
  | cons t tokens ih =>
    rw [reading_cons_iff hl]
    cases hs : scan l.offset l.rest with
    | failed e => simp [remaining_of_failed hs]
    | atEnd stop' => simp [remaining_of_atEnd hs]
    | token u rest stop' =>
      have ih := ih (hl.of_scan hs).1
      rw [remaining_of_token hs]
      simp only [Prod.ext_iff] at ih ⊢
      constructor
      · rintro ⟨htokens, hstop⟩
        obtain ⟨rfl, hrest⟩ := List.cons.inj htokens
        obtain ⟨hreading, hend⟩ := ih.mp ⟨hrest, hstop⟩
        exact ⟨⟨rest, stop', rfl, hreading⟩, hend⟩
      · rintro ⟨⟨rest', stop'', hscan, hreading⟩, hend⟩
        obtain ⟨rfl, rfl, rfl⟩ := Scan.token.inj hscan
        obtain ⟨htokens, hstop⟩ := ih.mpr ⟨hreading, hend⟩
        exact ⟨congrArg (u :: ·) htokens, hstop⟩

/-- Tokens end where the source ends. -/
theorem IsAt.of_ending (hl : l.IsAt source) {stop : Nat} (h : l.remaining.2 = .ok stop) :
    stop = source.utf8ByteSize :=
  ((remaining_eq_iff_reading hl).mp (Prod.ext rfl h)).2

end

end Lexer

/-- Lexing a source finds its tokens: a list that ends with the end of the source and is a reading
of it in front of that. There is no other such list. -/
theorem tokenize_eq_ok_iff_reading {source : String} {tokens : List Token} :
    tokenize source = .ok tokens ↔
      ∃ body, tokens = body ++ [.eof source.utf8ByteSize] ∧ Reading source 0 body := by
  have hstart := Lexer.isAt_ofSource source
  rw [tokenize_eq_ok_iff]
  constructor
  · rintro ⟨stop, hstop, rfl⟩
    obtain ⟨hreading, rfl⟩ := (Lexer.remaining_eq_iff_reading hstart).mp (Prod.ext rfl hstop)
    exact ⟨_, rfl, hreading⟩
  · rintro ⟨body, rfl, hreading⟩
    have hremaining := (Lexer.remaining_eq_iff_reading hstart).mpr ⟨hreading, rfl⟩
    rw [hremaining]
    exact ⟨_, rfl, rfl⟩

end SelectQuery
