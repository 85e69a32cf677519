import SelectQuery.Proofs.Run

/-!
# Tokens as slices of the source

A token lies where its span says: the text of the token is the slice of the source between the two
offsets (`Span.Covers`). Reading keeps count of the bytes that it has passed, blanks included, so
this holds for every token of a source but a string that is still open where the source ends
(`Lexer.covers_of_remaining`).
-/

namespace SelectQuery

/-- The text is the slice of the source between the two offsets of the span. -/
def Span.Covers (span : Span) (source text : String) : Prop :=
  ∃ front behind, source = front ++ text ++ behind ∧
    span = .ofSize front.utf8ByteSize text.utf8ByteSize

namespace Lexer

/-- The first character counts with the bytes of its encoding. -/
theorem byteLength_cons (c : Char) (text : List Char) :
    byteLength (c :: text) = c.utf8Size + byteLength text := by
  have hfoldl (n : Nat) : text.foldl (fun size c ↦ size + c.utf8Size) n = n + byteLength text := by
    unfold byteLength
    induction text generalizing n with
    | nil => rfl
    | cons d text ih =>
      rw [List.foldl_cons, List.foldl_cons, ih, ih (0 + d.utf8Size)]
      omega
  rw [byteLength, List.foldl_cons, hfoldl, Nat.zero_add]

/-- The length in bytes is the size of the string. -/
theorem utf8ByteSize_ofList (text : List Char) :
    (String.ofList text).utf8ByteSize = byteLength text := by
  induction text with
  | nil => rfl
  | cons c text ih =>
    have hcons : String.ofList (c :: text) = String.singleton c ++ String.ofList text := by
      rw [String.singleton_eq_ofList, ← String.ofList_append, List.singleton_append]
    rw [hcons, String.utf8ByteSize_append, String.utf8ByteSize_singleton, ih, byteLength_cons]

/-- The characters of a string have its length in bytes. -/
@[simp] theorem byteLength_toList (text : String) : byteLength text.toList = text.utf8ByteSize := by
  rw [← utf8ByteSize_ofList, String.ofList_toList]

/-- Lengths in bytes add up. -/
theorem byteLength_append (text text' : List Char) :
    byteLength (text ++ text') = byteLength text + byteLength text' := by
  simp only [← utf8ByteSize_ofList, String.ofList_append, String.utf8ByteSize_append]

/-- Every character takes up a byte at least. -/
theorem byteLength_eq_zero_iff {text : List Char} : byteLength text = 0 ↔ text = [] := by
  constructor
  · intro h
    cases text with
    | nil => rfl
    | cons c text =>
      have hpos := c.utf8Size_pos
      rw [byteLength_cons] at h
      omega
  · rintro rfl
    rfl

/-- Of two beginnings of a text the shorter in bytes is a beginning of the other. -/
theorem prefix_of_byteLength_le {front front' text : List Char} (h : front <+: text)
    (h' : front' <+: text) (hle : byteLength front ≤ byteLength front') : front <+: front' := by
  rcases List.prefix_or_prefix_of_prefix h h' with hfront | ⟨more, rfl⟩
  · exact hfront
  · have hmore : more = [] := byteLength_eq_zero_iff.mp (by rw [byteLength_append] at hle; omega)
    exact ⟨[], by rw [hmore, List.append_nil, List.append_nil]⟩

/-- Blanks are passed before anything is found. -/
theorem scan_blank_append {lead : List Char} (hlead : ∀ c ∈ lead, isBlank c) (offset : Nat)
    (text : List Char) : scan offset (lead ++ text) = scan (offset + byteLength lead) text := by
  rw [scan, scan, List.takeWhile_append_of_pos hlead, List.dropWhile_append_of_pos hlead,
    byteLength_append, Nat.add_assoc]

/-- Passing blanks does not change what is found. -/
@[simp] theorem scan_skipBlanks (l : Lexer) :
    scan l.skipBlanks.offset l.skipBlanks.rest = scan l.offset l.rest := by
  have hlead : ∀ c ∈ l.rest.takeWhile isBlank, isBlank c := fun c hc ↦ List.mem_takeWhile_imp hc
  have hscan := scan_blank_append hlead l.offset (l.rest.dropWhile isBlank)
  rw [List.takeWhile_append_dropWhile] at hscan
  exact hscan.symm

/-- Passing blanks does not change what remains. -/
@[simp] theorem remaining_skipBlanks (l : Lexer) : l.skipBlanks.remaining = l.remaining :=
  remaining_congr (scan_skipBlanks l)

/-- The lexer is at a place of the source, whose offset is the length of all that precedes it. -/
def IsAt (l : Lexer) (source : String) : Prop :=
  ∃ front, source.toList = front ++ l.rest ∧ l.offset = byteLength front

/-- Reading begins at the first character. -/
theorem isAt_ofSource (source : String) : (ofSource source).IsAt source := ⟨[], rfl, rfl⟩

/-- Behind blanks there is another place of the source. -/
theorem IsAt.skipBlanks {l : Lexer} {source : String} (hl : l.IsAt source) :
    l.skipBlanks.IsAt source := by
  obtain ⟨front, hsource, hoffset⟩ := hl
  refine ⟨front ++ l.rest.takeWhile isBlank, ?_, ?_⟩
  · rw [hsource, List.append_assoc, Lexer.skipBlanks, List.takeWhile_append_dropWhile]
  · rw [byteLength_append, ← hoffset]
    rfl

/-- A token with a text of the source lies where that text stands. -/
theorem covers_ofText {source text : String} {front behind : List Char}
    (hsource : source.toList = front ++ (text.toList ++ behind)) (kind : TokenKind) :
    (Token.ofText kind text (byteLength front)).span.Covers source text := by
  refine ⟨.ofList front, .ofList behind, ?_, by rw [utf8ByteSize_ofList]; rfl⟩
  rw [← String.toList_inj, hsource]
  simp

/-- Reading a token leads to another place of the source, and the token covers its text there,
unless it is a string that the source does not close. -/
theorem IsAt.of_scan {l : Lexer} {source : String} (hl : l.IsAt source) {t : Token}
    {rest : List Char} {stop : Nat} (h : scan l.offset l.rest = .token t rest stop) :
    (Lexer.mk rest stop l.ended).IsAt source ∧
      (t.span.Covers source t.text ∨ (t.kind = .string ∧ rest = [])) := by
  obtain ⟨front, hsource, hoffset⟩ := hl
  -- The token begins behind what has been passed and the blanks.
  generalize hfront : front ++ l.rest.takeWhile isBlank = passed
  have hstart : l.offset + byteLength (l.rest.takeWhile isBlank) = byteLength passed := by
    rw [← hfront, byteLength_append, hoffset]
  have hsplit : source.toList = passed ++ l.rest.dropWhile isBlank := by
    rw [← hfront, List.append_assoc, List.takeWhile_append_dropWhile, hsource]
  unfold scan at h
  rw [hstart] at h
  cases (reads_of_scanLexeme h).1 with
  | @lexeme kind s rest hs htext =>
    rw [htext] at hsplit
    refine ⟨⟨passed ++ s.toList, ?_, by rw [byteLength_append, byteLength_toList]⟩,
      .inl (covers_ofText hsplit kind)⟩
    rw [hsplit, List.append_assoc]
  | unclosed =>
    exact ⟨⟨_, by rw [hsplit, List.append_nil], by rw [byteLength_append]⟩, .inr ⟨rfl, rfl⟩⟩

/-- The source ends at its length. -/
theorem IsAt.of_atEnd {l : Lexer} {source : String} (hl : l.IsAt source) {stop : Nat}
    (h : scan l.offset l.rest = .atEnd stop) : stop = source.utf8ByteSize := by
  obtain ⟨front, hsource, hoffset⟩ := hl
  rw [(scan_eq_atEnd_iff.mp h).2, hoffset, ← byteLength_append, ← hsource, byteLength_toList]

/-- Every token that remains at a place of the source covers its text, but the last may be a string
that is not closed. -/
theorem covers_of_remaining {l : Lexer} {source : String} (hl : l.IsAt source) {t : Token}
    {front behind : List Token} (h : l.remaining.1 = front ++ t :: behind) :
    t.span.Covers source t.text ∨ (t.kind = .string ∧ behind = []) :=
  forall_remaining (·.IsAt source) (fun t ↦ t.span.Covers source t.text)
    (fun hl hs ↦ hl.of_scan hs) hl h

end Lexer

end SelectQuery
