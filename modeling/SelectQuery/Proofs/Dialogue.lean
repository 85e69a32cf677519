import SelectQuery.CommandLine.Session
import SelectQuery.Proofs.Lexeme

/-!
# Sessions line by line

The input of a session is taken apart into its lines (`textLines_lines`), and each line is answered
on its own, up to one that ends the session (`Session.loop_append`). So a line that does not end it
is answered between two prompts (`Session.exists_run_eq`).
-/

namespace SelectQuery.CommandLine

private theorem toList_loop_eq (bytes : ByteArray) (i : Nat) (read : List UInt8) :
    ByteArray.toList.loop bytes i read = read.reverse ++ bytes.data.toList.drop i := by
  fun_induction ByteArray.toList.loop bytes i read with
  | case1 i read hi ih =>
    have hlt : i < bytes.data.toList.length := by simpa using hi
    rw [ih, List.drop_eq_getElem_cons hlt]
    simp [ByteArray.get!, hi]
  | case2 i read hi =>
    rw [List.drop_eq_nil_of_le (by simpa using Nat.le_of_not_lt hi)]
    simp

private theorem toList_eq_data (bytes : ByteArray) : bytes.toList = bytes.data.toList := by
  simp [ByteArray.toList, toList_loop_eq]

private theorem toList_append (a b : ByteArray) : (a ++ b).toList = a.toList ++ b.toList := by
  simp only [toList_eq_data, ByteArray.toList_data_append]

-- The byte of the line feed is part of the encoding of no other character: where there are several
-- bytes, all are large.
private theorem eq_lineFeed_of_mem {c : Char} (h : 10 ∈ String.utf8EncodeChar c) : c = '\n' := by
  have hbyte {n : Nat} (h : (10 : UInt8) = UInt8.ofNat n) : n % 256 = 10 := by
    simpa using (congrArg UInt8.toNat h).symm
  revert h
  fun_cases String.utf8EncodeChar c with
  | case1 value hvalue =>
    intro h
    have hten := hbyte (List.mem_singleton.mp h)
    rw [Nat.mod_eq_of_lt (by omega)] at hten
    exact Char.ext (UInt32.toNat_inj.mp hten)
  | _ =>
    intro h
    repeat
      obtain hhead | h := List.mem_cons.mp h
      · have hten := hbyte hhead
        omega
    cases h

/-- A text without line feeds is encoded without the byte of the line feed. -/
theorem lineFeed_not_mem_toUTF8 {text : String} (h : '\n' ∉ text.toList) :
    10 ∉ text.toUTF8.toList := by
  intro hmem
  rw [toList_eq_data, String.toUTF8_eq_toByteArray, ← String.utf8Encode_toList, List.utf8Encode,
    List.toList_data_toByteArray, List.mem_flatMap] at hmem
  obtain ⟨c, hc, hmem⟩ := hmem
  rw [eq_lineFeed_of_mem hmem] at hc
  exact h hc

/-- The bytes of a text are read as that text. -/
theorem fromUTF8?_toUTF8 (text : String) : String.fromUTF8? text.toUTF8 = some text := by
  unfold String.fromUTF8?
  rw [String.toUTF8_eq_toByteArray, dif_pos text.isValidUTF8]
  rfl

private theorem fromUTF8?_toList (text : String) :
    String.fromUTF8? text.toUTF8.toList.toByteArray = some text := by
  have hbytes : text.toUTF8.toList.toByteArray = text.toUTF8 := by
    apply ByteArray.ext
    rw [← Array.toList_inj, List.toList_data_toByteArray, toList_eq_data]
  rw [hbytes, fromUTF8?_toUTF8]

private theorem byteLines_eq {bytes : List UInt8} (h : bytes ≠ []) :
    byteLines bytes =
      match bytes.dropWhile (· != 10) with
      | [] => [bytes]
      | feed :: rest => (bytes.takeWhile (· != 10) ++ [feed]) :: byteLines rest := by
  cases bytes with
  | nil => exact absurd rfl h
  | cons b bs =>
    rw [byteLines]
    split
    next hdrop => rw [hdrop]
    next hdrop => rw [hdrop]

/-- What precedes the first line feed is the first line, and the line feed ends it. -/
theorem byteLines_append {line : List UInt8} (h : 10 ∉ line) (rest : List UInt8) :
    byteLines (line ++ 10 :: rest) = (line ++ [10]) :: byteLines rest := by
  have hline : ∀ b ∈ line, (b != 10) = true := fun b hb ↦ bne_iff_ne.mpr (ne_of_mem_of_not_mem hb h)
  rw [byteLines_eq (by simp), List.takeWhile_append_of_pos hline,
    List.dropWhile_append_of_pos hline]
  simp

/-- The last line may lack the line feed. -/
theorem byteLines_last {line : List UInt8} (h : 10 ∉ line) (hne : line ≠ []) :
    byteLines line = [line] := by
  have hline : ∀ b ∈ line, (b != 10) = true := fun b hb ↦ bne_iff_ne.mpr (ne_of_mem_of_not_mem hb h)
  rw [byteLines_eq hne, List.dropWhile_eq_nil_iff.mpr hline]

/-- A line of text in front of other input is the first line. -/
theorem textLines_line {line : String} (h : '\n' ∉ line.toList) (rest : ByteArray) :
    textLines ((line ++ "\n").toUTF8 ++ rest) = some (line ++ "\n") :: textLines rest := by
  have hbytes : (line ++ "\n").toUTF8.toList = line.toUTF8.toList ++ [10] := by
    simp only [toList_eq_data, String.toUTF8_eq_toByteArray, String.toByteArray_append,
      ByteArray.toList_data_append]
    rfl
  rw [textLines, toList_append, hbytes, List.append_assoc, List.singleton_append,
    byteLines_append (lineFeed_not_mem_toUTF8 h), List.map_cons, ← hbytes, fromUTF8?_toList]
  rfl

/-- A line of text at the end of the input is the last line. -/
theorem textLines_last {line : String} (h : '\n' ∉ line.toList) (hne : line ≠ "") :
    textLines line.toUTF8 = [some line] := by
  have hbytes : line.toUTF8.toList ≠ [] := by
    -- Otherwise its bytes would be read as the empty text.
    intro hnil
    have hline := fromUTF8?_toList line
    have hempty := fromUTF8?_toList ""
    rw [hnil] at hline
    rw [show "".toUTF8.toList = [] from toList_eq_data _] at hempty
    exact hne (Option.some.inj (hline.symm.trans hempty))
  rw [textLines, byteLines_last (lineFeed_not_mem_toUTF8 h) hbytes, List.map_singleton,
    fromUTF8?_toList]

/-- A line of text is the first line, with the line feed that ends it, or without one at the end of
the input. -/
theorem textLines_first {line feed : String} {rest : ByteArray} (h : '\n' ∉ line.toList)
    (hne : line ≠ "") (hfeed : feed = "\n" ∨ feed = "" ∧ rest = .empty) :
    textLines ((line ++ feed).toUTF8 ++ rest) = some (line ++ feed) :: textLines rest := by
  rcases hfeed with rfl | ⟨rfl, rfl⟩
  · exact textLines_line h rest
  · have hend : textLines .empty = [] := by simp [textLines, toList_eq_data, byteLines]
    rw [String.append_empty, ByteArray.append_empty, textLines_last h hne, hend]

/-- Lines of text in front of other input are the first lines, in order. -/
theorem textLines_lines {lines : List String} (h : ∀ line ∈ lines, '\n' ∉ line.toList)
    (rest : ByteArray) :
    textLines ((String.join (lines.map (· ++ "\n"))).toUTF8 ++ rest) =
      lines.map (fun line ↦ some (line ++ "\n")) ++ textLines rest := by
  induction lines with
  | nil => simp
  | cons line lines ih =>
    obtain ⟨hline, hlines⟩ := List.forall_mem_cons.mp h
    rw [List.map_cons, String.join_cons, String.toUTF8_eq_toByteArray, String.toByteArray_append,
      ByteArray.append_assoc, ← String.toUTF8_eq_toByteArray, ← String.toUTF8_eq_toByteArray,
      textLines_line hline, ih hlines]
    rfl

namespace Session

/-- What is written when a line is read that is valid text: the prompt and the answer. -/
def exchange (o : Options) (line : String) : List Output :=
  prompt :: respond o (Entry.ofLine line)

/-- Lines are answered in order, one by one, as long as none ends the session. -/
theorem loop_append (o : Options) {lines : List String}
    (h : ∀ line ∈ lines, Entry.ofLine line ≠ .leave) (rest : List (Option String)) :
    loop o (lines.map some ++ rest) = lines.flatMap (exchange o) ++ loop o rest := by
  induction lines with
  | nil => rfl
  | cons line lines ih =>
    obtain ⟨hline, hlines⟩ := List.forall_mem_cons.mp h
    have hreact : react o (some (some line)) = (respond o (Entry.ofLine line), true) := by
      simp [react, hline]
    rw [List.map_cons, List.cons_append, loop, hreact, ih hlines]
    simp [exchange]

/-- Before anything is read there is a prompt. -/
theorem exists_loop_eq (o : Options) (lines : List (Option String)) :
    ∃ behind, loop o lines = prompt :: behind := by
  cases lines with
  | nil => exact ⟨_, rfl⟩
  | cons line lines =>
    rw [loop]
    exact ⟨_, rfl⟩

/-- A line that does not end the session is answered between two prompts, behind the lines before
it. -/
theorem exists_run_eq (o : Options) {lines : List String} {line feed : String} {rest : ByteArray}
    (hlines : ∀ line ∈ lines, '\n' ∉ line.toList ∧ Entry.ofLine (line ++ "\n") ≠ .leave)
    (hline : '\n' ∉ line.toList) (hne : line ≠ "") (hfeed : feed = "\n" ∨ feed = "" ∧ rest = .empty)
    (hstays : Entry.ofLine (line ++ feed) ≠ .leave) :
    ∃ behind,
      run o (textLines ((String.join (lines.map (· ++ "\n"))).toUTF8 ++
          ((line ++ feed).toUTF8 ++ rest))) =
        .outLine help :: (lines.flatMap (fun line ↦ exchange o (line ++ "\n")) ++
          (exchange o (line ++ feed) ++ prompt :: behind)) := by
  obtain ⟨behind, hbehind⟩ := exists_loop_eq o (textLines rest)
  have hread : textLines ((String.join (lines.map (· ++ "\n"))).toUTF8 ++
      ((line ++ feed).toUTF8 ++ rest)) =
        (lines.map (· ++ "\n") ++ [line ++ feed]).map some ++ textLines rest := by
    rw [textLines_lines fun line hline ↦ (hlines line hline).1, textLines_first hline hne hfeed]
    simp
  have hall : ∀ entered ∈ lines.map (· ++ "\n") ++ [line ++ feed],
      Entry.ofLine entered ≠ .leave := by
    intro entered hentered
    rcases List.mem_append.mp hentered with hearlier | hlast
    · obtain ⟨earlier, hmem, rfl⟩ := List.mem_map.mp hearlier
      exact (hlines earlier hmem).2
    · rwa [List.mem_singleton.mp hlast]
  refine ⟨behind, ?_⟩
  rw [run, hread, loop_append o hall, hbehind, List.flatMap_append, List.flatMap_map]
  simp

end Session

end SelectQuery.CommandLine
