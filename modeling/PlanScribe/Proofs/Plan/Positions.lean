import PlanScribe.Plan.Diagnostic
import PlanScribe.Storage.Bytes
import PlanScribe.Proofs.Text.Occurrences
import Mathlib.Data.List.DropRight

/-!
# Lines and columns of a source

A byte position of a source is numbered by its line, which counts the line feeds in front of it, and
its column, which counts the bytes since the last of them. Looking up a line and column is the
inverse of this numbering, for the positions inside of a character and at the end of the source too.
No line and column, wherever they come from, lead to a place after the end.
-/
namespace PlanScribe

open Text

/-! ## Numbering -/

/-- The byte of a line feed. -/
def lineFeedByte : UInt8 := 10

/-- The line of a position: one more than the line feeds before it. -/
def lineAt (bytes : Bytes) (position : Nat) : Nat :=
  1 + (bytes.take position).count lineFeedByte

/-- The column of a position: one more than the bytes between it and the last line feed before it,
or the start. -/
def columnAt (bytes : Bytes) (position : Nat) : Nat :=
  1 + ((bytes.take position).rtakeWhile (· != lineFeedByte)).length

/-- The bytes are lines with their line feeds. -/
def CompleteLines (bytes : Bytes) : Prop :=
  bytes = [] ∨ ∃ earlier, bytes = earlier ++ [lineFeedByte]

theorem count_rtakeWhile (bytes : Bytes) :
    (bytes.rtakeWhile (· != lineFeedByte)).count lineFeedByte = 0 := by
  apply List.count_eq_zero.mpr
  intro hmem
  simpa using List.mem_rtakeWhile_imp hmem

theorem completeLines_rdropWhile (bytes : Bytes) :
    CompleteLines (bytes.rdropWhile (· != lineFeedByte)) := by
  by_cases hnil : bytes.rdropWhile (· != lineFeedByte) = []
  · exact .inl hnil
  · have hlast := List.rdropWhile_last_not _ _ hnil
    refine .inr ⟨(bytes.rdropWhile (· != lineFeedByte)).dropLast, ?_⟩
    rw [← List.dropLast_append_getLast hnil]
    simp_all

/-- What stands before a position: complete lines, and a beginning of the line that it is on. -/
theorem exists_lines_before (bytes : Bytes) {position : Nat} (h : position ≤ bytes.length) :
    ∃ before rest, bytes = before ++ rest ∧ CompleteLines before ∧
      lineAt bytes position = 1 + before.count lineFeedByte ∧
      position = before.length + (columnAt bytes position - 1) := by
  have hsplit := List.rdropWhile_append_rtakeWhile (p := (· != lineFeedByte))
    (l := bytes.take position)
  refine ⟨(bytes.take position).rdropWhile (· != lineFeedByte),
    (bytes.take position).rtakeWhile (· != lineFeedByte) ++ bytes.drop position, ?_,
    completeLines_rdropWhile _, ?_, ?_⟩
  · rw [← List.append_assoc, hsplit, List.take_append_drop]
  · have hcount := congrArg (List.count lineFeedByte) hsplit
    rw [List.count_append, count_rtakeWhile] at hcount
    unfold lineAt
    omega
  · have hlength := congrArg List.length hsplit
    rw [List.length_append, List.length_take] at hlength
    unfold columnAt
    omega

/-- There is a line for each number up to that of the last one. -/
theorem exists_lines_of_le_count (bytes : Bytes) {count : Nat}
    (h : count ≤ bytes.count lineFeedByte) :
    ∃ before rest, bytes = before ++ rest ∧ CompleteLines before ∧
      before.count lineFeedByte = count := by
  induction bytes generalizing count with
  | nil => exact ⟨[], [], rfl, .inl rfl, (Nat.le_zero.mp h).symm⟩
  | cons b bytes ih =>
    cases count with
    | zero => exact ⟨[], b :: bytes, rfl, .inl rfl, rfl⟩
    | succ count =>
      by_cases hb : b = lineFeedByte
      · subst hb
        rw [List.count_cons_self] at h
        obtain ⟨before, rest, rfl, hcomplete, hcount⟩ := ih (Nat.le_of_succ_le_succ h)
        refine ⟨lineFeedByte :: before, rest, rfl, .inr ?_, ?_⟩
        · rcases hcomplete with rfl | ⟨earlier, rfl⟩
          · exact ⟨[], rfl⟩
          · exact ⟨lineFeedByte :: earlier, rfl⟩
        · rw [List.count_cons_self, hcount]
      · rw [List.count_cons_of_ne hb] at h
        obtain ⟨before, rest, rfl, hcomplete, hcount⟩ := ih h
        refine ⟨b :: before, rest, rfl, .inr ?_, ?_⟩
        · rcases hcomplete with rfl | ⟨earlier, rfl⟩
          · cases hcount
          · exact ⟨b :: earlier, rfl⟩
        · rw [List.count_cons_of_ne hb, hcount]

theorem CompleteLines.of_append (before : Bytes) {after : Bytes}
    (h : CompleteLines (before ++ after)) : CompleteLines after := by
  rcases List.eq_nil_or_concat' after with rfl | ⟨more, b, rfl⟩
  · exact .inl rfl
  · rcases h with hnil | ⟨earlier, hends⟩
    · simp at hnil
    · rw [← List.append_assoc] at hends
      obtain rfl := List.singleton_inj.mp (List.append_inj' hends rfl).2
      exact .inr ⟨more, rfl⟩

/-- Behind complete lines a line starts. -/
theorem CompleteLines.start {before : Bytes} (h : CompleteLines before) (rest : Bytes) :
    lineAt (before ++ rest) before.length = 1 + before.count lineFeedByte ∧
      columnAt (before ++ rest) before.length = 1 := by
  unfold lineAt columnAt
  rw [List.take_left]
  refine ⟨rfl, ?_⟩
  rcases h with rfl | ⟨earlier, rfl⟩
  · rfl
  · rw [List.rtakeWhile_concat_neg _ _ _ (by simp)]
    rfl

/-! ## Lines in the encoding of a text -/

/-- Only a line feed has the byte of a line feed in its encoding. -/
theorem lineFeedByte_notMem {c : Char} (h : c ≠ '\n') :
    lineFeedByte ∉ String.utf8EncodeChar c := by
  have hvalue : c.toNat ≠ 10 := fun hc => h (Char.ext (UInt32.toNat_inj.mp hc))
  have hword : c.val.toNat = c.toNat := rfl
  intro hmem
  unfold String.utf8EncodeChar lineFeedByte at hmem
  simp only [hword] at hmem
  -- one byte is the character itself, and more than one have their highest bit set
  split_ifs at hmem <;> simp [← UInt8.toNat_inj] at hmem <;> omega

theorem utf8EncodeChar_lineFeed : String.utf8EncodeChar '\n' = [lineFeedByte] := by decide

theorem length_encodeText (text : String) : (encodeText text).length = text.utf8ByteSize := by
  rw [encodeText_eq_toByteArray]
  rfl

namespace Source

theorem bytesOfLines_lineFeed (count : Nat) (text : List Char) :
    bytesOfLines (count + 1) ('\n' :: text) = 1 + bytesOfLines count text := by
  rw [bytesOfLines, if_pos rfl]
  rfl

theorem bytesOfLines_cons {c : Char} (h : c ≠ '\n') (count : Nat) (text : List Char) :
    bytesOfLines (count + 1) (c :: text) = c.utf8Size + bytesOfLines (count + 1) text := by
  rw [bytesOfLines, if_neg h]

/-- The first lines of a text have as many bytes as its encoding has up to the end of them. -/
theorem bytesOfLines_of_completeLines {text : List Char} {before rest : Bytes}
    (h : text.flatMap String.utf8EncodeChar = before ++ rest) (hbefore : CompleteLines before) :
    bytesOfLines (before.count lineFeedByte) text = before.length := by
  induction text generalizing before with
  | nil =>
    obtain ⟨rfl, -⟩ := List.append_eq_nil_iff.mp h.symm
    rfl
  | cons c text ih =>
    rw [List.flatMap_cons] at h
    by_cases hc : c = '\n'
    · subst hc
      rw [utf8EncodeChar_lineFeed, List.singleton_append] at h
      cases before with
      | nil => rfl
      | cons b before =>
        obtain ⟨rfl, htext⟩ := List.cons.inj h
        have hlines := ih htext (.of_append [lineFeedByte] hbefore)
        rw [List.count_cons_self, bytesOfLines_lineFeed, hlines, List.length_cons, Nat.add_comm]
    · have hcount := List.count_eq_zero.mpr (lineFeedByte_notMem hc)
      rcases hbefore with rfl | ⟨earlier, hbefore⟩
      · rfl
      -- complete lines do not end inside of the character
      rcases List.append_eq_append_iff.mp h with ⟨more, rfl, htext⟩ | ⟨more, hmore, -⟩
      · have hlines := ih htext (.of_append _ (.inr ⟨earlier, hbefore⟩))
        have hsome : (String.utf8EncodeChar c ++ more).count lineFeedByte ≠ 0 := by
          rw [hbefore, List.count_append, List.count_singleton_self]
          omega
        rw [List.count_append, hcount, Nat.zero_add] at hsome ⊢
        obtain ⟨count, hsucc⟩ := Nat.exists_eq_succ_of_ne_zero hsome
        rw [List.length_append, String.length_utf8EncodeChar, ← hlines, hsucc]
        exact bytesOfLines_cons hc count text
      · refine absurd ?_ (lineFeedByte_notMem hc)
        rw [hmore, hbefore]
        simp

/-! ## Looking up a line and column -/

/-- On a line that starts behind complete lines, a column that is not past the end of the text leads
to its byte. -/
theorem offsetOf?_of_completeLines {text : String} {before rest : Bytes}
    (hsize : text.utf8ByteSize < UInt64.size) (h : encodeText text = before ++ rest)
    (hbefore : CompleteLines before) {column : Nat}
    (hcolumn : before.length + (column - 1) ≤ (encodeText text).length) :
    offsetOf? text.toList (1 + before.count lineFeedByte) column
      = some (before.length + (column - 1)) := by
  rw [length_encodeText] at hcolumn
  have hword : (UInt64.ofNat (before.length + (column - 1))).toNat
      = before.length + (column - 1) := by
    rw [UInt64.toNat_ofNat']
    exact Nat.mod_eq_of_lt (Nat.lt_of_le_of_lt hcolumn hsize)
  unfold offsetOf?
  rw [if_neg (by omega), Nat.add_sub_cancel_left, bytesOfLines_of_completeLines h hbefore]
  dsimp only
  rw [hword, byteLength_toList, if_pos hcolumn]

theorem le_of_offsetOf? {text : String} {line column offset : Nat}
    (h : offsetOf? text.toList line column = some offset) :
    offset ≤ (encodeText text).length := by
  unfold offsetOf? at h
  dsimp only at h
  split_ifs at h with hline hend
  obtain rfl := Option.some.inj h
  rw [length_encodeText, ← byteLength_toList]
  exact hend

/-- Lines and columns of a source that fits into memory, so that its length is a machine word. The
line and column of a position lead back to it, also inside of a character and at the end. Column
zero leads to the start of any line that there is. A line number of zero leads nowhere, and no line
and column whatsoever lead past the end of the source, so that the label of a syntax error starts
inside of the source or at its end. -/
theorem offsets_undo_numbering (source : Source)
    (hsize : source.text.utf8ByteSize < UInt64.size) :
    let chars := source.text.toList
    let bytes := encodeText source.text
    (∀ position ≤ bytes.length,
      offsetOf? chars (lineAt bytes position) (columnAt bytes position) = some position) ∧
    (∀ line, 1 ≤ line → line ≤ 1 + bytes.count lineFeedByte →
      ∃ start ≤ bytes.length, lineAt bytes start = line ∧ columnAt bytes start = 1 ∧
        offsetOf? chars line 0 = some start) ∧
    (∀ column, offsetOf? chars 0 column = none) ∧
    (∀ line column offset, offsetOf? chars line column = some offset → offset ≤ bytes.length) ∧
    ∀ line column, ∀ label ∈ (PlanError.malformedJsonAt source line column).labels,
      label.span.offset ≤ bytes.length := by
  intro chars bytes
  refine ⟨?_, ?_, fun _ => rfl, fun _ _ _ => le_of_offsetOf?, ?_⟩
  · intro position hposition
    obtain ⟨before, rest, hsplit, hbefore, hline, hcolumn⟩ := exists_lines_before bytes hposition
    rw [hline, offsetOf?_of_completeLines hsize hsplit hbefore (hcolumn ▸ hposition), ← hcolumn]
  · intro line hfirst hlast
    have hcount : line - 1 ≤ bytes.count lineFeedByte := by omega
    obtain ⟨before, rest, hsplit, hbefore, hcount⟩ := exists_lines_of_le_count bytes hcount
    have hstart : before.length ≤ bytes.length := by
      rw [hsplit, List.length_append]
      omega
    obtain ⟨hline, hcolumn⟩ := hbefore.start rest
    rw [← hsplit] at hline hcolumn
    have hnumber : 1 + before.count lineFeedByte = line := by omega
    refine ⟨before.length, hstart, hline.trans hnumber, hcolumn, ?_⟩
    rw [← hnumber]
    exact offsetOf?_of_completeLines hsize hsplit hbefore hstart
  · intro line column label hlabel
    obtain ⟨span, hspan, rfl⟩ : ∃ span, _ ∧ _ = label := by
      simpa [PlanError.labels] using hlabel
    obtain ⟨offset, hoffset, rfl⟩ := Option.map_eq_some_iff.mp hspan
    exact le_of_offsetOf? hoffset

/-- A position inside of a character, and the end of a text that ends with line feeds. -/
theorem offsets_undo_numbering_line_feeds :
    let source : Source := ⟨"é]\n\n", "plan.json"⟩
    let bytes := encodeText source.text
    source.text.utf8ByteSize < UInt64.size ∧
      (lineAt bytes 1 = 1 ∧ columnAt bytes 1 = 2) ∧
      offsetOf? source.text.toList 1 2 = some 1 ∧
      (lineAt bytes 5 = 3 ∧ columnAt bytes 5 = 1) ∧
      offsetOf? source.text.toList 3 1 = some 5 ∧
      offsetOf? source.text.toList 3 0 = some 5 := by
  intro source bytes
  have hsize : source.text.utf8ByteSize < UInt64.size := by decide
  obtain ⟨hback, hstart, -⟩ := source.offsets_undo_numbering hsize
  have hinside : lineAt bytes 1 = 1 ∧ columnAt bytes 1 = 2 := by decide
  have hend : lineAt bytes 5 = 3 ∧ columnAt bytes 5 = 1 := by decide
  have hfirst := hback 1 (by decide)
  rw [hinside.1, hinside.2] at hfirst
  have hlast := hback 5 (by decide)
  rw [hend.1, hend.2] at hlast
  obtain ⟨start, hlength, hline, hcolumn, hzero⟩ := hstart 3 (by decide) (by decide)
  have hsame := hback start hlength
  rw [hline, hcolumn, hlast] at hsame
  obtain rfl := Option.some.inj hsame
  exact ⟨hsize, hinside, hfirst, hend, hlast, hzero⟩

end Source

end PlanScribe
