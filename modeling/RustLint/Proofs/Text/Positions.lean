import RustLint.Proofs.Text.Encoding
import RustLint.Proofs.Text.LineTable
import RustLint.Source

set_option autoImplicit false

namespace RustLint.Source

open Text (encode)

/-- The text of the file is made up of the three, and the span marks the middle one. -/
structure Marks (s : Source) (span : Span) (before part after : List Char) : Prop where
  written : s.text.toList = before ++ part ++ after
  lo : span.lo = (encode before).length
  hi : span.hi = (encode (before ++ part)).length

theorem bytes_eq_encode (s : Source) : s.text.toByteArray.data.toList = encode s.text.toList := by
  have whole : s.text.toByteArray = (encode s.text.toList).toByteArray :=
    String.utf8Encode_toList.symm
  rw [whole, List.toList_data_toByteArray]

theorem size_eq_length (s : Source) : s.size = (encode s.text.toList).length := by
  rw [← bytes_eq_encode]
  rfl

theorem slice_eq (s : Source) (lo hi : Nat) :
    s.slice lo hi = ((encode s.text.toList).drop lo).take (hi - lo) := by
  rw [slice, ByteArray.data_extract, Array.toList_extract, bytes_eq_encode,
    List.extract_eq_take_drop]

/-- The bytes up to a position in front of which a known text stands. -/
theorem slice_front (s : Source) (before after : List Char)
    (written : s.text.toList = before ++ after) :
    s.slice 0 (encode before).length = encode before := by
  rw [slice_eq, written, Text.encode_append, List.drop_zero, Nat.sub_zero, List.take_left]

theorem clamp_front (s : Source) (before after : List Char)
    (written : s.text.toList = before ++ after) :
    s.clamp (encode before).length = (encode before).length := by
  have bound : (encode before).length ≤ s.size := by
    rw [size_eq_length, written, Text.encode_append, List.length_append]
    omega
  rw [clamp, Int.toNat_natCast]
  omega

/-- The table of lines, for the bytes in front of an offset and those behind it. -/
theorem lineTable_eq (s : Source) (offset : Nat) :
    s.lineTable = .ofBytes (s.slice 0 offset ++ (encode s.text.toList).drop offset) := by
  rw [lineTable, bytes_eq_encode, slice_eq, List.drop_zero, Nat.sub_zero, List.take_append_drop]

theorem length_slice_front (s : Source) (offset : Nat) (inside : offset ≤ s.size) :
    (s.slice 0 offset).length = offset := by
  rw [size_eq_length] at inside
  rw [slice_eq, List.drop_zero, Nat.sub_zero, List.length_take, Nat.min_eq_left inside]

/-- The line of an offset counts the line feeds in front of it. -/
theorem lineOf_eq_count (s : Source) (offset : Nat) (inside : offset ≤ s.size) :
    (s.lineTable.lineOf offset : Nat) = (s.slice 0 offset).count 10 := by
  have found := Text.LineTable.lineOf_ofBytes (s.slice 0 offset)
    ((encode s.text.toList).drop offset)
  rwa [length_slice_front s offset inside, ← lineTable_eq] at found

/-- The bytes of the line in front of an offset are those behind the last line feed. -/
theorem lineBefore_eq (s : Source) (offset : Nat) (inside : offset ≤ s.size) :
    s.lineBefore offset = (s.slice 0 offset).rtakeWhile (· != 10) := by
  have start := Text.LineTable.startOf_ofBytes (s.slice 0 offset)
    ((encode s.text.toList).drop offset)
  rw [length_slice_front s offset inside, ← lineTable_eq] at start
  have parts := List.rdropWhile_append_rtakeWhile (p := (· != 10)) (l := s.slice 0 offset)
  rw [lineBefore, start, slice_eq, ← List.drop_take]
  have whole : (encode s.text.toList).take offset = s.slice 0 offset := by
    rw [slice_eq, List.drop_zero, Nat.sub_zero]
  rw [whole]
  nth_rewrite 2 [← parts]
  exact List.drop_left

theorem clamp_le (s : Source) (offset : Int) : s.clamp offset ≤ s.size := Nat.min_le_right _ _

theorem line_eq_count (s : Source) (offset : Int) :
    (s.lineCol offset).1 = (s.slice 0 (s.clamp offset)).count 10 + 1 :=
  congrArg (· + 1) (lineOf_eq_count s _ (clamp_le s offset))

/-- The line of a position counts the line feeds in front of it. -/
theorem line_front (s : Source) (before after : List Char)
    (written : s.text.toList = before ++ after) :
    (s.lineCol (encode before).length).1 = before.count '\n' + 1 := by
  rw [line_eq_count, clamp_front s before after written, slice_front s before after written,
    Text.count_encode]

/-- Of two fronts of one text, the one with fewer bytes begins the other. -/
theorem exists_append_of_length_le (before rest before' rest' : List Char)
    (same : before ++ rest = before' ++ rest')
    (short : (encode before).length ≤ (encode before').length) :
    ∃ front, before' = before ++ front := by
  rcases List.append_eq_append_iff.mp same with ⟨front, longer, -⟩ | ⟨back, shorter, -⟩
  · exact ⟨front, longer⟩
  · rw [shorter, Text.encode_append, List.length_append] at short
    have noBytes : encode back = [] := List.eq_nil_of_length_eq_zero (by omega)
    rw [shorter, Text.encode_inj back [] noBytes, List.append_nil]
    exact ⟨[], (List.append_nil before').symm⟩

namespace Marks

variable {s : Source} {span : Span} {before part after : List Char}

theorem slice_eq (marks : Marks s span before part after) :
    s.slice span.lo.toNat span.hi.toNat = encode part := by
  rw [marks.lo, marks.hi, Source.slice_eq, marks.written, Int.toNat_natCast, Int.toNat_natCast,
    List.append_assoc, Text.encode_append, Text.encode_append, Text.encode_append,
    List.drop_left, List.length_append, Nat.add_sub_cancel_left, List.take_left]

theorem covers (marks : Marks s span before part after) : s.covers span = true := by
  have size := size_eq_length s
  rw [marks.written, Text.encode_append, List.length_append] at size
  have length : (encode (before ++ part)).length =
      (encode before).length + (encode part).length := by
    rw [Text.encode_append, List.length_append]
  have lo := marks.lo
  have hi := marks.hi
  simp only [Source.covers, Bool.and_eq_true, decide_eq_true_eq]
  omega

/-- What a span marks is its text. -/
theorem snippet_eq (marks : Marks s span before part after) (default : String) :
    s.snippet span default = String.ofList part := by
  rw [snippet, if_pos marks.covers, marks.slice_eq, Text.decodeUtf8Lossy_encode]

/-- A span inside of another marks a part of what that one marks. -/
theorem within (outer : Marks s span before part after) {inner : Span}
    {before' part' after' : List Char} (marks : Marks s inner before' part' after')
    (contained : span.contains inner = true) :
    ∃ front behind, part = front ++ part' ++ behind ∧ before' = before ++ front := by
  simp only [Span.contains, Bool.and_eq_true, decide_eq_true_eq] at contained
  have starts : (encode before).length ≤ (encode before').length := by
    have lo := outer.lo
    have lo' := marks.lo
    omega
  have ends : (encode (before' ++ part')).length ≤ (encode (before ++ part)).length := by
    have hi := outer.hi
    have hi' := marks.hi
    omega
  have whole : before ++ (part ++ after) = before' ++ (part' ++ after') := by
    rw [← List.append_assoc, ← List.append_assoc, ← outer.written, marks.written]
  obtain ⟨front, rfl⟩ := exists_append_of_length_le before _ before' _ whole starts
  have wholeBehind : (before ++ front ++ part') ++ after' = (before ++ part) ++ after := by
    rw [← outer.written, marks.written]
  obtain ⟨behind, parts⟩ := exists_append_of_length_le _ after' _ after wholeBehind ends
  rw [List.append_assoc, List.append_assoc] at parts
  refine ⟨front, behind, ?_, rfl⟩
  rw [List.append_cancel_left parts, List.append_assoc]

end Marks

end RustLint.Source
