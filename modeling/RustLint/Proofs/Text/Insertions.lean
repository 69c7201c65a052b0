import RustLint.Proofs.Collapsing.ElseIf
import RustLint.Proofs.Text.Columns
import RustLint.Proofs.Text.Snippets

set_option autoImplicit false

namespace RustLint

open Text (encode placed position EndsLine IsIndent)

/-! Positions behind a known front. -/

namespace Source

variable (s : Source) (before after : List Char)

theorem charsBefore_front (written : s.text.toList = before ++ after) :
    s.charsBefore (encode before).length = before := by
  rw [charsBefore, written, Text.placed_append, List.filter_append, List.filter_eq_self.mpr,
    List.filter_eq_nil_iff.mpr, List.append_nil, Text.map_char_placed]
  · intro p listed
    have late := Text.le_start_of_mem_placed _ after p listed
    rw [decide_eq_true_eq]
    omega
  · intro p listed
    obtain ⟨front, back, parts, start⟩ := Text.exists_of_mem_placed 0 before p listed
    have size := Char.utf8Size_pos p.char
    rw [parts, Text.encode_append, List.length_append, Text.length_encode_cons, decide_eq_true_eq]
    omega

theorem lineCol_front (written : s.text.toList = before ++ after) :
    s.lineCol (encode before).length = position before := by
  rw [lineCol_eq_position, charsBefore_front s before after written]

/-- Spaces and tabulators are one byte each. -/
theorem takeWhile_indent (indent : List Char) (blank : ∀ c ∈ indent, IsIndent c) :
    (encode indent).takeWhile (fun b => b == 32 || b == 9) = encode indent := by
  rw [List.takeWhile_eq_self_iff]
  intro b listed
  obtain ⟨c, inside, byte⟩ := List.mem_flatMap.mp listed
  have space : String.utf8EncodeChar ' ' = [32] := by decide
  have tabulator : String.utf8EncodeChar '\t' = [9] := by decide
  rcases blank c inside with rfl | rfl
  · rw [space, List.mem_singleton] at byte
    rw [byte]
    rfl
  · rw [tabulator, List.mem_singleton] at byte
    rw [byte]
    rfl

/-- The indentation of a span that nothing else stands in front of on its line. -/
theorem indentOf_front (span : Span) (above indent : List Char)
    (written : s.text.toList = above ++ indent ++ after) (ends : EndsLine above)
    (blank : ∀ c ∈ indent, IsIndent c) (lo : span.lo = (encode (above ++ indent)).length) :
    s.indentOf span = String.ofList indent := by
  have inside : (encode (above ++ indent)).length ≤ s.size :=
    le_size_of_isBoundary s _ ⟨above ++ indent, after, written, rfl⟩
  have noFeed : '\n' ∉ indent := fun listed => by
    rcases blank '\n' listed with feed | feed <;> exact absurd feed (by decide)
  have line : s.lineBefore (encode (above ++ indent)).length = encode indent := by
    rw [lineBefore_eq s _ inside, slice_front s _ after written, Text.encode_append]
    exact Text.rtakeWhile_append_of_forall _ _ _ (Text.ne_feed_of_mem_encode indent noFeed)
      ends.rtakeWhile_bytes
  have covered : (decide (0 ≤ span.lo) && decide (span.lo ≤ s.size)) = true := by
    rw [Bool.and_eq_true, decide_eq_true_eq, decide_eq_true_eq, lo]
    omega
  rw [indentOf, if_pos covered, lo, Int.toNat_natCast, line, takeWhile_indent indent blank]
  dsimp only
  rw [Text.decodeUtf8Lossy_encode]

end Source

/-! Edits. -/

/-- The file once the edit is made. -/
def Suggestion.edited (edit : Suggestion) (source : Source) : Source :=
  { source with text := String.ofList (Text.decodeUtf8Lossy (edit.applied source)) }

/-- The edit that takes out what an insertion put in. -/
def Suggestion.undo (edit : Suggestion) : Suggestion :=
  { edit with
    span := { edit.span with hi := edit.span.lo + (encode edit.replacement.toList).length }
    replacement := "" }

/-- The span where it is once so many bytes stand in front of it. -/
def Span.moved (span : Span) (bytes : Nat) : Span :=
  { span with lo := span.lo + bytes, hi := span.hi + bytes }

namespace Suggestion

variable {edit : Suggestion} {source : Source} {before part after : List Char}

/-- An edit between characters leaves the text on both sides as it is. -/
theorem applied_eq (marks : source.Marks edit.span before part after) :
    edit.applied source = encode (before ++ edit.replacement.toList ++ after) := by
  have front : source.slice 0 edit.span.lo.toNat = encode before := by
    rw [marks.lo, Int.toNat_natCast]
    apply source.slice_front before (part ++ after)
    rw [marks.written, List.append_assoc]
  have back : source.slice edit.span.hi.toNat source.size = encode after := by
    rw [marks.hi, Int.toNat_natCast, source.slice_behind _ _ after marks.written]
    apply List.take_of_length_le
    rw [Source.size_eq_length, marks.written, Text.encode_append, List.length_append]
    exact Nat.le_sub_of_add_le' (Nat.le_refl _)
  rw [applied, front, back, Text.encode_append, Text.encode_append]

theorem toList_edited (marks : source.Marks edit.span before part after) :
    (edit.edited source).text.toList = before ++ edit.replacement.toList ++ after := by
  rw [edited, String.toList_ofList, applied_eq marks, Text.decodeUtf8Lossy_encode]

/-- Taking out what was put in gives the file back. -/
theorem edited_undo (marks : source.Marks edit.span before [] after) :
    edit.undo.edited (edit.edited source) = source := by
  have inserted : (edit.edited source).Marks edit.undo.span before edit.replacement.toList after :=
    { written := toList_edited marks
      lo := marks.lo
      hi := by
        rw [Text.encode_append, List.length_append, Int.natCast_add, ← marks.lo]
        rfl }
  have text : (edit.undo.edited (edit.edited source)).text = source.text := by
    rw [← String.toList_inj, toList_edited inserted, marks.written]
    rfl
  exact congrArg (Source.mk · source.path) text

/-- What is marked behind an insertion stands there still, moved by the bytes of the insertion. -/
theorem marks_moved {span : Span} (marks : source.Marks edit.span before [] (part ++ after))
    (marked : source.Marks span before part after) :
    (edit.edited source).Marks (span.moved (encode edit.replacement.toList).length)
      (before ++ edit.replacement.toList) part after where
  written := by rw [toList_edited marks, List.append_assoc _ part]
  lo := by
    rw [Text.encode_append, List.length_append, Int.natCast_add, ← marked.lo]
    rfl
  hi := by
    have hi := marked.hi
    simp only [Text.encode_append, List.length_append, Span.moved] at hi ⊢
    omega

end Suggestion

end RustLint
