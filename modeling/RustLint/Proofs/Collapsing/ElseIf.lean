import RustLint.Proofs.Precedence.Token
import RustLint.Proofs.Text.Outdent
import RustLint.Proofs.Text.Positions
import RustLint.Rules.CollapsibleIf

set_option autoImplicit false

namespace RustLint

open Text (encode)

/-- The bytes of the file once the edit is made. -/
def Suggestion.applied (edit : Suggestion) (source : Source) : List UInt8 :=
  source.slice 0 edit.span.lo.toNat ++ encode edit.replacement.toList ++
    source.slice edit.span.hi.toNat source.size

namespace Precedence

/-- An `else` and an `if` with nothing but blanks between them are two words exactly when there is
a blank. -/
theorem lexChars_else_if_iff (gap : List Char) (blank : ∀ c ∈ gap, Text.isBlank c = true) :
    lexChars ("else".toList ++ gap ++ "if".toList) = some [.word "else", .word "if"] ↔
      gap ≠ [] := by
  constructor
  · rintro tokens rfl
    revert tokens
    decide
  · intro some
    obtain ⟨c, rest, rfl⟩ := List.exists_cons_of_ne_nil some
    have keyword : lexChars "else".toList = .some [.word "else"] := by decide
    have inner : lexChars "if".toList = .some [.word "if"] := by decide
    rw [List.append_assoc, List.cons_append, lexChars_append_blank _ _ _ keyword c
      (blank c List.mem_cons_self), lexChars_blanks_append rest, inner]
    · rfl
    · intro d listed
      exact blank d (List.mem_cons_of_mem c listed)

end Precedence

namespace CollapsibleIf

/-- In the text that the edit yields, a character that can be part of no name stands between the
`else` behind `before` and the `if` that the edit writes. -/
def KeepsApart (source : Source) (edit : Suggestion) (before : List Char) : Prop :=
  ∃ between rest, edit.applied source =
      encode (before ++ "else".toList ++ between ++ "if".toList) ++ rest ∧
    edit.span.lo = (encode (before ++ "else".toList ++ between)).length ∧
    ∃ c ∈ between, Precedence.continuesName c = false

/-- What a text begins with on its first line, it begins with after trimming. -/
theorem prefix_trimMultiline (text : String) (front : List Char) (noFeed : '\n' ∉ front)
    (begins : front <+: text.toList) : front <+: (Text.trimMultiline text true).toList := by
  obtain ⟨rest, chars⟩ := begins
  rw [Text.trimMultiline_eq_outdent, String.toList_ofList, ← chars, Text.outdent,
    Text.outdentFrom_append, Text.outdentFrom_of_no_feed _ front noFeed]
  exact List.prefix_append _ _

/-- The edit keeps the text in front of the `else` block and writes the inner `if` behind it. -/
theorem applied_orElse (source : Source) (block : Block) (inner : If) (front after : List Char)
    (written : source.text.toList = front ++ after)
    (begins : block.span.lo = (encode front).length)
    (startsIf : "if".toList <+: (source.snippet inner.span).toList) :
    ∃ rest, ((Collapse.orElse block inner).suggestion source).applied source =
      encode (front ++ "if".toList) ++ rest := by
  have kept : "if".toList <+: (source.snippetBlock inner.span).toList :=
    prefix_trimMultiline _ _ (by decide) startsIf
  obtain ⟨more, replacement⟩ := kept
  refine ⟨encode more ++ source.slice block.span.hi.toNat source.size, ?_⟩
  have upToBlock : source.slice 0 block.span.lo.toNat = encode front := by
    rw [begins, Int.toNat_natCast]
    exact source.slice_front front after written
  have shown : ((Collapse.orElse block inner).suggestion source).applied source =
      source.slice 0 block.span.lo.toNat ++
        encode (source.snippetBlock inner.span).toList ++
          source.slice block.span.hi.toNat source.size := rfl
  rw [shown, upToBlock, ← replacement, Text.encode_append, Text.encode_append]
  simp only [List.append_assoc]

/-- The edit begins at one place only, so that what it keeps apart are the `else` and the `if` on
the two sides of the gap. -/
theorem gap_ne_nil_of_keepsApart (source : Source) (block : Block) (inner : If)
    (before gap after : List Char)
    (written : source.text.toList = before ++ "else".toList ++ gap ++ after)
    (begins : block.span.lo = (encode (before ++ "else".toList ++ gap)).length)
    (startsIf : "if".toList <+: (source.snippet inner.span).toList)
    (apart : KeepsApart source ((Collapse.orElse block inner).suggestion source) before) :
    gap ≠ [] := by
  obtain ⟨rest, applied⟩ := applied_orElse source block inner _ after written begins startsIf
  obtain ⟨between, rest', applied', lo, c, listed, -⟩ := apart
  have length : (encode (before ++ "else".toList ++ gap)).length =
      (encode (before ++ "else".toList ++ between)).length := Int.ofNat.inj (begins.symm.trans lo)
  have same := applied.symm.trans applied'
  rw [Text.encode_append (before ++ "else".toList ++ gap),
    Text.encode_append (before ++ "else".toList ++ between), List.append_assoc (encode _),
    List.append_assoc (encode _)] at same
  have fronts := Text.encode_inj _ _ (List.append_inj_left same length)
  rw [List.append_cancel_left fronts]
  exact List.ne_nil_of_mem listed

/-- Where an `else` block begins behind the keyword and a gap of blanks, the edit keeps the keyword
and the inner `if` apart exactly when there is a gap; that is also when the two are two tokens. -/
theorem keepsApart_iff (source : Source) (block : Block) (inner : If)
    (before gap after : List Char)
    (written : source.text.toList = before ++ "else".toList ++ gap ++ after)
    (blank : ∀ c ∈ gap, Text.isBlank c = true)
    (begins : block.span.lo = (encode (before ++ "else".toList ++ gap)).length)
    (startsIf : "if".toList <+: (source.snippet inner.span).toList) :
    (KeepsApart source ((Collapse.orElse block inner).suggestion source) before ↔ gap ≠ []) ∧
      (Precedence.lexChars ("else".toList ++ gap ++ "if".toList) =
        some [.word "else", .word "if"] ↔ gap ≠ []) := by
  refine ⟨⟨?_, ?_⟩, Precedence.lexChars_else_if_iff gap blank⟩
  · exact gap_ne_nil_of_keepsApart source block inner before gap after written begins startsIf
  · intro some
    obtain ⟨rest, applied⟩ := applied_orElse source block inner _ after written begins startsIf
    obtain ⟨c, listed⟩ := List.exists_mem_of_ne_nil gap some
    exact ⟨gap, rest, applied, begins, c, listed,
      Precedence.continuesName_of_isBlank c (blank c listed)⟩

/-! The body `{ if a {} else {if b {}} }`, and the same without the space behind `else`. -/

/-- The inner `if` where it begins at the offset. -/
def sampleInner (lo : Int) : If :=
  ⟨.test (.other "identifier" [] ⟨lo + 3, lo + 4, 0⟩), ⟨[], ⟨lo + 5, lo + 7, 0⟩⟩, none,
    ⟨lo, lo + 7, 0⟩⟩

/-- The `else` block where it begins at the offset. -/
def sampleElse (lo : Int) : Block :=
  ⟨[.expr (.branch (sampleInner (lo + 1))) false ⟨lo + 1, lo + 8, 0⟩], ⟨lo, lo + 9, 0⟩⟩

/-- The outer `if` with the `else` block at the offset. -/
def sampleOuter (lo : Int) : If :=
  ⟨.test (.other "identifier" [] ⟨5, 6, 0⟩), ⟨[], ⟨7, 9, 0⟩⟩, some (.block (sampleElse lo)),
    ⟨2, lo + 9, 0⟩⟩

/-- What stands in front of the `else`. -/
def sampleFront : List Char := "\x7b if a \x7b\x7d ".toList

/-- The `else` block and what stands behind it. -/
def sampleRest : List Char := "\x7bif b \x7b\x7d\x7d \x7d".toList

def spacedSample : Source := ⟨"\x7b if a \x7b\x7d else \x7bif b \x7b\x7d\x7d \x7d", none⟩

def tightSample : Source := ⟨"\x7b if a \x7b\x7d else\x7bif b \x7b\x7d\x7d \x7d", none⟩

theorem spacedSample_keepsApart :
    KeepsApart spacedSample
      ((Collapse.orElse (sampleElse 15) (sampleInner 16)).suggestion spacedSample) sampleFront := by
  have both := keepsApart_iff spacedSample (sampleElse 15) (sampleInner 16) sampleFront [' ']
    sampleRest (by decide) (List.forall_mem_singleton.mpr (by decide)) (by decide)
    (by decide +kernel)
  exact both.1.mpr (List.cons_ne_nil _ _)

/-- The edit of an `else` block right behind its keyword makes one name of the keyword and the
inner `if`. -/
theorem not_keepsApart :
    ¬ ∀ (source : Source) (outer inner : If) (block : Block) (before gap after : List Char),
      ofExpr? (.branch outer) = some (.orElse block inner) →
      source.text.toList = before ++ "else".toList ++ gap ++ after →
      (∀ c ∈ gap, Text.isBlank c = true) →
      block.span.lo = (encode (before ++ "else".toList ++ gap)).length →
      "if".toList <+: (source.snippet inner.span).toList →
      KeepsApart source ((Collapse.orElse block inner).suggestion source) before := by
  intro always
  have written : tightSample.text.toList = sampleFront ++ "else".toList ++ [] ++ sampleRest := by
    decide
  have begins : (sampleElse 14).span.lo =
      (encode (sampleFront ++ "else".toList ++ [])).length := by decide
  have startsIf : "if".toList <+: (tightSample.snippet (sampleInner 15).span).toList := by
    decide +kernel
  have apart := always tightSample (sampleOuter 14) (sampleInner 15) (sampleElse 14) _ [] _ rfl
    written (List.forall_mem_nil _) begins startsIf
  exact gap_ne_nil_of_keepsApart _ _ _ _ [] _ written begins startsIf apart rfl

end CollapsibleIf

end RustLint
