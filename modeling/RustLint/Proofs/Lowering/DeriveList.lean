import RustLint.Lowering.Attribute
import RustLint.Proofs.Index.Names
import RustLint.Proofs.Text.Outdent
import Mathlib.Data.List.DropRight

set_option autoImplicit false

namespace RustLint

namespace Text

/-! Characters that are not blank. -/

def visible (cs : List Char) : List Char := cs.filter fun c => !isBlank c

theorem visible_append (front behind : List Char) :
    visible (front ++ behind) = visible front ++ visible behind :=
  List.filter_append ..

theorem visible_cons (c : Char) (cs : List Char) (solid : isBlank c = false) :
    visible (c :: cs) = c :: visible cs :=
  List.filter_cons_of_pos (by rw [solid]; rfl)

theorem visible_eq_nil_iff (cs : List Char) : visible cs = [] ↔ ∀ c ∈ cs, isBlank c = true := by
  rw [visible, List.filter_eq_nil_iff]
  simp

theorem visible_eq_self (cs : List Char) (solid : ∀ c ∈ cs, isBlank c = false) :
    visible cs = cs := by
  rw [visible, List.filter_eq_self]
  intro c listed
  rw [solid c listed]
  rfl

/-! Double colons. -/

/-- Two colons stand side by side. -/
def HasColons (cs : List Char) : Prop := [':', ':'] <:+: cs

theorem afterLastColons?_eq_none_iff (cs : List Char) :
    afterLastColons? cs = none ↔ ¬HasColons cs := by
  induction cs with
  | nil => simp [afterLastColons?, HasColons]
  | cons c cs ih =>
    rw [CrateIndex.afterLastColons?_cons, Option.or_eq_none_iff, ih, HasColons, HasColons,
      List.infix_cons_iff, not_or, and_comm]
    refine and_congr_left fun _ => ?_
    split
    · next segment => simp
    · next other =>
      refine ⟨fun _ => ?_, fun _ => rfl⟩
      rintro ⟨rest, begins⟩
      cases begins
      exact other rest rfl rfl

/-- A text without colons makes no double colon. -/
theorem hasColons_append_iff (front behind : List Char) (noColon : ':' ∉ behind) :
    HasColons (front ++ behind) ↔ HasColons front := by
  refine ⟨fun colons => ?_, fun colons => colons.trans (List.infix_append' [] front behind)⟩
  induction front with
  | nil => exact absurd (colons.subset List.mem_cons_self) noColon
  | cons c front ih =>
    rw [List.cons_append, HasColons, List.infix_cons_iff] at colons
    rcases colons with ⟨rest, begins⟩ | later
    · cases front with
      | nil =>
        rw [List.nil_append] at begins
        have second : behind = ':' :: rest := (List.cons.inj begins).2.symm
        rw [second] at noColon
        exact absurd List.mem_cons_self noColon
      | cons d front =>
        cases begins
        exact List.infix_append' [] [':', ':'] front
    · exact List.infix_cons_iff.mpr (.inr (ih later))

/-- What follows the last double colon reaches back to a character behind which there is none. -/
theorem mem_of_afterLastColons? (front behind segment : List Char) (c : Char) (other : c ≠ ':')
    (none : ¬HasColons behind) (found : afterLastColons? (front ++ c :: behind) = some segment) :
    c ∈ segment := by
  induction front with
  | nil =>
    rw [List.nil_append, CrateIndex.afterLastColons?_cons,
      (afterLastColons?_eq_none_iff behind).mpr none, Option.none_or] at found
    split at found
    · exact absurd rfl other
    · cases found
  | cons d front ih =>
    rw [List.cons_append, CrateIndex.afterLastColons?_cons, Option.or_eq_some_iff] at found
    rcases found with later | ⟨-, here⟩
    · exact ih later
    · split at here
      · next rest second =>
        cases here
        cases front with
        | nil => exact absurd (List.cons.inj second).1 other
        | cons e front =>
          rw [← (List.cons.inj second).2]
          exact List.mem_append_right front List.mem_cons_self
      · cases here

theorem mem_lastSegment (front behind : List Char) (c : Char) (other : c ≠ ':')
    (none : ¬HasColons behind) :
    c ∈ (lastSegment (String.ofList (front ++ c :: behind))).toList := by
  rw [lastSegment, String.toList_ofList]
  cases found : afterLastColons? (front ++ c :: behind) with
  | none =>
    rw [String.toList_ofList]
    exact List.mem_append_right front List.mem_cons_self
  | some segment =>
    rw [String.toList_ofList]
    exact mem_of_afterLastColons? front behind segment c other none found

end Text

namespace Lowering

open Text (visible HasColons)

/-! The list. -/

/-- The name that is read from a part of the list, if there is something in the part. -/
def nameIn (part : List Char) : List String :=
  if visible part = [] then [] else [Text.lastSegment (String.ofList (visible part))]

theorem deriveNames_eq_flatMap (list : List Char) :
    deriveNames list = (Text.splitAtAll (· == ',') list).flatMap nameIn := by
  rw [deriveNames]
  induction Text.splitAtAll (· == ',') list with
  | nil => rfl
  | cons part parts ih =>
    have squashed : Text.squash (String.ofList part) = String.ofList (visible part) := by
      rw [Text.squash, String.toList_ofList]
      rfl
    rw [List.flatMap_cons, ← ih, nameIn, List.map_cons, squashed, List.filter_cons]
    by_cases empty : visible part = []
    · rw [empty, if_pos rfl]
      rfl
    · have written : (String.ofList (visible part) != "") = true := by
        rw [bne_iff_ne, ne_eq, ← String.toList_inj, String.toList_ofList]
        exact empty
      rw [if_neg empty, if_pos written]
      rfl

theorem deriveNames_append (front behind : List Char) :
    deriveNames (front ++ ',' :: behind) = deriveNames front ++ deriveNames behind := by
  rw [deriveNames_eq_flatMap, deriveNames_eq_flatMap, deriveNames_eq_flatMap,
    Text.splitAtAll_append _ _ _ ',' rfl, List.flatMap_append]

theorem deriveNames_part (part : List Char) (noComma : ',' ∉ part) :
    deriveNames part = nameIn part := by
  have none : ∀ c ∈ part, (c == ',') = false := by
    intro c listed
    rw [beq_eq_false_iff_ne]
    rintro rfl
    exact noComma listed
  rw [deriveNames_eq_flatMap, Text.splitAtAll_of_none _ part none, List.flatMap_singleton]

/-- What stands in front of the last comma gives names of its own. -/
theorem exists_behind_comma (front : List Char) : ∃ start, start <:+ front ∧ ',' ∉ start ∧
    ∀ behind, deriveNames (start ++ behind) ⊆ deriveNames (front ++ behind) := by
  by_cases comma : ',' ∈ front
  · obtain ⟨later, earlier, parts, none⟩ :=
      List.eq_append_cons_of_mem (List.mem_reverse.mpr comma)
    have written : front = earlier.reverse ++ ',' :: later.reverse := by
      rw [← List.reverse_reverse front, parts]
      simp
    refine ⟨later.reverse, ?_, by rwa [List.mem_reverse], fun behind => ?_⟩
    · rw [written]
      exact (List.suffix_cons _ _).trans (List.suffix_append _ _)
    · rw [written, List.append_assoc, List.cons_append, deriveNames_append]
      exact List.subset_append_right _ _
  · exact ⟨front, List.suffix_refl _, comma, fun _ => List.Subset.refl _⟩

/-- So does what stands behind the first comma. -/
theorem exists_before_comma (behind : List Char) : ∃ rest, rest <+: behind ∧ ',' ∉ rest ∧
    ∀ front, deriveNames (front ++ rest) ⊆ deriveNames (front ++ behind) := by
  by_cases comma : ',' ∈ behind
  · obtain ⟨rest, later, rfl, none⟩ := List.eq_append_cons_of_mem comma
    refine ⟨rest, List.prefix_append _ _, none, fun front => ?_⟩
    rw [← List.append_assoc, deriveNames_append]
    exact List.subset_append_left _ _
  · exact ⟨behind, List.prefix_refl _, comma, fun _ => List.Subset.refl _⟩

/-- A character that is neither blank nor a comma is in a part that a name is read from. -/
theorem exists_part (front behind : List Char) (c : Char) (noComma : c ≠ ',')
    (solid : Text.isBlank c = false) : ∃ start rest, rest <+: behind ∧
      Text.lastSegment (String.ofList (visible start ++ c :: visible rest)) ∈
        deriveNames (front ++ c :: behind) := by
  obtain ⟨start, -, startNone, fewer⟩ := exists_behind_comma front
  obtain ⟨rest, begins, restNone, less⟩ := exists_before_comma behind
  refine ⟨start, rest, begins, fewer (c :: behind) ?_⟩
  have part : ',' ∉ start ++ c :: rest := by
    simp only [List.mem_append, List.mem_cons, not_or]
    exact ⟨startNone, noComma.symm, restNone⟩
  have named := less (start ++ [c])
  rw [List.append_assoc, List.append_assoc, List.singleton_append, List.singleton_append,
    deriveNames_part _ part, nameIn, Text.visible_append, Text.visible_cons c rest solid,
    if_neg (by simp)] at named
  exact named List.mem_cons_self

/-- A name is read where the list has anything but commas and blanks. -/
theorem deriveNames_ne_nil (list : List Char) (c : Char) (listed : c ∈ list) (noComma : c ≠ ',')
    (solid : Text.isBlank c = false) : deriveNames list ≠ [] := by
  obtain ⟨front, behind, rfl⟩ := List.append_of_mem listed
  obtain ⟨start, rest, -, named⟩ := exists_part front behind c noComma solid
  exact List.ne_nil_of_mem named

/-- A character behind which no double colon stands gets into a name. -/
theorem exists_name_of_foreign (front behind : List Char) (c : Char) (noComma : c ≠ ',')
    (noColon : c ≠ ':') (solid : Text.isBlank c = false) (none : ¬HasColons (visible behind)) :
    ∃ name ∈ deriveNames (front ++ c :: behind), c ∈ name.toList := by
  obtain ⟨start, rest, ⟨more, begins⟩, named⟩ := exists_part front behind c noComma solid
  refine ⟨_, named, Text.mem_lastSegment _ _ c noColon fun colons => none ?_⟩
  rw [← begins, Text.visible_append]
  exact colons.trans (List.infix_append' [] _ _)

/-- The name is read right where commas and blanks are all that stands between it and a double
colon or an end of its part. -/
theorem deriveNames_name (front close name after : List Char)
    (ends : front = [] ∨ ∃ path, front = path ++ [':', ':']) (noComma : ',' ∉ front)
    (closeBlank : ∀ c ∈ close, Text.isBlank c = true)
    (afterBlank : ∀ c ∈ after, Text.isBlank c = true) (some : name ≠ [])
    (plain : ∀ c ∈ name, c ≠ ',' ∧ c ≠ ':' ∧ Text.isBlank c = false) :
    deriveNames (front ++ close ++ name ++ after) = [String.ofList name] := by
  have noColon : ':' ∉ name := fun listed => (plain ':' listed).2.1 rfl
  have nothing (gap : List Char) (blank : ∀ c ∈ gap, Text.isBlank c = true) :
      ',' ∉ gap ∧ visible gap = [] :=
    ⟨fun listed => absurd (blank ',' listed) (by decide), (Text.visible_eq_nil_iff gap).mpr blank⟩
  obtain ⟨closePlain, closeNone⟩ := nothing close closeBlank
  obtain ⟨afterPlain, afterNone⟩ := nothing after afterBlank
  have single : ',' ∉ front ++ close ++ name ++ after := by
    simp only [List.mem_append, not_or]
    exact ⟨⟨⟨noComma, closePlain⟩, fun listed => (plain ',' listed).1 rfl⟩, afterPlain⟩
  have seen : visible (front ++ close ++ name ++ after) = visible front ++ name := by
    simp only [Text.visible_append, closeNone, afterNone, List.append_nil]
    rw [Text.visible_eq_self name fun c listed => (plain c listed).2.2]
  rw [deriveNames_part _ single, nameIn, seen, if_neg (List.append_ne_nil_of_right_ne_nil _ some)]
  rcases ends with rfl | ⟨path, rfl⟩
  · have alone : visible [] ++ name = name := rfl
    rw [alone, Text.lastSegment, String.toList_ofList,
      CrateIndex.afterLastColons?_eq_none name noColon]
  · have colons : visible (path ++ [':', ':']) = visible path ++ [':', ':'] :=
      Text.visible_append path [':', ':']
    have behind := CrateIndex.lastSegment_append (String.ofList (visible path))
      (String.ofList name) (by rwa [String.toList_ofList])
    have joined : String.ofList (visible path ++ [':', ':'] ++ name) =
        String.ofList (visible path) ++ "::" ++ String.ofList name := by
      rw [String.ofList_append, String.ofList_append]
    rw [colons, joined, behind]

end Lowering

end RustLint
