import RustLint.Text.Glob

set_option autoImplicit false

namespace RustLint.Text

/-- The parts stand for the characters: a star for any of them, every other part for one. -/
inductive Spells : List GlobPart → List Char → Prop
  | nil : Spells [] []
  | anyText (piece : List Char) (parts : List GlobPart) (behind : List Char)
      (rest : Spells parts behind) : Spells (.anyText :: parts) (piece ++ behind)
  | one (part : GlobPart) (c : Char) (holds : part.holds c = true) (parts : List GlobPart)
      (behind : List Char) (rest : Spells parts behind) : Spells (part :: parts) (c :: behind)

/-- What can be left of a text behind one part. -/
inductive Leaves : GlobPart → List Char → List Char → Prop
  | anyText (piece behind : List Char) : Leaves .anyText (piece ++ behind) behind
  | one (part : GlobPart) (c : Char) (holds : part.holds c = true) (behind : List Char) :
      Leaves part (c :: behind) behind

theorem spells_cons_iff (part : GlobPart) (parts : List GlobPart) (text : List Char) :
    Spells (part :: parts) text ↔ ∃ behind, Leaves part text behind ∧ Spells parts behind := by
  constructor
  · intro spells
    cases spells with
    | anyText piece _ behind rest => exact ⟨behind, .anyText piece behind, rest⟩
    | one _ c holds _ behind rest => exact ⟨behind, .one part c holds behind, rest⟩
  · rintro ⟨behind, leaves, rest⟩
    cases leaves with
    | anyText piece => exact .anyText piece parts behind rest
    | one _ c holds => exact .one part c holds parts behind rest

/-- The texts as the search has them: each ends those in front of it. -/
def Shrinks (texts : List (List Char)) : Prop :=
  texts.Pairwise fun longer shorter => shorter <:+ longer

theorem mem_suffixes_iff (cs rest : List Char) : rest ∈ suffixes cs ↔ rest <:+ cs := by
  induction cs with
  | nil => rw [suffixes, List.mem_singleton, List.suffix_nil]
  | cons c cs ih => rw [suffixes, List.mem_cons, List.suffix_cons_iff, ih]

theorem shrinks_suffixes (cs : List Char) : Shrinks (suffixes cs) := by
  induction cs with
  | nil => exact List.pairwise_singleton _ _
  | cons c cs ih =>
    rw [suffixes, Shrinks, List.pairwise_cons]
    refine ⟨fun rest listed => ?_, ih⟩
    exact ((mem_suffixes_iff cs rest).mp listed).trans (List.suffix_cons c cs)

namespace GlobPart

theorem leaves_anyText_iff (text behind : List Char) :
    Leaves .anyText text behind ↔ behind <:+ text := by
  constructor
  · intro leaves
    cases leaves with
    | anyText piece => exact List.suffix_append piece behind
    | one _ _ holds => cases holds
  · rintro ⟨piece, rfl⟩
    exact .anyText piece behind

theorem leaves_iff_rest? (part : GlobPart) (other : part ≠ .anyText) (text behind : List Char) :
    Leaves part text behind ↔ part.rest? text = some behind := by
  constructor
  · intro leaves
    cases leaves with
    | anyText => exact absurd rfl other
    | one _ c holds => rw [rest?, if_pos holds]
  · intro rest
    cases text with
    | nil => cases rest
    | cons c cs =>
      rw [rest?, Option.ite_none_right_eq_some, Option.some_inj] at rest
      obtain ⟨holds, rfl⟩ := rest
      exact .one part c holds cs

theorem rests_of_ne_anyText (part : GlobPart) (other : part ≠ .anyText)
    (before : List (List Char)) : part.rests before = before.filterMap part.rest? := by
  cases part with
  | anyText => exact absurd rfl other
  | anyChar | char | charClass => rfl

/-- One character less leaves texts that end each other too. -/
theorem suffix_of_rest? (part : GlobPart) (longer shorter behind rest : List Char)
    (ends : shorter <:+ longer) (first : part.rest? longer = some behind)
    (second : part.rest? shorter = some rest) : rest <:+ behind := by
  cases shorter with
  | nil => cases second
  | cons d ds =>
    cases longer with
    | nil => cases first
    | cons c cs =>
      rw [rest?, Option.ite_none_right_eq_some, Option.some_inj] at first second
      obtain ⟨-, rfl⟩ := first
      obtain ⟨-, rfl⟩ := second
      rcases List.suffix_cons_iff.mp ends with same | later
      · exact (List.cons.inj same).2 ▸ List.suffix_refl _
      · exact (List.suffix_cons d ds).trans later

variable (part : GlobPart) (before : List (List Char)) (shrinks : Shrinks before)

include shrinks

/-- A star looks at the first text only, and every other part at each of them. -/
theorem mem_rests_iff (behind : List Char) :
    behind ∈ part.rests before ↔ ∃ text ∈ before, Leaves part text behind := by
  by_cases star : part = .anyText
  · subst star
    simp only [leaves_anyText_iff]
    cases before with
    | nil => simp [rests]
    | cons longest others =>
      have ends := (List.pairwise_cons.mp shrinks).1
      rw [rests, List.head?_cons, Option.map_some, Option.getD_some, mem_suffixes_iff]
      constructor
      · exact fun here => ⟨longest, List.mem_cons_self, here⟩
      · rintro ⟨text, listed, here⟩
        rcases List.mem_cons.mp listed with rfl | later
        · exact here
        · exact here.trans (ends text later)
  · simp only [leaves_iff_rest? part star, rests_of_ne_anyText part star, List.mem_filterMap]

theorem shrinks_rests : Shrinks (part.rests before) := by
  by_cases star : part = .anyText
  · subst star
    cases before with
    | nil => exact List.Pairwise.nil
    | cons longest others => exact shrinks_suffixes longest
  · rw [rests_of_ne_anyText part star, Shrinks, List.pairwise_filterMap]
    refine shrinks.imp fun ends behind first rest second => ?_
    exact suffix_of_rest? part _ _ behind rest ends first second

end GlobPart

/-- The whole search, from all texts that can stand in front of the parts. -/
theorem nil_mem_foldl_rests_iff (parts : List GlobPart) (before : List (List Char))
    (shrinks : Shrinks before) :
    [] ∈ parts.foldl (fun before part => part.rests before) before ↔
      ∃ text ∈ before, Spells parts text := by
  induction parts generalizing before with
  | nil =>
    rw [List.foldl_nil]
    constructor
    · exact fun listed => ⟨[], listed, .nil⟩
    · rintro ⟨text, listed, spells⟩
      cases spells
      exact listed
  | cons part parts ih =>
    rw [List.foldl_cons, ih _ (part.shrinks_rests before shrinks)]
    simp only [part.mem_rests_iff before shrinks, spells_cons_iff]
    constructor
    · rintro ⟨behind, ⟨text, listed, leaves⟩, rest⟩
      exact ⟨text, listed, behind, leaves, rest⟩
    · rintro ⟨text, listed, behind, leaves, rest⟩
      exact ⟨behind, ⟨text, listed, leaves⟩, rest⟩

/-- The search finds out whether the parts stand for the text. -/
theorem globCovers_iff (parts : List GlobPart) (text : List Char) :
    globCovers parts text = true ↔ Spells parts text := by
  have found := nil_mem_foldl_rests_iff parts [text] (List.pairwise_singleton _ _)
  have empty : ((parts.foldl (fun before part => part.rests before) [text]).any List.isEmpty) =
      true ↔ [] ∈ parts.foldl (fun before part => part.rests before) [text] := by
    simp [List.any_eq_true]
  rw [globCovers, empty, found]
  simp

/-- The pattern covers the text: its parts stand for all of it. -/
theorem globMatches_iff (pattern text : String) :
    globMatches pattern text = true ↔ Spells (globParts pattern.toList) text.toList :=
  globCovers_iff _ _

end RustLint.Text
