import RustLint.Proofs.Suppression.Parts
import RustLint.Proofs.Suppression.Search
import Mathlib.Data.Nat.Find

set_option autoImplicit false

namespace RustLint.Directive

/-- In the text, behind what is skipped, opens a directive for its own line: its head stands there,
and behind it nothing or a character that names may have. -/
def Opens (text skipped behind : List Char) : Prop :=
  ∃ head, text = skipped ++ (head ++ behind) ∧ IsHead .sameLine head ∧
    ∀ c ∈ behind.head?, isNameChar c = true

/-- There is no place further left where a directive opens. -/
def OpensFirst (text skipped behind : List Char) : Prop :=
  Opens text skipped behind ∧
    ∀ skipped' behind', Opens text skipped' behind' → skipped.length ≤ skipped'.length

/-- The list of a directive with this text between its head and a second directive. -/
def listThrough (behind : List Char) : List Char :=
  (behind ++ "ferrolint: allow".toList).takeWhile isNameChar

variable (text behind rest : List Char)

/-! Heads. -/

/-- The head of a directive as it is mostly written. -/
def plainHead : List Char := "ferrolint: allow=".toList

theorem plainHead_eq : plainHead = "ferrolint: allow".toList ++ ['='] := by decide

theorem head?_plainHead : plainHead.head? = some 'f' := by decide

theorem isHead_plain : IsHead .sameLine plainHead := by
  refine ⟨"ferrolint:".toList, [' '], "allow".toList, [], rfl, ?_, ?_, ?_, nofun⟩
  · repeat' constructor
  · exact List.forall_mem_singleton.mpr rfl
  · repeat' constructor

theorem namesTool_plainHead : NamesTool (text ++ (plainHead ++ rest)) := by
  refine ⟨text, plainHead.take 9, plainHead.drop 9 ++ rest, ?_, by decide⟩
  rw [List.append_assoc text, ← List.append_assoc (plainHead.take 9), List.take_append_drop]

/-- Only the first letter of a head is the one that heads begin with. -/
theorem IsHead.not_mem_tail {head : List Char} (isHead : IsHead .sameLine head) :
    'f' ∉ head.tail := by
  obtain ⟨tool, gap, key, space, rfl, spelledTool, blankGap, spelledKey, blankSpace⟩ := isHead
  have shape : word "ferrolint:" = isLetter 'f' :: word "errolint:" := rfl
  rw [shape] at spelledTool
  cases spelledTool with
  | cons _ spelledTool =>
    rw [List.cons_append, List.tail_cons]
    simp only [List.mem_append, not_or]
    refine ⟨Spells.not_mem spelledTool 'f' (by decide), fun inGap => ?_,
      spelledKey.not_mem 'f' (by decide), fun inSpace => ?_, by decide⟩
    · exact absurd (blankGap 'f' inGap) (by decide)
    · exact absurd (blankSpace 'f' inSpace) (by decide)

/-! Directives in front of a directive. -/

theorem takeWhile_through :
    (behind ++ (plainHead ++ rest)).takeWhile isNameChar = listThrough behind := by
  rw [plainHead_eq, List.append_assoc, ← List.append_assoc, listThrough]
  generalize behind ++ "ferrolint: allow".toList = front
  rw [List.takeWhile_append]
  split
  · next whole =>
    have fit : front.takeWhile isNameChar = front :=
      (List.takeWhile_prefix isNameChar).eq_of_length whole
    rw [fit, List.singleton_append, List.takeWhile_cons_of_neg (by decide), List.append_nil]
  · rfl

theorem listThrough_ne_nil_iff :
    listThrough behind ≠ [] ↔ ∀ c ∈ behind.head?, isNameChar c = true := by
  cases behind with
  | nil => exact iff_of_true (by decide) nofun
  | cons c behind =>
    rw [listThrough, List.cons_append, List.takeWhile_cons, List.head?_cons]
    split
    · next fits => simp [fits]
    · next unfit => simp [unfit]

/-- In front of a directive another one begins where it opens in the text up to there: its head
cannot go on into the next directive. -/
theorem namesHere?_front_iff (part names : List Char) (some : part ≠ []) :
    namesHere? .sameLine (part ++ (plainHead ++ rest)) = .some names ↔
      ∃ behind, Opens part [] behind ∧ names = listThrough behind := by
  rw [namesHere?_eq_some_iff]
  constructor
  · rintro ⟨head, rest', isHead, parts, listed, more⟩
    have inside : ∃ behind, part = head ++ behind ∧
        rest' = behind ++ (plainHead ++ rest) := by
      rcases List.append_eq_append_iff.mp parts with ⟨front, longer, next⟩ | shorter
      · cases front with
        | nil => exact ⟨[], by simp [longer], by simpa using next.symm⟩
        | cons c front =>
          have first : c = 'f' := by
            have heads := congrArg List.head? next
            rw [List.head?_append, head?_plainHead] at heads
            exact (Option.some.inj heads).symm
          obtain ⟨d, part, rfl⟩ := List.exists_cons_of_ne_nil some
          exact absurd (by simp [longer, first]) isHead.not_mem_tail
      · exact shorter
    obtain ⟨behind, rfl, rfl⟩ := inside
    rw [takeWhile_through] at listed
    subst listed
    exact ⟨behind, ⟨head, rfl, isHead, (listThrough_ne_nil_iff behind).mp more⟩, rfl⟩
  · rintro ⟨behind, ⟨head, rfl, isHead, fits⟩, rfl⟩
    refine ⟨head, behind ++ (plainHead ++ rest), isHead, ?_,
      (takeWhile_through behind rest).symm, (listThrough_ne_nil_iff behind).mpr fits⟩
    rw [List.nil_append, List.append_assoc]

theorem Opens.skip {skipped part : List Char} {behind : List Char} (opens : Opens part [] behind)
    (parts : text = skipped ++ part) : Opens text skipped behind := by
  obtain ⟨head, rfl, rest⟩ := opens
  exact ⟨head, parts, rest⟩

/-- The first directive that opens in front is the one that is found. -/
theorem namesIn?_of_opensFirst (skipped : List Char) (first : OpensFirst text skipped behind) :
    namesIn? .sameLine (text ++ (plainHead ++ rest)) =
      some (listThrough behind) := by
  obtain ⟨⟨head, rfl, isHead, fits⟩, leftmost⟩ := first
  have solid : head ++ behind ≠ [] := by
    obtain ⟨tool, gap, key, space, rfl, -⟩ := isHead
    simp
  rw [List.append_assoc]
  apply namesIn?_eq_some_of
  · exact (namesHere?_front_iff rest _ _ solid).mpr ⟨behind, ⟨head, rfl, isHead, fits⟩, rfl⟩
  · intro shorter part parts some
    rw [← List.append_assoc, Option.eq_none_iff_forall_ne_some]
    intro names found
    obtain ⟨behind', opens, -⟩ := (namesHere?_front_iff rest _ names
      (List.append_ne_nil_of_left_ne_nil some _)).mp found
    have bound := leftmost shorter behind' (opens.skip _ (by rw [parts, List.append_assoc]))
    rw [parts, List.length_append] at bound
    exact absurd (List.length_pos_of_ne_nil some) (by omega)

/-- Where none opens in front, the directive itself is found. -/
theorem namesIn?_of_not_opens (none : ∀ skipped behind, ¬Opens text skipped behind)
    (names after : List Char) (fit : ∀ c ∈ names, isNameChar c = true) (some : names ≠ [])
    (apart : ∀ c ∈ after.head?, isNameChar c = false) :
    namesIn? .sameLine (text ++ (plainHead ++ (names ++ after))) =
      .some names := by
  have list : (names ++ after).takeWhile isNameChar = names := by
    rw [List.takeWhile_append_of_pos fit]
    cases after with
    | nil => exact List.append_nil names
    | cons c after =>
      rw [List.takeWhile_cons_of_neg (Bool.eq_false_iff.mp (apart c rfl)), List.append_nil]
  apply namesIn?_eq_some_of
  · exact (namesHere?_eq_some_iff _ _ _).mpr ⟨_, _, isHead_plain, rfl, list.symm, some⟩
  · intro skipped part parts some
    rw [Option.eq_none_iff_forall_ne_some]
    intro names' found
    obtain ⟨behind, opens, -⟩ := (namesHere?_front_iff _ part names' some).mp found
    exact none skipped behind (opens.skip _ parts)

theorem exists_opensFirst (some : ∃ skipped behind, Opens text skipped behind) :
    ∃ skipped behind, OpensFirst text skipped behind := by
  classical
  have places : ∃ k skipped behind, skipped.length = k ∧ Opens text skipped behind := by
    obtain ⟨skipped, behind, opens⟩ := some
    exact ⟨_, skipped, behind, rfl, opens⟩
  obtain ⟨skipped, behind, least, opens⟩ := Nat.find_spec places
  refine ⟨skipped, behind, opens, fun skipped' behind' opens' => ?_⟩
  rw [least]
  exact Nat.find_min' places ⟨skipped', behind', rfl, opens'⟩

end RustLint.Directive

namespace RustLint.Suppressions

open Directive (Opens OpensFirst listThrough lintsOf isNameChar plainHead)

theorem toList_directive (before after : String) (lint : Lint) :
    (before ++ "ferrolint: allow=" ++ lint.name ++ after).toList =
      before.toList ++ (plainHead ++ (lint.name.toList ++ after.toList)) := by
  rw [String.toList_append, String.toList_append, String.toList_append, List.append_assoc,
    List.append_assoc]
  rfl

theorem lintsOf_name (lint : Lint) : lintsOf lint.name.toList = [lint.name] := by
  cases lint <;> decide +kernel

theorem isNameChar_of_mem_name (lint : Lint) : ∀ c ∈ lint.name.toList, isNameChar c = true :=
  List.all_eq_true.mp (by cases lint <;> decide)

theorem lineAllows_iff_of_namesIn? (reach : Reach) (line lint : String) (names : List Char)
    (may : Directive.mayHold line = true)
    (found : Directive.namesIn? reach line.toList = some names) :
    LineAllows reach lint line ↔ allows (lintsOf names) lint = true := by
  have lints : Directive.lintsIn? reach line = some (lintsOf names) := by
    rw [Directive.lintsIn?, if_pos may, found, Option.map_some]
  rw [LineAllows, lints]
  exact ⟨fun ⟨_, same, allowed⟩ => Option.some.inj same ▸ allowed, fun allowed => ⟨_, rfl, allowed⟩⟩

/-- The line allows the lint that the directive names, unless another directive opens in front and
the list of that one does not have the lint. -/
theorem lineAllows_directive_iff (before after : String) (lint : Lint)
    (apart : ∀ c ∈ after.toList.head?, isNameChar c = false) :
    LineAllows .sameLine lint.name (before ++ "ferrolint: allow=" ++ lint.name ++ after) ↔
      (∀ skipped behind, ¬Opens before.toList skipped behind) ∨
        ∃ skipped behind, OpensFirst before.toList skipped behind ∧
          allows (lintsOf (listThrough behind)) lint.name = true := by
  have may : Directive.mayHold (before ++ "ferrolint: allow=" ++ lint.name ++ after) = true := by
    rw [Directive.mayHold_iff, toList_directive]
    exact Directive.namesTool_plainHead _ _
  by_cases opens : ∃ skipped behind, Opens before.toList skipped behind
  · have read (skipped behind : List Char) (first : OpensFirst before.toList skipped behind) :
        LineAllows .sameLine lint.name (before ++ "ferrolint: allow=" ++ lint.name ++ after) ↔
          allows (lintsOf (listThrough behind)) lint.name = true := by
      apply lineAllows_iff_of_namesIn? _ _ _ _ may
      rw [toList_directive]
      exact Directive.namesIn?_of_opensFirst _ behind _ skipped first
    constructor
    · intro allowed
      obtain ⟨skipped, behind, first⟩ := Directive.exists_opensFirst _ opens
      exact .inr ⟨skipped, behind, first, (read skipped behind first).mp allowed⟩
    · rintro (none | ⟨skipped, behind, first, allowed⟩)
      · obtain ⟨skipped, behind, opens⟩ := opens
        exact absurd opens (none skipped behind)
      · exact (read skipped behind first).mpr allowed
  · have none (skipped behind : List Char) : ¬Opens before.toList skipped behind :=
      fun here => opens ⟨skipped, behind, here⟩
    have some : lint.name.toList ≠ [] := by cases lint <;> decide
    have found : Directive.namesIn? .sameLine
        (before ++ "ferrolint: allow=" ++ lint.name ++ after).toList = .some lint.name.toList := by
      rw [toList_directive]
      exact Directive.namesIn?_of_not_opens _ none _ _ (isNameChar_of_mem_name lint) some apart
    refine iff_of_true ((lineAllows_iff_of_namesIn? _ _ _ _ may found).mpr ?_) (.inl none)
    rw [lintsOf_name, allows, Bool.or_eq_true, List.contains_iff_mem, List.contains_iff_mem]
    exact .inr List.mem_cons_self

/-- For every directive `ferrolint: allow=` with the name of a lint, whatever stands in front of it
and wherever its line stands: the lint is silenced on the line exactly when no other directive opens
in front of it, or the first that does lists the lint as well, or a directive for the file or one on
the line above does. -/
theorem isSuppressed_directive_iff (above below : List String) (before after : String) (lint : Lint)
    (apart : ∀ c ∈ after.toList.head?, isNameChar c = false) :
    let line := before ++ "ferrolint: allow=" ++ lint.name ++ after
    let lines := above ++ line :: below
    isSuppressed (ofLines lines) lint.name (some ((above.length + 1 : Nat) : Int)) = true ↔
      ((∀ skipped behind, ¬Opens before.toList skipped behind) ∨
          ∃ skipped behind, OpensFirst before.toList skipped behind ∧
            allows (lintsOf (listThrough behind)) lint.name = true) ∨
        (∃ k, AllowedAt .file lines lint.name k) ∨
          AllowedAt .nextLine lines lint.name above.length := by
  intro line lines
  have own : AllowedAt .sameLine lines lint.name (above.length + 1) ↔
      LineAllows .sameLine lint.name line := allowedAt_length_succ_iff ..
  have next : (∃ k, above.length + 1 = k + 1 ∧ AllowedAt .nextLine lines lint.name k) ↔
      AllowedAt .nextLine lines lint.name above.length := by
    simp only [Nat.add_right_cancel_iff, exists_eq_left']
  rw [isSuppressed_ofLines_iff, own, next, lineAllows_directive_iff before after lint apart,
    or_left_comm]

/-! A directive behind a note that names the tool as well. -/

theorem isSuppressed_behind_note :
    isSuppressed (ofLines ["fn f() \x7b",
        "g(); // ferrolint: see below. ferrolint: allow=collapsible_if."])
      "collapsible_if" (some 2) = true := by
  have apart : ∀ c ∈ ".".toList.head?, isNameChar c = false := by
    intro c first
    rw [← Option.some.inj first]
    decide
  refine (isSuppressed_directive_iff ["fn f() \x7b"] [] "g(); // ferrolint: see below. " "."
    .collapsibleIf apart).mpr (.inl (.inl ?_))
  rintro skipped behind ⟨head, parts, ⟨tool, gap, key, space, rfl, -⟩, -⟩
  have sign : '=' ∈ "g(); // ferrolint: see below. ".toList := by simp [parts]
  exact absurd sign (by decide)

/-- A directive behind another one is not read. -/
theorem not_isSuppressed_directive :
    ¬ ∀ (above below : List String) (before after : String) (lint : Lint),
      (∀ c ∈ after.toList.head?, isNameChar c = false) →
        isSuppressed
          (ofLines (above ++ (before ++ "ferrolint: allow=" ++ lint.name ++ after) :: below))
          lint.name (some ((above.length + 1 : Nat) : Int)) = true := by
  intro silenced
  have second := silenced [] [] "// ferrolint: allow=new_without_default; " "" .collapsibleIf nofun
  revert second
  decide +kernel

end RustLint.Suppressions
