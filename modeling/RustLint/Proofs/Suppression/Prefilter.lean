import RustLint.Proofs.Suppression
import RustLint.Proofs.Suppression.Search

set_option autoImplicit false

/- Passing over lines without a search. A line is searched only where it names the tool in ASCII
letters, while the searches also take a dotted capital or a dotless small I for the `i` in the name.
So a directive is lost exactly when its line has the name in no other spelling, and the comments of
a file come to the same as if every line were searched exactly when other directives make up for
what is lost. -/
namespace RustLint.Suppressions

open Directive (namesIn? lintsOf mayHold NamesTool)

/-- What the directives of the line allow when it is searched in any case. -/
def searchLine (number : Nat) (line : String) : Suppressions :=
  [Reach.file, .sameLine, .nextLine].flatMap fun reach =>
    ((namesIn? reach line.toList).map fun names =>
      Allowance.mk (target reach number) (lintsOf names)).toList

/-- What the directives of the lines allow when every line is searched. -/
def searched (lines : List String) : Suppressions :=
  (lines.zipIdx 1).flatMap fun numbered => searchLine numbered.2 numbered.1

/-- Both allow the same lints in the file, have entries for the same lines and allow the same lints
on each of them. -/
structure Same (s t : Suppressions) : Prop where
  inFile : ∀ lint, lint ∈ inFile s ↔ lint ∈ inFile t
  lines : ∀ number, number ∈ s.lines ↔ number ∈ t.lines
  onLine : ∀ number lint, lint ∈ onLine s number ↔ lint ∈ onLine t number

/-- The allowance comes from a directive in a line that does not name the tool in ASCII letters. -/
def PassedOver (lines : List String) (a : Allowance) : Prop :=
  ∃ line number reach names, (line, number) ∈ lines.zipIdx 1 ∧ ¬NamesTool line.toList ∧
    namesIn? reach line.toList = some names ∧ a = ⟨target reach number, lintsOf names⟩

/-- The allowance adds nothing: its line, if it is for one, has an entry, and each of its lints is
allowed at the same place. -/
def Covers (s : Suppressions) (a : Allowance) : Prop :=
  (∀ number, a.line = some number → ∃ b ∈ s, b.line = some number) ∧
    ∀ lint ∈ a.lints, ∃ b ∈ s, b.line = a.line ∧ lint ∈ b.lints

/-! Entries. -/

variable (s t : Suppressions)

theorem mem_inFile_iff (lint : String) :
    lint ∈ inFile s ↔ ∃ a ∈ s, a.line = none ∧ lint ∈ a.lints := by
  simp only [inFile, List.mem_flatMap, List.mem_filter, Option.isNone_iff_eq_none, and_assoc]

theorem mem_onLine_iff (number : Nat) (lint : String) :
    lint ∈ onLine s number ↔ ∃ a ∈ s, a.line = some number ∧ lint ∈ a.lints := by
  simp only [onLine, List.mem_flatMap, List.mem_filter, beq_iff_eq, and_assoc]

theorem mem_lines_iff (number : Nat) : number ∈ s.lines ↔ ∃ a ∈ s, a.line = some number := by
  rw [lines, List.mem_eraseDups, List.mem_filterMap]

/-- Further directives make no difference exactly when they add nothing. -/
theorem same_iff_of_subset (part : s ⊆ t) : Same s t ↔ ∀ a ∈ t, Covers s a := by
  constructor
  · intro same a listed
    refine ⟨fun number place => ?_, fun lint allowed => ?_⟩
    · rw [← mem_lines_iff, same.lines, mem_lines_iff]
      exact ⟨a, listed, place⟩
    · cases place : a.line with
      | none =>
        rw [← mem_inFile_iff, same.inFile, mem_inFile_iff]
        exact ⟨a, listed, place, allowed⟩
      | some number =>
        rw [← mem_onLine_iff, same.onLine, mem_onLine_iff]
        exact ⟨a, listed, place, allowed⟩
  · intro covered
    have found (place : Option Nat) (lint : String) :
        (∃ a ∈ s, a.line = place ∧ lint ∈ a.lints) ↔ ∃ a ∈ t, a.line = place ∧ lint ∈ a.lints := by
      constructor
      · rintro ⟨a, listed, rest⟩
        exact ⟨a, part listed, rest⟩
      · rintro ⟨a, listed, rfl, allowed⟩
        exact (covered a listed).2 lint allowed
    refine ⟨fun lint => ?_, fun number => ?_, fun number lint => ?_⟩
    · rw [mem_inFile_iff, mem_inFile_iff, found]
    · rw [mem_lines_iff, mem_lines_iff]
      constructor
      · rintro ⟨a, listed, place⟩
        exact ⟨a, part listed, place⟩
      · rintro ⟨a, listed, place⟩
        exact (covered a listed).1 number place
    · rw [mem_onLine_iff, mem_onLine_iff, found]

/-! Lines. -/

theorem mem_searchLine_iff (number : Nat) (line : String) (a : Allowance) :
    a ∈ searchLine number line ↔ ∃ reach names, namesIn? reach line.toList = some names ∧
      a = ⟨target reach number, lintsOf names⟩ := by
  have every (reach : Reach) : reach ∈ [Reach.file, .sameLine, .nextLine] := by
    cases reach <;> decide
  simp only [searchLine, List.mem_flatMap, every, true_and, Option.mem_toList,
    Option.map_eq_some_iff]
  simp only [eq_comm]

/-- A line that is passed over allows nothing; the others allow what a search finds. -/
theorem ofLine_eq (number : Nat) (line : String) :
    ofLine number line = if mayHold line then searchLine number line else [] := by
  by_cases may : mayHold line = true
  · simp only [ofLine, Directive.lintsIn?, searchLine, target, may, ↓reduceIte, List.flatMap_cons,
      List.flatMap_nil, List.append_nil, List.append_assoc, Option.map_map, Function.comp_def]
  · simp only [ofLine, Directive.lintsIn?, may, ↓reduceIte, Bool.false_eq_true]
    rfl

theorem ofLinesFrom_eq (first : Nat) (lines : List String) :
    ofLinesFrom first lines =
      (lines.zipIdx first).flatMap fun numbered => ofLine numbered.2 numbered.1 := by
  induction lines generalizing first with
  | nil => rfl
  | cons line lines ih => rw [ofLinesFrom, ih, List.zipIdx_cons, List.flatMap_cons]

theorem mem_searched_iff (lines : List String) (a : Allowance) :
    a ∈ searched lines ↔ ∃ line number, (line, number) ∈ lines.zipIdx 1 ∧
      a ∈ searchLine number line := by
  rw [searched, List.mem_flatMap, Prod.exists]

/-- What is left of the search of every line. -/
theorem mem_ofLines_iff (lines : List String) (a : Allowance) :
    a ∈ ofLines lines ↔ ∃ line number, (line, number) ∈ lines.zipIdx 1 ∧
      NamesTool line.toList ∧ a ∈ searchLine number line := by
  rw [ofLines, ofLinesFrom_eq, List.mem_flatMap, Prod.exists]
  refine exists_congr fun line => exists_congr fun number => and_congr_right fun _ => ?_
  rw [ofLine_eq, ← Directive.mayHold_iff]
  split
  · next may => exact (and_iff_right may).symm
  · next may => exact iff_of_false List.not_mem_nil fun both => may both.1

/-- A directive in a line without the two further letters has the name of the tool in ASCII. -/
theorem namesTool_of_namesIn? (reach : Reach) (line names : List Char)
    (found : namesIn? reach line = some names) (noDotted : 'İ' ∉ line) (noDotless : 'ı' ∉ line) :
    NamesTool line := by
  obtain ⟨front, here, rfl, begins⟩ := Directive.exists_namesHere?_of_namesIn? reach line names found
  obtain ⟨head, rest, ⟨tool, gap, key, space, rfl, spelled, -⟩, rfl, -⟩ :=
    (Directive.namesHere?_eq_some_iff reach here names).mp begins
  have inLine : tool ⊆ front ++ (tool ++ (gap ++ (key ++ (space ++ ['=']))) ++ rest) := by
    intro c listed
    simp only [List.mem_append, listed, true_or, or_true]
  rcases spelled.word_cases with small | dotted | dotless
  · refine ⟨front, tool.take 9, tool.drop 9 ++ (gap ++ (key ++ (space ++ ['='])) ++ rest), ?_, ?_⟩
    · simp only [List.append_assoc, List.take_append_drop, ← List.append_assoc (tool.take 9)]
    · rw [List.map_take, small]
      rfl
  · exact absurd (inLine dotted) noDotted
  · exact absurd (inLine dotless) noDotless

/-! Both together. -/

variable (lines : List String)

theorem ofLines_subset_searched : ofLines lines ⊆ searched lines := by
  intro a listed
  obtain ⟨line, number, numbered, -, found⟩ := (mem_ofLines_iff lines a).mp listed
  exact (mem_searched_iff lines a).mpr ⟨line, number, numbered, found⟩

/-- What is not lost covers itself, so only what is passed over needs to be covered. -/
theorem covers_searched_iff :
    (∀ a ∈ searched lines, Covers (ofLines lines) a) ↔
      ∀ a, PassedOver lines a → Covers (ofLines lines) a := by
  constructor
  · rintro covered a ⟨line, number, reach, names, numbered, -, found, rfl⟩
    apply covered
    rw [mem_searched_iff]
    refine ⟨line, number, numbered, ?_⟩
    exact (mem_searchLine_iff number line _).mpr ⟨reach, names, found, rfl⟩
  · intro covered a listed
    obtain ⟨line, number, numbered, found⟩ := (mem_searched_iff lines a).mp listed
    by_cases named : NamesTool line.toList
    · have kept : a ∈ ofLines lines :=
        (mem_ofLines_iff lines a).mpr ⟨line, number, numbered, named, found⟩
      exact ⟨fun number place => ⟨a, kept, place⟩, fun lint allowed => ⟨a, kept, rfl, allowed⟩⟩
    · obtain ⟨reach, names, search, rfl⟩ := (mem_searchLine_iff number line a).mp found
      exact covered _ ⟨line, number, reach, names, numbered, named, search, rfl⟩

theorem ofLine_eq_searchLine (number : Nat) (line : String) (noDotted : 'İ' ∉ line.toList)
    (noDotless : 'ı' ∉ line.toList) : ofLine number line = searchLine number line := by
  rw [ofLine_eq]
  split
  · rfl
  · next mayNot =>
    symm
    rw [List.eq_nil_iff_forall_not_mem]
    intro a listed
    obtain ⟨reach, names, found, -⟩ := (mem_searchLine_iff number line a).mp listed
    exact mayNot ((Directive.mayHold_iff line).mpr
      (namesTool_of_namesIn? reach _ names found noDotted noDotless))

/-- For all lines: the comments allow the same as when every line is searched exactly when all that
the directives in lines without the name of the tool in ASCII letters allow is allowed at the same
place by the others. Without the two letters that the searches take for an `i` as well, no directive
is in such a line and both are the same directive by directive. -/
theorem same_searched_iff :
    (Same (ofLines lines) (searched lines) ↔
        ∀ a, PassedOver lines a → Covers (ofLines lines) a) ∧
      ((∀ line ∈ lines, 'İ' ∉ line.toList ∧ 'ı' ∉ line.toList) →
        ofLines lines = searched lines) := by
  constructor
  · exact (same_iff_of_subset _ _ (ofLines_subset_searched lines)).trans (covers_searched_iff lines)
  · intro plain
    rw [ofLines, ofLinesFrom_eq, searched]
    refine List.flatMap_congr fun (line, number) numbered => ?_
    obtain ⟨noDotted, noDotless⟩ := plain line (List.fst_mem_of_mem_zipIdx numbered)
    exact ofLine_eq_searchLine number line noDotted noDotless

/-- A directive whose tool is written with a dotless I is lost. -/
theorem not_same_searched : ¬ ∀ lines, Same (ofLines lines) (searched lines) := by
  intro same
  have onFirst := (same ["// ferrolınt: allow=collapsible_if"]).onLine 1 "collapsible_if"
  revert onFirst
  decide +kernel

end RustLint.Suppressions
