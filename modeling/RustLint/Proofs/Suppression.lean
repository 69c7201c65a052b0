import RustLint.Detection
import RustLint.Proofs.Text.LineNumbers

set_option autoImplicit false

namespace RustLint.Suppressions

/-- The line with the number holds a directive of the reach that allows the lint. -/
def AllowedAt (reach : Reach) (lines : List String) (lint : String) (number : Nat) : Prop :=
  ∃ above line below lints, lines = above ++ line :: below ∧ number = above.length + 1 ∧
    Directive.lintsIn? reach line = some lints ∧ allows lints lint = true

/-- The line that a directive on the line counts for, unless it counts for all. -/
def target : Reach → Nat → Option Nat
  | .file, _ => none
  | .sameLine, number => some number
  | .nextLine, number => some (number + 1)

theorem mem_ofLine_iff (number : Nat) (line : String) (a : Allowance) :
    a ∈ ofLine number line ↔
      ∃ reach, a.line = target reach number ∧ Directive.lintsIn? reach line = some a.lints := by
  obtain ⟨place, lints⟩ := a
  simp only [ofLine, List.mem_append, Option.mem_toList, Option.map_eq_some_iff,
    Allowance.mk.injEq]
  constructor
  · rintro ((⟨_, found, rfl, rfl⟩ | ⟨_, found, rfl, rfl⟩) | ⟨_, found, rfl, rfl⟩)
    · exact ⟨.file, rfl, found⟩
    · exact ⟨.sameLine, rfl, found⟩
    · exact ⟨.nextLine, rfl, found⟩
  · rintro ⟨reach, rfl, found⟩
    cases reach with
    | file => exact .inl (.inl ⟨lints, found, rfl, rfl⟩)
    | sameLine => exact .inl (.inr ⟨lints, found, rfl, rfl⟩)
    | nextLine => exact .inr ⟨lints, found, rfl, rfl⟩

theorem mem_ofLinesFrom_iff (first : Nat) (lines : List String) (a : Allowance) :
    a ∈ ofLinesFrom first lines ↔
      ∃ above line below, lines = above ++ line :: below ∧
        a ∈ ofLine (first + above.length) line := by
  induction lines generalizing first with
  | nil => simp [ofLinesFrom]
  | cons line lines ih =>
    rw [ofLinesFrom, List.mem_append, ih]
    constructor
    · rintro (here | ⟨above, line', below, rfl, later⟩)
      · exact ⟨[], line, lines, rfl, here⟩
      · refine ⟨line :: above, line', below, rfl, ?_⟩
        rwa [List.length_cons, Nat.add_comm above.length, ← Nat.add_assoc]
    · rintro ⟨above, line', below, parts, listed⟩
      cases above with
      | nil =>
        cases parts
        exact .inl listed
      | cons line'' above =>
        cases parts
        refine .inr ⟨above, line', below, rfl, ?_⟩
        rwa [List.length_cons, Nat.add_comm above.length, ← Nat.add_assoc] at listed

theorem allows_flatMap_iff (as : List Allowance) (lint : String) :
    allows (as.flatMap (·.lints)) lint = true ↔ ∃ a ∈ as, allows a.lints lint = true := by
  simp only [allows, Bool.or_eq_true, List.contains_iff_mem, List.mem_flatMap]
  constructor
  · rintro (⟨a, listed, all⟩ | ⟨a, listed, named⟩)
    · exact ⟨a, listed, .inl all⟩
    · exact ⟨a, listed, .inr named⟩
  · rintro ⟨a, listed, all | named⟩
    · exact .inl ⟨a, listed, all⟩
    · exact .inr ⟨a, listed, named⟩

/-- What is allowed at a place is what a directive with that target allows. -/
theorem exists_allowance_iff (lines : List String) (lint : String) (place : Option Nat) :
    (∃ a ∈ ofLines lines, a.line = place ∧ allows a.lints lint = true) ↔
      ∃ reach number, target reach number = place ∧ AllowedAt reach lines lint number := by
  constructor
  · rintro ⟨a, listed, rfl, allowed⟩
    obtain ⟨above, line, below, parts, here⟩ := (mem_ofLinesFrom_iff 1 lines a).mp listed
    obtain ⟨reach, place, found⟩ := (mem_ofLine_iff _ line a).mp here
    rw [Nat.add_comm] at place
    exact ⟨reach, above.length + 1, place.symm, above, line, below, a.lints, parts, rfl, found,
      allowed⟩
  · rintro ⟨reach, number, rfl, above, line, below, lints, parts, rfl, found, allowed⟩
    refine ⟨⟨target reach (above.length + 1), lints⟩, ?_, rfl, allowed⟩
    apply (mem_ofLinesFrom_iff 1 lines _).mpr
    refine ⟨above, line, below, parts, (mem_ofLine_iff _ line _).mpr ⟨reach, ?_, found⟩⟩
    rw [Nat.add_comm]

theorem allows_inFile_iff (lines : List String) (lint : String) :
    allows (inFile (ofLines lines)) lint = true ↔ ∃ k, AllowedAt .file lines lint k := by
  have members : (∃ a ∈ (ofLines lines).filter (·.line.isNone), allows a.lints lint = true) ↔
      ∃ a ∈ ofLines lines, a.line = none ∧ allows a.lints lint = true := by
    simp only [List.mem_filter, Option.isNone_iff_eq_none, and_assoc]
  rw [inFile, allows_flatMap_iff, members, exists_allowance_iff]
  constructor
  · rintro ⟨reach, number, place, allowed⟩
    cases reach with
    | file => exact ⟨number, allowed⟩
    | sameLine => cases place
    | nextLine => cases place
  · rintro ⟨number, allowed⟩
    exact ⟨.file, number, rfl, allowed⟩

theorem allows_onLine_iff (lines : List String) (lint : String) (number : Nat) :
    allows (onLine (ofLines lines) number) lint = true ↔
      AllowedAt .sameLine lines lint number ∨
        ∃ k, number = k + 1 ∧ AllowedAt .nextLine lines lint k := by
  have members : (∃ a ∈ (ofLines lines).filter (·.line == some number),
      allows a.lints lint = true) ↔
      ∃ a ∈ ofLines lines, a.line = some number ∧ allows a.lints lint = true := by
    simp only [List.mem_filter, beq_iff_eq, and_assoc]
  rw [onLine, allows_flatMap_iff, members, exists_allowance_iff]
  constructor
  · rintro ⟨reach, k, place, allowed⟩
    cases reach with
    | file => cases place
    | sameLine =>
      cases place
      exact .inl allowed
    | nextLine =>
      cases place
      exact .inr ⟨k, rfl, allowed⟩
  · rintro (allowed | ⟨k, rfl, allowed⟩)
    · exact ⟨.sameLine, number, rfl, allowed⟩
    · exact ⟨.nextLine, k, rfl, allowed⟩

/-- A lint is silenced on a line by a directive for the file, by one on the line itself, and by one
for the next line on the line above. -/
theorem isSuppressed_ofLines_iff (lines : List String) (lint : String) (number : Nat) :
    isSuppressed (ofLines lines) lint (some number) = true ↔
      (∃ k, AllowedAt .file lines lint k) ∨ AllowedAt .sameLine lines lint number ∨
        ∃ k, number = k + 1 ∧ AllowedAt .nextLine lines lint k := by
  have unfolded : isSuppressed (ofLines lines) lint (some number) =
      (allows (inFile (ofLines lines)) lint || allows (onLine (ofLines lines) number) lint) := rfl
  rw [unfolded, Bool.or_eq_true, allows_inFile_iff, allows_onLine_iff]

end RustLint.Suppressions

namespace RustLint.Detection

open Text (encode OnLine HasForeignEnd)
open Suppressions (AllowedAt)

/-- The line that a finding reports is that of the character it begins with exactly when no line end
above is of another kind than the line feed. Then the finding is reported unless its lint is
switched off or a directive on its own line, for the next line on the line above, or for the whole
file allows it. -/
theorem keeps_iff_of_onLine (config : Config) (resolve : Path.Resolver) (root path : Path)
    (text : String) (crate : Option Crate) (finding : Finding)
    (before : List Char) (c : Char) (after : List Char) (number : Nat)
    (place : finding.location = some (.ofSpan ⟨text, some path⟩ finding.span))
    (begins : finding.span.lo = (encode before).length)
    (written : text.toList = before ++ c :: after) (keeps : Text.isLineEnd c = false)
    (onLine : OnLine number before c after) :
    ((Source.lineCol ⟨text, some path⟩ (encode before).length).1 = number ↔
        ¬HasForeignEnd before) ∧
      (¬HasForeignEnd before →
        (Detection.keeps config (.ofCrate resolve root path text crate) finding = true ↔
          config.enables finding.lint = true ∧
            ¬((∃ k, AllowedAt .file (Text.lines text) finding.lint k) ∨
              AllowedAt .sameLine (Text.lines text) finding.lint number ∨
              ∃ k, number = k + 1 ∧ AllowedAt .nextLine (Text.lines text) finding.lint k))) := by
  have agrees := Source.line_eq_iff ⟨text, some path⟩ before c after number written keeps onLine
  refine ⟨agrees, ?_⟩
  intro onlyFeeds
  have startLine : finding.location.bind (·.startLine) = some (number : Int) := by
    have line : (Location.ofSpan ⟨text, some path⟩ finding.span).startLine =
        some ((Source.lineCol ⟨text, some path⟩ finding.span.lo).1 : Int) := rfl
    rw [place, Option.bind_some, line, begins, agrees.mpr onlyFeeds]
  have unfolded : Detection.keeps config (.ofCrate resolve root path text crate) finding =
      (config.enables finding.lint && !Suppressions.isSuppressed (.ofLines (Text.lines text))
        finding.lint (finding.location.bind (·.startLine))) := rfl
  rw [unfolded, startLine, Bool.and_eq_true, Bool.not_eq_true',
    ← Suppressions.isSuppressed_ofLines_iff, Bool.not_eq_true]

/-! A directive behind two nested `if`s, and a form feed in front of a line. -/

def silencedText : String := "if a \x7b if b \x7b\x7d \x7d // ferrolint: allow=collapsible_if"

def silencedFinding : Finding where
  lint := "collapsible_if"
  message := "this if statement can be collapsed"
  span := ⟨0, 16, 0⟩
  location := some (.ofSpan ⟨silencedText, some default⟩ ⟨0, 16, 0⟩)

theorem silencedFinding_not_kept :
    Detection.keeps {} (.ofCrate Path.lexical default default silencedText none) silencedFinding =
      false := by
  have start : OnLine 1 [] 'i' (silencedText.toList.drop 1) :=
    ⟨[], [], silencedText.toList.drop 1, [], by decide, by decide, rfl⟩
  have onlyFeeds : ¬HasForeignEnd [] := by
    rintro ⟨front, e, behind, parts, -⟩
    cases front <;> cases parts
  have allowed : AllowedAt .sameLine (Text.lines silencedText) "collapsible_if" 1 :=
    ⟨[], silencedText, [], ["collapsible_if"], by decide, rfl, by decide +kernel, by decide⟩
  obtain ⟨-, kept⟩ := keeps_iff_of_onLine {} Path.lexical default default silencedText none
    silencedFinding [] 'i' _ 1 rfl rfl (by decide) (by decide) start
  rw [Bool.eq_false_iff]
  intro reported
  exact ((kept onlyFeeds).mp reported).2 (.inr (.inl allowed))

/-- A form feed ends a line, but the line of a position does not count it. -/
theorem not_line_eq :
    ¬ ∀ (source : Source) (before : List Char) (c : Char) (after : List Char) (number : Nat),
      source.text.toList = before ++ c :: after → Text.isLineEnd c = false →
      OnLine number before c after → (source.lineCol (encode before).length).1 = number := by
  intro agree
  have onLine : OnLine 2 ['\x0c'] 'f' "n f() \x7b\x7d".toList :=
    ⟨[[]], [], "n f() \x7b\x7d".toList, [], by decide, by decide, rfl⟩
  have same := agree ⟨"\x0cfn f() \x7b\x7d", none⟩ ['\x0c'] 'f' _ 2 (by decide) (by decide) onLine
  revert same
  decide +kernel

end RustLint.Detection
