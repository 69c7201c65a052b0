import RustLint.Detection
import Mathlib.Data.List.Basic

set_option autoImplicit false

namespace RustLint

/-- The configuration with every lint switched on, and otherwise the same. -/
def Config.withNothingOff (config : Config) : Config := { config with allow := [] }

theorem Config.enables_withNothingOff (config : Config) (lint : String) :
    config.withNothingOff.enables lint = true := rfl

/-- The file when its comments allow nothing. -/
def RustFile.withoutDirectives (file : RustFile) : RustFile := { file with suppressions := [] }

theorem Suppressions.isSuppressed_nil (lint : String) (line : Option Int) :
    Suppressions.isSuppressed [] lint line = false := by
  cases line with
  | none => rfl
  | some n => cases n <;> rfl

namespace Detection

/-- What the rule finds in the file, whatever is switched off. -/
def Rule.findings (rule : Rule) (file : RustFile) : List Finding :=
  match file.crate with
  | none => []
  | some crate => (rule.check ⟨file.place, file.source, crate⟩).value

theorem Rule.findings_withoutDirectives (rule : Rule) (file : RustFile) :
    rule.findings file.withoutDirectives = rule.findings file := rfl

/-- What is reported with every lint switched on and no comment heeded, each finding with the file
it is in. -/
def reportedOpenly (config : Config) (rules : List Rule) (files : List RustFile) :
    List (RustFile × Finding) :=
  files.flatMap fun file =>
    (inFile config.withNothingOff rules file.withoutDirectives).value.map (Prod.mk file)

theorem keeps_withNothingOff (config : Config) (file : RustFile) (finding : Finding) :
    keeps config.withNothingOff file.withoutDirectives finding = true := by
  rw [keeps, Config.enables_withNothingOff, RustFile.withoutDirectives,
    Suppressions.isSuppressed_nil]
  rfl

variable (config : Config) (rules : List Rule) (files : List RustFile)

/-- A rule that does not run would have found nothing that stays. -/
theorem filter_keeps_of_off (file : RustFile) (rule : Rule)
    (off : (rule.lints.any fun lint => config.enables lint.name) = false) :
    (rule.findings file).filter (keeps config file) = [] := by
  rw [List.filter_eq_nil_iff]
  intro finding listed keeps
  rw [Rule.findings] at listed
  split at listed
  · cases listed
  · next crate _ =>
    obtain ⟨lint, declared, name⟩ := List.mem_map.mp (rule.declared _ finding listed)
    have enabled := (Bool.and_eq_true_iff.mp keeps).1
    rw [← name] at enabled
    exact Bool.false_ne_true (off.symm.trans (List.any_eq_true.mpr ⟨lint, declared, enabled⟩))

/-- Running a rule leaves of its findings those that are reported. -/
theorem value_runRule (file : RustFile) (crate : Crate) (hasTree : file.crate = some crate)
    (rule : Rule) :
    (runRule config file crate rule).value = (rule.findings file).filter (keeps config file) := by
  rw [runRule]
  split
  · rw [Rule.findings, hasTree]
    rfl
  · next off =>
    rw [filter_keeps_of_off config file rule (Bool.eq_false_iff.mpr off)]
    rfl

theorem value_inFile (file : RustFile) :
    (inFile config rules file).value =
      (rules.flatMap fun rule => rule.findings file).filter (keeps config file) := by
  rw [inFile, List.filter_flatMap]
  split
  · next noTree =>
    simp only [Rule.findings, noTree, List.filter_nil]
    induction rules with
    | nil => rfl
    | cons rule rules ih => exact ih
  · next crate hasTree =>
    rw [Logged.value_bind, Logged.value_each, Logged.value_pure, ← List.flatMap_def]
    exact List.flatMap_congr fun rule _ => value_runRule config file crate hasTree rule

theorem value_inFile_withNothingOff (file : RustFile) :
    (inFile config.withNothingOff rules file.withoutDirectives).value =
      rules.flatMap fun rule => rule.findings file := by
  rw [value_inFile]
  simp only [Rule.findings_withoutDirectives]
  exact List.filter_eq_self.mpr fun finding _ => keeps_withNothingOff config file finding

theorem value_detect :
    (detect config rules files).value = files.flatMap fun file => (inFile config rules file).value := by
  rw [detect, Logged.value_bind, Logged.value_each, Logged.value_pure, ← List.flatMap_def]

/-- A reported finding was found in one of the files by one of the rules. -/
theorem mem_detect_iff (finding : Finding) : finding ∈ (detect config rules files).value ↔
    ∃ file ∈ files, ∃ rule ∈ rules, finding ∈ rule.findings file ∧
      keeps config file finding = true := by
  rw [value_detect]
  simp only [List.mem_flatMap, value_inFile, List.mem_filter]
  constructor
  · rintro ⟨file, inFiles, ⟨rule, inRules, found⟩, kept⟩
    exact ⟨file, inFiles, rule, inRules, found, kept⟩
  · rintro ⟨file, inFiles, rule, inRules, found, kept⟩
    exact ⟨file, inFiles, ⟨rule, inRules, found⟩, kept⟩

theorem map_reportedOpenly : (reportedOpenly config rules files).map Prod.snd =
    (detect config.withNothingOff rules (files.map RustFile.withoutDirectives)).value := by
  rw [value_detect, List.flatMap_map, reportedOpenly, List.map_flatMap]
  simp only [List.map_map, Function.comp_def, List.map_id']

theorem value_detect_eq_filter : (detect config rules files).value =
    ((reportedOpenly config rules files).filter fun (file, finding) =>
      keeps config file finding).map Prod.snd := by
  rw [value_detect, reportedOpenly, List.filter_flatMap, List.map_flatMap]
  refine List.flatMap_congr fun file _ => ?_
  rw [value_inFile, value_inFile_withNothingOff, List.filter_map, List.map_map]
  simp only [Function.comp_def, List.map_id']

/-- For any rules and files: a run reports, in the same order, those findings of the run with every
lint switched on and no comment heeded whose lint is switched on and not allowed by a comment of
their own file at the line where they begin. It reports as much as if every rule ran. -/
theorem detect_eq_filter :
    (reportedOpenly config rules files).map Prod.snd =
        (detect config.withNothingOff rules (files.map RustFile.withoutDirectives)).value ∧
      (detect config rules files).value =
        ((reportedOpenly config rules files).filter fun (file, finding) =>
          config.enables finding.lint &&
            !file.suppressions.isSuppressed finding.lint
              (finding.location.bind (·.startLine))).map Prod.snd ∧
      (detect config rules files).value.Sublist
        (detect config.withNothingOff rules (files.map RustFile.withoutDirectives)).value ∧
      (detect config rules files).value = files.flatMap fun file =>
        (rules.flatMap fun rule => rule.findings file).filter (keeps config file) := by
  have kept := value_detect_eq_filter config rules files
  refine ⟨map_reportedOpenly config rules files, kept, ?_, ?_⟩
  · rw [← map_reportedOpenly, kept]
    exact List.filter_sublist.map Prod.snd
  · rw [value_detect]
    exact List.flatMap_congr fun file _ => value_inFile config rules file

end Detection
end RustLint
