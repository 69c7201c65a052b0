import RustLint.Config
import RustLint.CrateIndex
import RustLint.RustFile
import RustLint.Rules.CollapsibleIf
import RustLint.Rules.NewWithoutDefault

set_option autoImplicit false

namespace RustLint.Detection

open NewWithoutDefault (Subject)

/-- The finding is reported. -/
def keeps (config : Config) (file : RustFile) (finding : Finding) : Bool :=
  config.enables finding.lint &&
    !file.suppressions.isSuppressed finding.lint (finding.location.bind (·.startLine))

/-- A rule: the lints that it declares, and its findings in a file with a tree, which are of these
lints. -/
structure Rule where
  lints : List Lint
  check : Subject → Logged (List Finding)
  declared : ∀ subject, ∀ finding ∈ (check subject).value, finding.lint ∈ lints.map Lint.name

def collapsibleIf : Rule where
  lints := [.collapsibleIf]
  check := fun subject => pure (CollapsibleIf.check subject.source subject.crate)
  declared := by
    intro subject finding listed
    obtain ⟨collapse, -, rfl⟩ := List.mem_map.mp listed
    exact List.mem_cons_self

def newWithoutDefault (oracle : TypeOracle) (defaultTrait : String) : Rule where
  lints := [.newWithoutDefault, .newWithoutDefaultDerive]
  check := NewWithoutDefault.check oracle defaultTrait
  declared := by
    intro subject finding listed
    rcases NewWithoutDefault.lint_of_mem_check oracle defaultTrait subject finding listed with
      lint | lint <;> simp [lint]

/-- The rules in the order in which they run. -/
def builtinRules (oracle : TypeOracle) (defaultTrait : String) : List Rule :=
  [collapsibleIf, newWithoutDefault oracle defaultTrait]

/-- What a rule reports in a file with a tree. A rule that has none of its lints switched on does
not run. -/
def runRule (config : Config) (file : RustFile) (crate : Crate) (rule : Rule) :
    Logged (List Finding) :=
  if rule.lints.any fun lint => config.enables lint.name then do
    let findings ← rule.check ⟨file.place, file.source, crate⟩
    return findings.filter (keeps config file)
  else return []

/-- What the rules report in one file, rule by rule. -/
def inFile (config : Config) (rules : List Rule) (file : RustFile) : Logged (List Finding) :=
  match file.crate with
  | none => do
    Logged.write ⟨.debug, "ferrolint.engine.detection",
      file.place ++ ": no syntax tree, skipping"⟩
    return []
  | some crate => do
    return (← Logged.each (runRule config file crate) rules).flatten

/-- What the rules report, file by file. -/
def detect (config : Config) (rules : List Rule) (files : List RustFile) :
    Logged (List Finding) := do
  return (← Logged.each (inFile config rules) files).flatten

/-- What the built-in rules report when the oracle answers their questions. -/
def inFiles (config : Config) (oracle : TypeOracle) (files : List RustFile) :
    Logged (List Finding) :=
  detect config (builtinRules oracle config.defaultTrait) files

/-- The crates of the files and where they stand. -/
def crates (files : List RustFile) : List (Crate × Option Source) :=
  files.filterMap fun file => file.crate.map fun crate => (crate, some file.source)

/-- The files without a tree. -/
def skipped (files : List RustFile) : List Path :=
  (files.filter (·.crate.isNone)).map (·.path)

def summary (files : List RustFile) (findings : List Finding) : Summary :=
  ⟨files.length, findings, skipped files⟩

/-- The run over files that the rules know all of. -/
def check (config : Config) (files : List RustFile) : Logged Summary := do
  let index ← CrateIndex.ofCrates config.defaultTypes (crates files)
  return summary files (← inFiles config index.oracle files)

end RustLint.Detection
