import RustLint.CommandLine.Arguments
import RustLint.Report.Human
import RustLint.Report.Machine
import RustLint.Scan
import RustLint.Text.Escape

set_option autoImplicit false

namespace RustLint.CommandLine

/-- What the program runs in. `parserIsInstalled` says whether the parser can yield trees at all, and
`outputIsTerminal` whether the output is shown as it comes or kept. -/
structure Surroundings where
  tree : FileTree
  directory : Path
  parser : Parser
  parserIsInstalled : Bool
  outputIsTerminal : Bool

/-- How a run ends. -/
inductive ExitCode where
  | success
  /-- There are findings, or the run broke off. -/
  | failure
  /-- The arguments or the configuration are wrong. -/
  | usage
  deriving DecidableEq, Inhabited, Repr

def ExitCode.toNat : ExitCode → Nat
  | success => 0
  | failure => 1
  | usage => 2

/-- What a run leaves behind. The lines on the error stream are in the order in which they came. -/
structure Outcome where
  exitCode : ExitCode
  output : String := ""
  errors : List String := []
  deriving Inhabited

/-- The least level that is shown. -/
def Verbosity.level : Verbosity → LogLevel
  | verbose => .debug
  | normal => .info
  | quiet => .warning

/-- The line of a log record, if it is shown. -/
def shownRecord? (verbosity : Verbosity) (r : LogRecord) : Option String :=
  if r.level.rank < verbosity.level.rank then none
  else if verbosity = .verbose then
    some ("ferrolint [" ++ r.level.name ++ "] " ++ r.logger ++ ": " ++ r.message)
  else some ("ferrolint: " ++ r.message)

/-- The lines of a log. -/
def shownLog (verbosity : Verbosity) (log : List LogRecord) : List String :=
  log.filterMap (shownRecord? verbosity)

def usageText : String :=
  "Usage: ferrolint [--version] [-v|--verbose] [-q|--quiet] COMMAND\n\n" ++
    "  check [PATH] [--format text|json] [--fail|--no-fail]\n" ++
    "  lints [--format terminal|json]\n"

/-- One lint a line. -/
def lintsTable : String :=
  String.join (Lint.all.map fun l => l.name ++ "  " ++ l.summary ++ "\n")

/-- The warning about files that were skipped because there is no parser. -/
def skippedWarning (s : Surroundings) (verbosity : Verbosity) (summary : Summary) : List String :=
  if summary.filesSkipped.isEmpty || s.parserIsInstalled || verbosity = .quiet then []
  else
    ["Skipped " ++ toString summary.filesSkipped.length ++
      " file(s): tree-sitter is not installed. Install `ferrolint[treesitter]`."]

/-- The last record of a run. -/
def countRecord (summary : Summary) : LogRecord :=
  ⟨.debug, "ferrolint.cli", toString summary.findings.length ++ " finding(s) across " ++
    toString summary.filesChecked ++ " file(s)"⟩

/-- Numbers are written with as many digits as they are read with. -/
def digitLimit : Option Nat := some Toml.maxDigits

/-- The report of a run. -/
def report (s : Surroundings) (target : ScanTarget) (format : CheckFormat) (summary : Summary) :
    Except Report.Failure String :=
  match format with
  | .text => .ok (Report.human s.tree.resolve target.root summary)
  | .json => Report.machine s.tree.resolve target.root digitLimit summary

/-- The run over a target. -/
def checkTarget (s : Surroundings) (verbosity : Verbosity) (format : CheckFormat)
    (failOnFindings : Bool) (target : ScanTarget) : Outcome :=
  let run := (Scan.check s.tree s.parser target).run
  let shown := shownLog verbosity run.log
  match run.value with
  | .error _ => { exitCode := .failure, errors := shown }
  | .ok summary =>
    let warned := shown ++ skippedWarning s verbosity summary
    match report s target format summary with
    | .error _ => { exitCode := .failure, errors := warned }
    | .ok text =>
      { exitCode := if failOnFindings && !summary.findings.isEmpty then .failure else .success
        output := text ++ "\n"
        errors := warned ++ shownLog verbosity [countRecord summary] }

def usageOutcome (e : UsageError) : Outcome := { exitCode := .usage, errors := [e.message] }

/-- The run over a path, which has to exist. -/
def check (s : Surroundings) (verbosity : Verbosity) (path : String) (format : CheckFormat)
    (failOnFindings : Bool) : Outcome :=
  match s.tree.locate s.directory (Path.namesOf path) with
  | .error _ => { exitCode := .failure }
  | .ok place =>
    if !s.tree.exists? place then usageOutcome (.pathMissing path)
    else
      match Scan.target s.tree place with
      | .error (.config e) =>
        { exitCode := .usage, errors := ["Invalid configuration: " ++ e.message] }
      | .error _ => { exitCode := .failure }
      | .ok target => checkTarget s verbosity format failOnFindings target

/-- What a request leads to, as a terminal would show it. -/
def respond (s : Surroundings) : Request → Outcome
  | .version => { exitCode := .success, output := Report.toolVersion ++ "\n" }
  | .help => { exitCode := .success, output := usageText }
  | .lints .json =>
    match Report.machineLints? digitLimit with
    | none => { exitCode := .failure }
    | some rows => { exitCode := .success, output := rows ++ "\n" }
  | .lints .terminal => { exitCode := .success, output := lintsTable }
  | .check verbosity path format failOnFindings => check s verbosity path format failOnFindings

/-- The outcome without escape sequences in the output: they have no meaning where it is kept. -/
def Outcome.plain (outcome : Outcome) : Outcome :=
  { outcome with output := String.ofList (Text.withoutSequences outcome.output.toList) }

/-- The whole program. -/
def run (s : Surroundings) (arguments : List String) : Outcome :=
  match requestOf arguments with
  | .error e => usageOutcome e
  | .ok request =>
    let outcome := respond s request
    if s.outputIsTerminal then outcome else outcome.plain

end RustLint.CommandLine
