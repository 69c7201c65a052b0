import RustLint.Finding
import RustLint.Lint
import RustLint.Report.Json

set_option autoImplicit false

namespace RustLint.Report

def toolName : String := "ferrolint"

def toolVersion : String := "0.1.0"

def schemaVersion : Int := 1

/-- Why there is no report. -/
inductive Failure where
  /-- A path in it cannot be shown. -/
  | noPlace (e : Path.PlaceError)
  /-- A number in it has more digits than are written. -/
  | tooManyDigits
  deriving DecidableEq, Inhabited, Repr

/-- A part that may be missing. -/
def optional {α ε : Type} (write : α → Except ε Json) : Option α → Except ε Json
  | none => .ok .null
  | some a => write a

section

variable (resolve : Path.Resolver) (root : Path)

/-- A path as it is shown from the root. -/
def jsonPath (path : Path) : Except Path.PlaceError Json := do
  return .text (← path.display resolve root)

/-- The bytes of a span. -/
def jsonSpan (s : Span) : Json := .object [("lo", .number s.lo), ("hi", .number s.hi)]

def jsonSuggestion (s : Suggestion) : Except Path.PlaceError Json := do
  return .object [
    ("help", .text s.help),
    ("path", ← optional (jsonPath resolve root) s.path),
    ("span", jsonSpan s.span),
    ("replacement", .text s.replacement),
    ("applicability", .text s.applicability.text)]

/-- A location; without a path it is none. -/
def jsonLocation (l : Location) : Except Path.PlaceError Json :=
  optional (fun path => do
    return .object [
      ("path", ← jsonPath resolve root path),
      ("start_line", .ofOption .number l.startLine),
      ("start_col", .ofOption .number l.startCol),
      ("end_line", .ofOption .number l.endLine),
      ("end_col", .ofOption .number l.endCol)]) l.path

def jsonFinding (f : Finding) : Except Path.PlaceError Json := do
  return .object [
    ("lint", .text f.lint),
    ("message", .text f.message),
    ("span", jsonSpan f.span),
    ("location", ← optional (jsonLocation resolve root) f.location),
    ("suggestion", ← optional (jsonSuggestion resolve root) f.suggestion)]

/-- The whole report. -/
def jsonSummary (s : Summary) : Except Path.PlaceError Json := do
  return .object [
    ("schema_version", .number schemaVersion),
    ("tool", .object [("name", .text toolName), ("version", .text toolVersion)]),
    ("files_checked", .number s.filesChecked),
    ("files_skipped", .list (← s.filesSkipped.mapM (jsonPath resolve root))),
    ("findings", .list (← s.findings.mapM (jsonFinding resolve root)))]

/-- The report as text. All its paths are known before the first number is written. -/
def machine (limit : Option Nat) (s : Summary) : Except Failure String := do
  let json ← (jsonSummary resolve root s).mapError .noPlace
  match json.render? limit with
  | some report => return report
  | none => throw .tooManyDigits

end

/-- What a lint says of itself. -/
def jsonLint (l : Lint) : Json :=
  .object [("explanation", .text l.explanation), ("name", .text l.name),
    ("summary", .text l.summary)]

/-- The list of the lints. -/
def machineLints? (limit : Option Nat) : Option String :=
  (Json.list (Lint.all.map jsonLint)).render? limit

end RustLint.Report
