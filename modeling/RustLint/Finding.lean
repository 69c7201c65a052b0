import RustLint.Source

set_option autoImplicit false

namespace RustLint

/-- How far an edit can be trusted. -/
inductive Applicability where
  /-- It is safe to make without review. -/
  | machineApplicable
  /-- It compiles in the common case but changes more than the shape of the code. -/
  | maybeIncorrect
  deriving DecidableEq, Inhabited, Repr

def Applicability.text : Applicability → String
  | machineApplicable => "machine-applicable"
  | maybeIncorrect => "maybe-incorrect"

/-- An edit: the span is to be replaced. Without a path it is in the file of its finding. -/
structure Suggestion where
  span : Span
  replacement : String
  applicability : Applicability
  help : String := "try"
  path : Option Path := none
  deriving DecidableEq, Inhabited

/-- A place in a file as a reader counts it; any part may be unknown. -/
structure Location where
  path : Option Path := none
  startLine : Option Int := none
  startCol : Option Int := none
  endLine : Option Int := none
  endCol : Option Int := none
  deriving DecidableEq, Inhabited

/-- The lines and columns of a span. -/
def Location.ofSpan (source : Source) (span : Span) : Location :=
  let (startLine, startCol) := source.lineCol span.lo
  let (endLine, endCol) := source.lineCol span.hi
  ⟨source.path, some startLine, some startCol, some endLine, some endCol⟩

structure Finding where
  lint : String
  message : String
  span : Span
  location : Option Location := none
  suggestion : Option Suggestion := none
  deriving DecidableEq, Inhabited

/-- The outcome of a run. Files without a syntax tree are skipped. -/
structure Summary where
  filesChecked : Int
  findings : List Finding
  filesSkipped : List Path := []
  deriving DecidableEq, Inhabited

end RustLint
