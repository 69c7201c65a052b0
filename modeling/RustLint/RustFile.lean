import RustLint.Grammar
import RustLint.Log
import RustLint.Lowering
import RustLint.Suppression
import RustLint.Text.Lines

set_option autoImplicit false

namespace RustLint

/-- `place` is the path as it is shown. -/
structure RustFile where
  path : Path
  place : String
  text : String
  suppressions : Suppressions
  crate : Option Crate

/-- Work that may fail and that writes to the log; what was written before a failure stays. -/
abbrev Reporting (ε : Type) := ExceptT ε Logged

def Reporting.write {ε : Type} (record : LogRecord) : Reporting ε Unit :=
  ExceptT.lift (Logged.write record)

/-- Yields trees for source texts. -/
abbrev Parser := Source → ParseOutcome ParseTree

namespace RustFile

def source (file : RustFile) : Source := ⟨file.text, some file.path⟩

/-- The tree of a file that is there, or none. -/
def ofCrate (resolve : Path.Resolver) (root path : Path) (text : String) (crate : Option Crate) :
    RustFile where
  path := path
  place := path.shown resolve root
  text := text
  suppressions := .ofLines (Text.lines text)
  crate := crate

/-- The lowered tree. A tree that is refused counts as none; a fault is passed on. -/
def lower (source : Source) (path : Path) (tree : ParseTree) :
    Reporting LowerError (Option Crate) :=
  match Crate.ofTree source tree with
  | .ok crate => return some crate
  | .error e =>
    match e.refusal? with
    | some message => do
      Reporting.write ⟨.debug, "ferrolint.scanner", path.toString ++ ": " ++ message⟩
      return none
    | none => throw e

/-- The syntax tree of a text, if there is one. -/
def crateOf (parser : Parser) (path : Path) (text : String) :
    Reporting LowerError (Option Crate) :=
  let source : Source := ⟨text, some path⟩
  match parser source with
  | .parsed tree => lower source path tree
  | .failed reason => do
    Reporting.write ⟨.debug, "ferrolint.engine.tree_sitter", "tree-sitter failed: " ++ reason⟩
    return none
  | .unavailable => return none

/-- The file of a text. -/
def ofText (resolve : Path.Resolver) (root : Path) (parser : Parser) (path : Path)
    (text : String) : Reporting LowerError RustFile := do
  return ofCrate resolve root path text (← crateOf parser path text)

end RustFile

end RustLint
