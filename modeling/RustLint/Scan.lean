import RustLint.Detection
import RustLint.FileTree
import RustLint.Toml.Document

set_option autoImplicit false

namespace RustLint

/-- Why a run ends without a summary. -/
inductive ScanError where
  | config (e : ConfigError)
  /-- The configuration file is no UTF-8 text. -/
  | notUtf8
  /-- The configuration file holds a number with too many digits. -/
  | tooManyDigits
  | noPlace (e : Path.PlaceError)
  /-- The path of the target or a link in place of a marker file leads to a name that is too long. -/
  | nameTooLong
  /-- A file meets a gap of the lowering. -/
  | fault (e : LowerError)
  deriving DecidableEq, Inhabited, Repr

/-- What is to be checked: a path below the root of its project. -/
structure ScanTarget where
  root : Path
  path : Path
  config : Config
  deriving Inhabited

namespace Scan

def configName : String := "ferrolint.toml"

def sharedConfigName : String := "pyproject.toml"

/-- Files that mark the root of a project. -/
def rootMarkers : List String := [configName, "Cargo.toml", sharedConfigName]

/-- Directories that hold no sources of the project. -/
def skippedDirs : List String :=
  [".git", ".hg", ".svn", ".idea", ".vscode", "target", "node_modules", "__pycache__"]

/-- Answers a question about a place. Nothing can be told of a name that is too long. -/
def probe (tree : FileTree) (question : FileTree → Path → Bool) (p : Path) :
    Except ScanError Bool :=
  match tree.find p with
  | .error .nameTooLong => .error .nameTooLong
  | _ => .ok (question tree p)

/-- The path of the configuration file of a project: one of its own, or one shared by tools. -/
def configFile? (tree : FileTree) (root : Path) : Except ScanError (Option Path) :=
  ([configName, sharedConfigName].map root.child).findM? (probe tree FileTree.isFile)

/-- The configuration in a file with the bytes. -/
def readConfig (name : String) (bytes : List UInt8) : Except ScanError Config := do
  match Text.decodeUtf8? bytes with
  | none => .error .notUtf8
  | some cs =>
    match Toml.read (String.ofList (Text.unifyLineEnds cs)) with
    | .error .malformed => .error (.config (.malformedFile name))
    | .error .tooManyDigits => .error .tooManyDigits
    | .ok entries =>
      let config := if name = configName then Config.ofTable "" entries
        else Config.ofSharedTable entries
      config.mapError .config

/-- The configuration of a project. -/
def loadConfig (tree : FileTree) (root : Path) : Except ScanError Config := do
  match ← configFile? tree root with
  | none => return {}
  | some path =>
    match tree.readFile path with
    | .ok bytes => readConfig path.name bytes
    | .error _ => return {}

/-- The nearest directory around the path that holds a marker file; without one the path itself or
the directory that it is in. -/
def projectRoot (tree : FileTree) (path : Path) : Except ScanError Path := do
  let base := if ← probe tree FileTree.isDir path then path else path.parent
  let isRoot (dir : Path) : Except ScanError Bool :=
    rootMarkers.anyM fun marker => probe tree FileTree.isFile (dir.child marker)
  return (← base.selfAndParents.findM? isRoot).getD base

/-- The target at a path. -/
def target (tree : FileTree) (path : Path) : Except ScanError ScanTarget := do
  let path ← (tree.resolve path).mapError .noPlace
  let root ← projectRoot tree path
  return { root, path, config := ← loadConfig tree root }

def isRust (path : Path) : Bool := Text.lower path.suffix == ".rs"

/-- The file is to be checked. -/
def isWanted (tree : FileTree) (target : ScanTarget) (path : Path) : Bool :=
  isRust path && !Config.isIgnored tree.resolve target.root target.config.ignorePaths path

/-- The files to check, in the order of paths. -/
def files (tree : FileTree) (target : ScanTarget) : List Path :=
  let found := if tree.isFile target.path then [target.path]
    else tree.filesBelow (fun dir => skippedDirs.contains dir.name) target.path
  (found.filter (isWanted tree target)).mergeSort Path.le

/-- The text of a source file. -/
def textOf (bytes : List UInt8) : String :=
  String.ofList (Text.unifyLineEnds (Text.decodeUtf8Lossy bytes))

/-- A file made ready, unless it cannot be read. -/
def readFile (tree : FileTree) (parser : Parser) (target : ScanTarget) (path : Path) :
    Reporting LowerError (Option RustFile) :=
  match tree.readFile path with
  | .ok bytes => some <$> RustFile.ofText tree.resolve target.root parser path (textOf bytes)
  | .error e => do
    Reporting.write ⟨.warning, "ferrolint.scanner", "Cannot read " ++ path.toString ++ ": " ++
      e.text ++ ": " ++ Text.quoted path.toString⟩
    return none

/-- The files that can be read, in order. -/
def readFiles (tree : FileTree) (parser : Parser) (target : ScanTarget) :
    List Path → Reporting LowerError (List RustFile)
  | [] => return []
  | path :: paths => do
    let file ← readFile tree parser target path
    let files ← readFiles tree parser target paths
    return file.toList ++ files

/-- The run over the target. -/
def check (tree : FileTree) (parser : Parser) (target : ScanTarget) :
    Reporting LowerError Summary := do
  let files ← readFiles tree parser target (files tree target)
  Reporting.write ⟨.debug, "ferrolint.scanner", "checking " ++ toString files.length ++
    " file(s) under " ++ target.root.toString⟩
  ExceptT.lift (Detection.check target.config files)

end Scan

end RustLint
