import RustLint.Finding

set_option autoImplicit false

namespace RustLint.Report

/-- A line or column; an unknown one, and zero, is shown as the first. -/
def shownNumber (n : Option Int) : String :=
  toString (match n with | some 0 | none => 1 | some n => n)

/-- Where a finding is. -/
def whereabouts (resolve : Path.Resolver) (root : Path) (location : Option Location) : String :=
  match location with
  | some ⟨some path, line, col, _, _⟩ =>
    path.shown resolve root ++ ":" ++ shownNumber line ++ ":" ++ shownNumber col
  | _ => "<unknown>"

/-- The file of an edit, when it is not that of the finding. -/
def otherFile (resolve : Path.Resolver) (root : Path) (location : Option Location)
    (s : Suggestion) : String :=
  match s.path with
  | none => ""
  | some path =>
    if location.any (·.path == some path) then "" else " in " ++ path.shown resolve root

/-- A further line of an edit. -/
def editLine (line : List Char) : String :=
  if line.isEmpty then "" else "        " ++ String.ofList line

/-- The lines of an edit: the first behind its help, the others indented. -/
def suggestionLines (resolve : Path.Resolver) (root : Path) (location : Option Location)
    (s : Suggestion) : List String :=
  let lines := Text.splitLineFeeds (Text.stripChars s.replacement.toList)
  let head := "    help: " ++ s.help ++ " (" ++ s.applicability.text ++ ")" ++
    otherFile resolve root location s ++ ": "
  (head ++ String.ofList (lines.headD [])) :: (lines.drop 1).map editLine

/-- The lines of a finding. -/
def findingLines (resolve : Path.Resolver) (root : Path) (f : Finding) : List String :=
  (whereabouts resolve root f.location ++ ": " ++ f.lint ++ ": " ++ f.message) ::
    (f.suggestion.map (suggestionLines resolve root f.location)).getD []

/-- The last line. -/
def countLine (s : Summary) : String :=
  toString s.findings.length ++ " finding(s) in " ++ toString s.filesChecked ++
    (if s.filesChecked = 1 then " file" else " files") ++ " checked."

/-- The lines of the report. -/
def lines (resolve : Path.Resolver) (root : Path) (s : Summary) : List String :=
  s.findings.flatMap (findingLines resolve root) ++ [countLine s]

/-- The report as text. -/
def human (resolve : Path.Resolver) (root : Path) (s : Summary) : String :=
  String.intercalate "\n" (lines resolve root s)

end RustLint.Report
