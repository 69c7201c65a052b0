import RustLint.Lint

set_option autoImplicit false

/- Comments that allow lints. A directive stands anywhere in a line and counts for the whole file,
for its own line or for the next one:

    ferrolint: allow-file=collapsible_if
    ferrolint: allow=collapsible_if
    ferrolint: allow-next-line=new_without_default -/
namespace RustLint

/-- Which lines a directive counts for. -/
inductive Reach where
  | file
  | sameLine
  | nextLine
  deriving DecidableEq, Inhabited, Repr

namespace Directive

/-- The character is the small letter or sign, in any case. Two letters without a counterpart of
their own count as an `i`. -/
def isLetter (letter c : Char) : Bool :=
  c.toLower == letter || (letter == 'i' && (c == 'İ' || c == 'ı'))

def isDash (c : Char) : Bool := c == '-' || c == '_'

/-- The word in any case. -/
def word (s : String) : List (Char → Bool) := s.toList.map isLetter

/-- What the directive is called. -/
def keyword : Reach → List (Char → Bool)
  | .file => word "allow" ++ [isDash] ++ word "file"
  | .sameLine => word "allow"
  | .nextLine => word "allow" ++ [isDash] ++ word "next" ++ [isDash] ++ word "line"

/-- A character of a list of names: ASCII letters and digits, the letters whose other case is one
of these, the signs in names, commas and blanks. -/
def isNameChar (c : Char) : Bool :=
  c.isAlphanum || ['_', ':', ',', '-', '\u0130', '\u0131', '\u017F', '\u212A'].contains c ||
    Text.isBlank c

/-- What follows the characters at the front. -/
def after? : List (Char → Bool) → List Char → Option (List Char)
  | [], cs => some cs
  | _ :: _, [] => none
  | is :: rest, c :: cs => if is c then after? rest cs else none

/-- The list of names of a directive that begins right here. -/
def namesHere? (reach : Reach) (cs : List Char) : Option (List Char) := do
  let rest ← after? (word "ferrolint:") cs
  let rest ← after? (keyword reach) (rest.dropWhile Text.isBlank)
  let rest ← after? [(· == '=')] (rest.dropWhile Text.isBlank)
  let names := rest.takeWhile isNameChar
  if names.isEmpty then none else some names

/-- The list of names of the first directive in the line. -/
def namesIn? (reach : Reach) : List Char → Option (List Char)
  | [] => none
  | c :: cs => (namesHere? reach (c :: cs)).or (namesIn? reach cs)

/-- The lints that a list names, between commas and blanks. -/
def lintsOf (names : List Char) : List String :=
  ((Text.splitAtAll (fun c => c == ',' || Text.isBlank c) names).filter (!·.isEmpty)).map
    fun name => Lint.normalize (String.ofList name)

/-- The word stands somewhere in the text. -/
def contains (word : List Char) : List Char → Bool
  | [] => word.isEmpty
  | c :: cs => word.isPrefixOf (c :: cs) || contains word cs

/-- The line names this tool, in any case. -/
def mayHold (line : String) : Bool := contains "ferrolint".toList (Text.lower line).toList

/-- The lints that the directive of the reach in the line allows, if there is one. -/
def lintsIn? (reach : Reach) (line : String) : Option (List String) :=
  if mayHold line then (namesIn? reach line.toList).map lintsOf else none

end Directive

/-- Lints allowed in a file, or on one line of it where a line is given. -/
structure Allowance where
  line : Option Nat
  lints : List String
  deriving DecidableEq, Inhabited, Repr

/-- What the directives of a file allow, in order. -/
abbrev Suppressions := List Allowance

namespace Suppressions

/-- What the directives of the line allow; lines are counted from 1. -/
def ofLine (number : Nat) (line : String) : Suppressions :=
  let allowance (reach : Reach) (place : Option Nat) : Suppressions :=
    ((Directive.lintsIn? reach line).map (Allowance.mk place)).toList
  allowance .file none ++ allowance .sameLine (some number) ++ allowance .nextLine (some (number + 1))

/-- What the directives of the lines allow, the first of which has the number. -/
def ofLinesFrom : Nat → List String → Suppressions
  | _, [] => []
  | number, line :: lines => ofLine number line ++ ofLinesFrom (number + 1) lines

/-- What the directives of the lines allow. -/
def ofLines (lines : List String) : Suppressions := ofLinesFrom 1 lines

/-- The lints allowed in the whole file. -/
def inFile (s : Suppressions) : List String :=
  (s.filter (·.line.isNone)).flatMap (·.lints)

/-- The lints allowed on the line. -/
def onLine (s : Suppressions) (line : Nat) : List String :=
  (s.filter (·.line == some line)).flatMap (·.lints)

/-- The lines that directives count for. -/
def lines (s : Suppressions) : List Nat := (s.filterMap (·.line)).eraseDups

/-- The list names the lint, or all lints. -/
def allows (lints : List String) (lint : String) : Bool :=
  lints.contains "all" || lints.contains lint

/-- The lint is allowed in the file, or on the line where one is known. -/
def isSuppressed (s : Suppressions) (lint : String) (line : Option Int) : Bool :=
  allows (inFile s) lint ||
    match line with
    | some (.ofNat n) => allows (onLine s n) lint
    | _ => false

end Suppressions

end RustLint
