import RustLint.Text.Blank

set_option autoImplicit false

namespace RustLint.Text

/-- The length of the run of `c` at the front. -/
def leadingCount (c : Char) (line : List Char) : Nat := (line.takeWhile (· == c)).length

/-- The least of the numbers, 0 when there are none. -/
def leastOr0 : List Nat → Nat
  | [] => 0
  | [n] => n
  | n :: ns => min n (leastOr0 ns)

/-- The run of `c` that all non-empty lines begin with. -/
def commonRun (c : Char) (lines : List (List Char)) : Nat :=
  leastOr0 ((lines.filter (!·.isEmpty)).map (leadingCount c))

/-- The lines without the run of `c` that the candidates share. Empty lines stay empty. With
`ignoreFirst` the first line is no candidate and stays as it is. -/
def trimRun (ignoreFirst : Bool) (c : Char) (lines : List (List Char)) : List (List Char) :=
  if ignoreFirst then lines.take 1 ++ (lines.drop 1).map (List.drop (commonRun c (lines.drop 1)))
  else lines.map (List.drop (commonRun c lines))

/-- Shared spaces go first, then shared tabulators, then the spaces behind these. -/
def trimLines (ignoreFirst : Bool) (lines : List (List Char)) : List (List Char) :=
  trimRun ignoreFirst ' ' (trimRun ignoreFirst '\t' (trimRun ignoreFirst ' ' lines))

/-- The text without the indentation that its lines share. -/
def trimMultiline (text : String) (ignoreFirst : Bool) : String :=
  String.ofList (joinLineFeeds (trimLines ignoreFirst (splitLineFeeds text.toList)))

/-- The line behind the indentation; an empty line stays empty. -/
def indentLine (indent line : List Char) : List Char :=
  if line.isEmpty then [] else indent ++ line

/-- Every line but the first behind the indentation. -/
def reindentLines (indent : List Char) : List (List Char) → List (List Char)
  | [] => []
  | first :: rest => first :: rest.map (indentLine indent)

/-- Every line but the first behind the indentation. -/
def reindent (text indent : String) : String :=
  String.ofList (joinLineFeeds (reindentLines indent.toList (splitLineFeeds text.toList)))

end RustLint.Text
