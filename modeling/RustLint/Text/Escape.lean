import RustLint.Text.Blank

set_option autoImplicit false

namespace RustLint.Text

/-- The character that introduces an escape sequence. -/
def escape : Char := '\x1b'

/-- A character in front of the letter that ends an escape sequence. -/
def isParameter (c : Char) : Bool := c == ';' || c == '?' || c.isDigit

/-- What follows an escape sequence whose escape character stands in front of the text. -/
def afterSequence? : List Char → Option (List Char)
  | '[' :: rest =>
    match rest.dropWhile isParameter with
    | c :: after => if c.isAlpha then some after else none
    | [] => none
  | _ => none

/-- The text without escape sequences. No sequence reaches over the next escape character, so each
is found between two of them; characters that come together where one is taken out are not looked
at again. -/
def withoutSequences (cs : List Char) : List Char :=
  match splitAtAll (· == escape) cs with
  | [] => []
  | first :: rest => first ++ rest.flatMap fun part => (afterSequence? part).getD (escape :: part)

end RustLint.Text
