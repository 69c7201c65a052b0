import RustLint.Text.Blank

set_option autoImplicit false

namespace RustLint.Text

/-- A character that ends a line: line feeds and carriage returns, vertical tabulators and form
feeds, three information separators, and the line ends of Unicode. -/
def isLineEnd (c : Char) : Bool :=
  let n := c.toNat
  (10 ≤ n && n ≤ 13) || (28 ≤ n && n ≤ 30) || n == 0x85 || n == 0x2028 || n == 0x2029

/-- The lines without their ends. A carriage return and the line feed behind it end one line; text
that ends with an end of line has no empty line behind it. -/
def splitLines : List Char → List (List Char)
  | [] => []
  | '\r' :: '\n' :: rest => [] :: splitLines rest
  | c :: rest =>
    if isLineEnd c then [] :: splitLines rest
    else
      match splitLines rest with
      | [] => [[c]]
      | line :: lines => (c :: line) :: lines

/-- The lines of a text without their ends. -/
def lines (s : String) : List String := (splitLines s.toList).map String.ofList

/-- Carriage returns, with the line feeds behind them, as line feeds. -/
def unifyLineEnds : List Char → List Char
  | [] => []
  | '\r' :: '\n' :: rest => '\n' :: unifyLineEnds rest
  | c :: rest => (if c = '\r' then '\n' else c) :: unifyLineEnds rest

end RustLint.Text
