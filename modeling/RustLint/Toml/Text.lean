set_option autoImplicit false

namespace RustLint.Toml

/-- What is wrong with a text. -/
inductive Error where
  | malformed
  /-- A decimal integer has more digits than are read. -/
  | tooManyDigits
  deriving DecidableEq, Inhabited, Repr

/-- What stands at a place, and the text behind it. -/
abbrev Reader (α : Type) := List Char → Except Error (α × List Char)

/-- What a reader yields that cannot find what it looks for. -/
def malformed {α : Type} : Except Error α := .error .malformed

def isBlank (c : Char) : Bool := c == ' ' || c == '\t'

def isBlankOrLineFeed (c : Char) : Bool := isBlank c || c == '\n'

/-- Control characters other than the tabulator stand nowhere but at the ends of lines. -/
def isControl (c : Char) : Bool := (c.toNat < 32 && c != '\t') || c.toNat == 127

def skipBlanks (cs : List Char) : List Char := cs.dropWhile isBlank

/-- The text behind a comment, if one begins here, at the end of its line. -/
def skipComment (cs : List Char) : Except Error (List Char) :=
  match cs with
  | '#' :: rest =>
    if (rest.takeWhile (· != '\n')).any isControl then malformed
    else .ok (rest.dropWhile (· != '\n'))
  | _ => .ok cs

/-- The text behind blanks, line feeds and comments. `inside` says that a comment has begun. -/
def skipLayout (inside : Bool) : List Char → Except Error (List Char)
  | [] => .ok []
  | c :: rest =>
    if inside then
      if c = '\n' then skipLayout false rest
      else if isControl c then malformed
      else skipLayout true rest
    else if isBlankOrLineFeed c then skipLayout false rest
    else if c = '#' then skipLayout true rest
    else .ok (c :: rest)

/-- The number that the hexadecimal digits spell. -/
def hexNumber? (digits : List Char) : Option Nat :=
  digits.foldlM (fun n c =>
    if '0' ≤ c && c ≤ '9' then some (16 * n + (c.toNat - 48))
    else if 'a' ≤ c && c ≤ 'f' then some (16 * n + (c.toNat - 87))
    else if 'A' ≤ c && c ≤ 'F' then some (16 * n + (c.toNat - 55))
    else none) 0

/-- The character of a code point, unless it is half of a pair or none at all. -/
def scalar? (n : Nat) : Option Char := if h : n.isValidChar then some (Char.ofNatAux n h) else none

/-- The character that hexadecimal digits spell. -/
def hexChar? (digits : List Char) : Option Char := (hexNumber? digits).bind scalar?

/-- The character that a letter stands for behind a backslash. -/
def escaped? (letter : Char) : Option Char :=
  [('b', '\x08'), ('t', '\t'), ('n', '\n'), ('f', '\x0c'), ('r', '\r'), ('"', '"'),
    ('\\', '\\')].lookup letter

/-- A reader's result with one character more in front. -/
def withChar (c : Option Char) (result : Except Error (List Char × List Char)) :
    Except Error (List Char × List Char) := do
  match c with
  | none => malformed
  | some c =>
    let (cs, rest) ← result
    return (c :: cs, rest)

/-- The rest of a text in double quotes on one line. -/
def basicText : Reader (List Char)
  | [] => malformed
  | '"' :: rest => .ok ([], rest)
  | '\\' :: 'u' :: a :: b :: c :: d :: rest => withChar (hexChar? [a, b, c, d]) (basicText rest)
  | '\\' :: 'U' :: a :: b :: c :: d :: e :: f :: g :: h :: rest =>
    withChar (hexChar? [a, b, c, d, e, f, g, h]) (basicText rest)
  | '\\' :: letter :: rest => withChar (escaped? letter) (basicText rest)
  | c :: rest =>
    if isControl c || c = '\\' then malformed else withChar (some c) (basicText rest)

/-- Where a text over several lines is being read: in the text itself, between a backslash and the
end of its line, or in the blanks and lines behind it, which do not count. -/
inductive Fold where
  | no
  | toLineEnd
  | blanks
  deriving DecidableEq

/-- The rest of a text in three double quotes, up to the quotes that end it. -/
def basicLines : Fold → Reader (List Char)
  | _, [] => malformed
  | .toLineEnd, c :: rest =>
    if c = '\n' then basicLines .blanks rest
    else if isBlank c then basicLines .toLineEnd rest
    else malformed
  | _, '"' :: '"' :: '"' :: rest => .ok ([], rest)
  | _, '\\' :: 'u' :: a :: b :: c :: d :: rest =>
    withChar (hexChar? [a, b, c, d]) (basicLines .no rest)
  | _, '\\' :: 'U' :: a :: b :: c :: d :: e :: f :: g :: h :: rest =>
    withChar (hexChar? [a, b, c, d, e, f, g, h]) (basicLines .no rest)
  | _, '\\' :: letter :: rest =>
    if letter = '\n' then basicLines .blanks rest
    else if isBlank letter then basicLines .toLineEnd rest
    else withChar (escaped? letter) (basicLines .no rest)
  | fold, c :: rest =>
    if fold = .blanks && isBlankOrLineFeed c then basicLines .blanks rest
    else if c = '\\' || (isControl c && c != '\n') then malformed
    else withChar (some c) (basicLines .no rest)

/-- The rest of a text in single quotes on one line. -/
def literalText : Reader (List Char)
  | [] => malformed
  | '\'' :: rest => .ok ([], rest)
  | c :: rest => if isControl c then malformed else withChar (some c) (literalText rest)

/-- The rest of a text in three single quotes, up to the quotes that end it. -/
def literalLines : Reader (List Char)
  | [] => malformed
  | '\'' :: '\'' :: '\'' :: rest => .ok ([], rest)
  | c :: rest =>
    if isControl c && c != '\n' then malformed else withChar (some c) (literalLines rest)

/-- Up to two quotes right behind the three that end a text belong to it. -/
def moreQuotes (quote : Char) (text : List Char) (rest : List Char) : List Char × List Char :=
  let more := (rest.take 2).takeWhile (· == quote)
  (text ++ more, rest.drop more.length)

/-- A line feed right behind the quotes that begin a text does not belong to it. -/
def afterFirstLineFeed : List Char → List Char
  | '\n' :: rest => rest
  | cs => cs

/-- A quoted text. -/
def quotedText : Reader (List Char)
  | '"' :: '"' :: '"' :: rest => do
    let (text, rest) ← basicLines .no (afterFirstLineFeed rest)
    return moreQuotes '"' text rest
  | '"' :: rest => basicText rest
  | '\'' :: '\'' :: '\'' :: rest => do
    let (text, rest) ← literalLines (afterFirstLineFeed rest)
    return moreQuotes '\'' text rest
  | '\'' :: rest => literalText rest
  | _ => malformed

/-- A character of a key without quotes. -/
def isBareKey (c : Char) : Bool := c.isAlphanum || c == '-' || c == '_'

/-- A part of a key: bare, or quoted on one line. -/
def keyPart : Reader String := fun cs => do
  match cs with
  | '"' :: rest =>
    let (text, rest) ← basicText rest
    return (String.ofList text, rest)
  | '\'' :: rest =>
    let (text, rest) ← literalText rest
    return (String.ofList text, rest)
  | _ =>
    let part := cs.takeWhile isBareKey
    if part.isEmpty then malformed else return (String.ofList part, cs.dropWhile isBareKey)

/-- A key: parts with dots between them. `fuel` bounds their number. -/
def keyFrom : Nat → Reader (List String)
  | 0, _ => malformed
  | fuel + 1, cs => do
    let (part, rest) ← keyPart cs
    match skipBlanks rest with
    | '.' :: rest =>
      let (parts, rest) ← keyFrom fuel (skipBlanks rest)
      return (part :: parts, rest)
    | rest => return ([part], rest)

/-- A key and the text behind it and the blanks that follow. Every part takes a character. -/
def key : Reader (List String) := fun cs => keyFrom (cs.length + 1) cs

end RustLint.Toml
