import RustLint.Report.Json

set_option autoImplicit false

/- Reading of the report format as its standard (RFC 8259) has it. The reader takes every value of
the format, not only what a report is written in: blanks anywhere between two parts, numbers with a
fraction and an exponent, all the escapes of a text. -/
namespace RustLint.Report

/-- A value as it is read. A number with a fraction or an exponent is a mantissa and a power of
ten; the members of an object keep their order. -/
inductive Datum where
  | null
  | bool (b : Bool)
  | number (n : Int)
  | decimal (mantissa exponent : Int)
  | text (s : String)
  | list (items : List Datum)
  | object (members : List (String × Datum))

namespace Datum

/-- The characters that may stand between two parts. -/
def isBlank (c : Char) : Bool := c == ' ' || c == '\n' || c == '\r' || c == '\t'

def skipBlanks (cs : List Char) : List Char := cs.dropWhile isBlank

/-! Texts. -/

/-- The value of a hexadecimal digit. -/
def hexDigit? (c : Char) : Option Nat :=
  if c.isDigit then some (c.toNat - 48)
  else if 'a' ≤ c && c ≤ 'f' then some (c.toNat - 87)
  else if 'A' ≤ c && c ≤ 'F' then some (c.toNat - 55)
  else none

/-- The number that hexadecimal digits go on with. -/
def hexValue? : Nat → List Char → Option Nat
  | n, [] => some n
  | n, c :: cs => do hexValue? (16 * n + (← hexDigit? c)) cs

/-- What an escape of one letter stands for. -/
def escaped? (c : Char) : Option Nat :=
  if c = '"' || c = '\\' || c = '/' then some c.toNat
  else if c = 'b' then some 0x08
  else if c = 'f' then some 0x0C
  else if c = 'n' then some 0x0A
  else if c = 'r' then some 0x0D
  else if c = 't' then some 0x09
  else none

/-- A character by its code units: one, or two for a character above the first plane. -/
def unitsOf (c : Char) : List Nat :=
  if c.toNat < 0x10000 then [c.toNat]
  else [0xD800 + (c.toNat - 0x10000) / 0x400, 0xDC00 + (c.toNat - 0x10000) % 0x400]

/-- The code units up to the closing quote, and what stands behind it. Control characters are not
allowed as they are. -/
def units? : List Char → Option (List Nat × List Char)
  | [] => none
  | '"' :: rest => some ([], rest)
  | '\\' :: 'u' :: a :: b :: c :: d :: rest => do
    let unit ← hexValue? 0 [a, b, c, d]
    let (units, rest) ← units? rest
    some (unit :: units, rest)
  | '\\' :: c :: rest => do
    let unit ← escaped? c
    let (units, rest) ← units? rest
    some (unit :: units, rest)
  | c :: rest =>
    if c.toNat < 0x20 then none
    else do
      let (units, rest) ← units? rest
      some (unitsOf c ++ units, rest)

/-- The first of the two code units of a character. -/
def isLead (unit : Nat) : Bool := 0xD800 ≤ unit && unit < 0xDC00

/-- The second of the two. -/
def isTrail (unit : Nat) : Bool := 0xDC00 ≤ unit && unit < 0xE000

/-- The characters of code units. A first unit without its second is no character, and neither is a
second one without its first. -/
def charsOf? : List Nat → Option (List Char)
  | [] => some []
  | [unit] => if isLead unit || isTrail unit then none else some [Char.ofNat unit]
  | unit :: next :: units =>
    if isLead unit && isTrail next then
      (charsOf? units).map
        (Char.ofNat (0x10000 + 0x400 * (unit - 0xD800) + (next - 0xDC00)) :: ·)
    else if isLead unit || isTrail unit then none
    else (charsOf? (next :: units)).map (Char.ofNat unit :: ·)

/-- A text from behind its opening quote. -/
def text? (cs : List Char) : Option (String × List Char) := do
  let (units, rest) ← units? cs
  let chars ← charsOf? units
  some (String.ofList chars, rest)

/-! Numbers. -/

/-- Digits in front, at least one. -/
def digits? (cs : List Char) : Option (List Char × List Char) :=
  let digits := cs.takeWhile Char.isDigit
  if digits.isEmpty then none else some (digits, cs.dropWhile Char.isDigit)

/-- The digits of a whole number: nothing stands behind a zero in front. -/
def whole? (cs : List Char) : Option (List Char × List Char) := do
  let (digits, rest) ← digits? cs
  if digits.head? = some '0' && digits.length != 1 then none else some (digits, rest)

/-- The digits behind a point, where there is one. -/
def fraction? : List Char → Option (List Char × List Char)
  | '.' :: rest => digits? rest
  | cs => some ([], cs)

/-- A minus sign in front. -/
def sign : List Char → Bool × List Char
  | '-' :: rest => (true, rest)
  | cs => (false, cs)

def signed (negative : Bool) (digits : List Char) : Int :=
  if negative then -(Nat.ofDigitChars 10 digits 0 : Int) else Nat.ofDigitChars 10 digits 0

/-- The power of ten, where there is one; either sign may stand in front of it. -/
def exponent? : List Char → Option (Option Int × List Char)
  | c :: rest =>
    if c = 'e' || c = 'E' then do
      let (negative, rest) := match rest with | '+' :: rest => (false, rest) | _ => sign rest
      let (digits, rest) ← digits? rest
      some (some (signed negative digits), rest)
    else some (none, c :: rest)
  | [] => some (none, [])

/-- A number. It is whole if neither a point nor a power is written. -/
def number? (cs : List Char) : Option (Datum × List Char) := do
  let (negative, cs) := sign cs
  let (digits, cs) ← whole? cs
  let (fraction, cs) ← fraction? cs
  let (exponent, rest) ← exponent? cs
  match fraction, exponent with
  | [], none => some (number (signed negative digits), rest)
  | _, _ => some (decimal (signed negative (digits ++ fraction))
      (exponent.getD 0 - fraction.length), rest)

/-! Values. -/

/-- The values that are words. -/
def words : List (List Char × Datum) :=
  [("null".toList, null), ("true".toList, bool true), ("false".toList, bool false)]

/-- A word in front. -/
def word? (cs : List Char) : Option (Datum × List Char) :=
  words.findSome? fun (word, value) => (word.isPrefixOf? cs).map fun rest => (value, rest)

mutual

/-- A value in front, and what stands behind it. The number bounds the steps down into lists and
objects and along their members. -/
def value? : Nat → List Char → Option (Datum × List Char)
  | 0, _ => none
  | steps + 1, cs =>
    match skipBlanks cs with
    | [] => none
    | c :: rest =>
      if c = '"' then do
        let (s, rest) ← text? rest
        some (text s, rest)
      else if c = '[' then
        match skipBlanks rest with
        | ']' :: rest => some (list [], rest)
        | _ => do
          let (items, rest) ← items? steps rest
          some (list items, rest)
      else if c = '\x7b' then
        match skipBlanks rest with
        | '\x7d' :: rest => some (object [], rest)
        | _ => do
          let (members, rest) ← members? steps rest
          some (object members, rest)
      else (word? (c :: rest)).or (number? (c :: rest))

/-- The items up to the closing bracket. -/
def items? : Nat → List Char → Option (List Datum × List Char)
  | 0, _ => none
  | steps + 1, cs => do
    let (item, rest) ← value? steps cs
    match skipBlanks rest with
    | ']' :: rest => some ([item], rest)
    | ',' :: rest => do
      let (items, rest) ← items? steps rest
      some (item :: items, rest)
    | _ => none

/-- The members up to the closing brace. -/
def members? : Nat → List Char → Option (List (String × Datum) × List Char)
  | 0, _ => none
  | steps + 1, cs => do
    let '"' :: rest := skipBlanks cs | none
    let (key, rest) ← text? rest
    let ':' :: rest := skipBlanks rest | none
    let (value, rest) ← value? steps rest
    match skipBlanks rest with
    | '\x7d' :: rest => some ([(key, value)], rest)
    | ',' :: rest => do
      let (members, rest) ← members? steps rest
      some ((key, value) :: members, rest)
    | _ => none

end

/-- The value of a whole text. Each step goes past a character, so the length bounds the steps. -/
def read? (s : String) : Option Datum := do
  let (value, rest) ← value? (s.toList.length + 1) s.toList
  if (skipBlanks rest).isEmpty then some value else none

-- Escapes, blanks and numbers no report is written with; a comma has a value behind it.
example : read? " [1.50e-2,\t\"\\u00E9\\/\\ud83d\\ude00\", true] " =
    some (list [decimal 150 (-4), text "é/😀", bool true]) := by cbv

example : (read? "[1,]").isNone = true := by cbv

end Datum

end RustLint.Report
