import RustLint.Text.Quoted

set_option autoImplicit false

namespace RustLint.Report

/-- A value. The members of an object keep their order. -/
inductive Json where
  | null
  | number (n : Int)
  | text (s : String)
  | list (items : List Json)
  | object (members : List (String × Json))
  deriving Inhabited

namespace Json

/-- A code unit by its number. -/
def escapeUnit (n : Nat) : List Char := '\\' :: 'u' :: Text.hexDigits 4 n

/-- A character by its number: one code unit, or two for a character above the first plane. -/
def escapeCodePoint (n : Nat) : List Char :=
  if n < 0x10000 then escapeUnit n
  else escapeUnit (0xD800 + (n - 0x10000) / 0x400) ++ escapeUnit (0xDC00 + (n - 0x10000) % 0x400)

/-- One character of a text. What is visible in ASCII stands for itself. -/
def escapeChar (c : Char) : List Char :=
  if c = '"' || c = '\\' then ['\\', c]
  else if c = '\n' then ['\\', 'n']
  else if c = '\r' then ['\\', 'r']
  else if c = '\t' then ['\\', 't']
  else if c = '\x0c' then ['\\', 'f']
  else if c = '\x08' then ['\\', 'b']
  else if ' ' ≤ c && c ≤ '~' then [c]
  else escapeCodePoint c.toNat

/-- A text in quotes. -/
def quote (s : String) : List Char := '"' :: s.toList.flatMap escapeChar ++ ['"']

/-- A new line at the level. -/
def newLine (level : Nat) : List Char := '\n' :: List.replicate (2 * level) ' '

/-- Members between two brackets, each on a line at the level; brackets without members stand side
by side. -/
def enclose (opening closing : Char) (level : Nat) (members : List (List Char)) : List Char :=
  if members.isEmpty then [opening, closing]
  else opening :: List.intercalate [','] (members.map (newLine (level + 1) ++ ·)) ++
    newLine level ++ [closing]

/-- The number of decimal digits; a sign is none. -/
def digitCount (n : Int) : Nat := (Nat.toDigits 10 n.natAbs).length

/-- The number has no more digits than are written; without a limit any number can be written. -/
def fits (limit : Option Nat) (n : Int) : Bool := limit.all (digitCount n ≤ ·)

mutual

/-- The text of a value whose lines begin at the level. There is none if a number in the value does
not fit. -/
def chars? (limit : Option Nat) (level : Nat) : Json → Option (List Char)
  | null => some "null".toList
  | number n => if fits limit n then some (toString n).toList else none
  | text s => some (quote s)
  | list items => (charsOfItems? limit (level + 1) items).map (enclose '[' ']' level)
  | object members =>
    (charsOfMembers? limit (level + 1) members).map (enclose '\x7b' '\x7d' level)

def charsOfItems? (limit : Option Nat) (level : Nat) : List Json → Option (List (List Char))
  | [] => some []
  | item :: items => do
    some ((← chars? limit level item) :: (← charsOfItems? limit level items))

def charsOfMembers? (limit : Option Nat) (level : Nat) :
    List (String × Json) → Option (List (List Char))
  | [] => some []
  | (key, value) :: members => do
    let text ← chars? limit level value
    some ((quote key ++ ':' :: ' ' :: text) :: (← charsOfMembers? limit level members))

end

/-- The text of a value. -/
def render? (limit : Option Nat) (j : Json) : Option String :=
  (chars? limit 0 j).map String.ofList

/-- A value that may be missing. -/
def ofOption {α : Type} (f : α → Json) : Option α → Json
  | none => null
  | some a => f a

end Json

end RustLint.Report
