import RustLint.Toml.Text

set_option autoImplicit false

/- Truth values, numbers, dates and times of TOML. Only where they end is of interest, and that
dates exist. -/
namespace RustLint.Toml

def isDigit (c : Char) : Bool := '0' ≤ c && c ≤ '9'

def isHexDigit (c : Char) : Bool := isDigit c || ('a' ≤ c && c ≤ 'f') || ('A' ≤ c && c ≤ 'F')

/-- The text behind further digits, between which single underscores may stand. -/
def skipDigits (is : Char → Bool) : List Char → List Char
  | [] => []
  | '_' :: c :: rest => if is c then skipDigits is rest else '_' :: c :: rest
  | c :: rest => if is c then skipDigits is rest else c :: rest

/-- The text behind at least one digit. -/
def afterDigits? (is : Char → Bool) : List Char → Option (List Char)
  | [] => none
  | c :: rest => if is c then some (skipDigits is rest) else none

/-- The text behind a number with a base mark. -/
def afterBased? : List Char → Option (List Char)
  | '0' :: 'x' :: rest => afterDigits? isHexDigit rest
  | '0' :: 'b' :: rest => afterDigits? (fun c => c == '0' || c == '1') rest
  | '0' :: 'o' :: rest => afterDigits? (fun c => '0' ≤ c && c ≤ '7') rest
  | _ => none

def skipSign : List Char → List Char
  | '+' :: rest | '-' :: rest => rest
  | cs => cs

/-- The text behind the whole part of a decimal number, which has no zero in front of others. -/
def afterWhole? (cs : List Char) : Option (List Char) :=
  match skipSign cs with
  | '0' :: rest => some rest
  | rest => afterDigits? isDigit rest

/-- The text behind a fraction, or all of it when there is none. -/
def skipFraction (cs : List Char) : List Char :=
  match cs with
  | '.' :: rest => (afterDigits? isDigit rest).getD cs
  | _ => cs

/-- The text behind an exponent, or all of it when there is none. -/
def skipExponent (cs : List Char) : List Char :=
  match cs with
  | 'e' :: rest | 'E' :: rest => (afterDigits? isDigit (skipSign rest)).getD cs
  | _ => cs

/-- Decimal integers with more digits are not read. -/
def maxDigits : Nat := 4300

/-- A decimal number; an integer must not have too many digits. -/
def decimal? (cs : List Char) : Option (Except Error (List Char)) :=
  (afterWhole? cs).map fun whole =>
    let rest := skipExponent (skipFraction whole)
    let digits := (cs.take (cs.length - whole.length)).countP isDigit
    if rest.length = whole.length && maxDigits < digits then .error .tooManyDigits else .ok rest

/-- The number of exactly so many digits. -/
def fixedDigits? (count : Nat) (cs : List Char) : Option (Nat × List Char) :=
  let digits := (cs.take count).takeWhile isDigit
  if digits.length = count then
    some (digits.foldl (fun n c => 10 * n + (c.toNat - 48)) 0, cs.drop count)
  else none

/-- Exactly so many digits that spell a number of the range. -/
def inRange? (count lo hi : Nat) (cs : List Char) : Option (Nat × List Char) :=
  (fixedDigits? count cs).filter fun (n, _) => lo ≤ n && n ≤ hi

/-- The text behind the sign. -/
def after? (sign : Char) : List Char → Option (List Char)
  | [] => none
  | c :: rest => if c = sign then some rest else none

def isLeapYear (year : Nat) : Bool := year % 4 == 0 && (year % 100 != 0 || year % 400 == 0)

def daysIn (year month : Nat) : Nat :=
  if month = 2 then (if isLeapYear year then 29 else 28)
  else if [4, 6, 9, 11].contains month then 30 else 31

/-- The date exists; there is no year zero. -/
def isDate (year month day : Nat) : Bool := 1 ≤ year && day ≤ daysIn year month

/-- The text behind a time with seconds and perhaps a fraction of them. -/
def afterTime? (cs : List Char) : Option (List Char) := do
  let (_, rest) ← inRange? 2 0 23 cs
  let (_, rest) ← inRange? 2 0 59 (← after? ':' rest)
  let (_, rest) ← inRange? 2 0 59 (← after? ':' rest)
  match rest with
  | '.' :: c :: more => return if isDigit c then more.dropWhile isDigit else rest
  | _ => return rest

/-- The text behind a distance from universal time. -/
def afterOffset? : List Char → Option (List Char)
  | 'Z' :: rest | 'z' :: rest => some rest
  | '+' :: rest | '-' :: rest => do
    let (_, rest) ← inRange? 2 0 23 rest
    let (_, rest) ← inRange? 2 0 59 (← after? ':' rest)
    return rest
  | _ => none

/-- The text behind a time that follows a date, with its distance from universal time. -/
def afterDayTime? : List Char → Option (List Char)
  | 'T' :: rest | 't' :: rest | ' ' :: rest => do
    let rest ← afterTime? rest
    return (afterOffset? rest).getD rest
  | _ => none

/-- A date, perhaps with a time. -/
def date? (cs : List Char) : Option (Except Error (List Char)) := do
  let (year, rest) ← fixedDigits? 4 cs
  let (month, rest) ← inRange? 2 1 12 (← after? '-' rest)
  let (day, rest) ← inRange? 2 1 31 (← after? '-' rest)
  return if isDate year month day then .ok ((afterDayTime? rest).getD rest) else malformed

/-- The text behind the word. -/
def afterWord? (word : String) (cs : List Char) : Option (List Char) :=
  if word.toList.isPrefixOf cs then some (cs.drop word.length) else none

/-- The text behind a word that stands for a truth value or for a number. -/
def afterName? (cs : List Char) : Option (List Char) :=
  ["true", "false", "inf", "nan", "-inf", "+inf", "-nan", "+nan"].findSome? fun word =>
    afterWord? word cs

/-- A value without parts. Dates come before times, and these before numbers. -/
def scalar (cs : List Char) : Except Error (List Char) :=
  (date? cs).getD <|
    match (afterTime? cs).or (afterBased? cs) with
    | some rest => .ok rest
    | none => (decimal? cs).getD ((afterName? cs).elim malformed .ok)

end RustLint.Toml
