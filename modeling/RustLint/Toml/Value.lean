import RustLint.Setting
import RustLint.Toml.Scalar

set_option autoImplicit false

namespace RustLint.Toml

/-- The entries of a table between braces read so far, and the paths to values that hold others,
which nothing can be added to. -/
structure InlineTable where
  entries : Setting.Entries := []
  frozen : List (List String) := []

/-- Some path of the list leads to the value of the key or to one around it. -/
def isFrozen (frozen : List (List String)) (key : List String) : Bool :=
  frozen.any fun path => path.isPrefixOf key

/-- The entries with a value at the end of the path. Nothing is replaced. -/
def put (throughLists : Bool) (path : List String) (value : Setting) (entries : Setting.Entries) :
    Except Error Setting.Entries :=
  let entries? := Setting.updateAt? throughLists
    (Setting.insertNew? (path.getLast?.getD "") value) path.dropLast entries
  entries?.elim malformed .ok

/-- The table with one entry more. -/
def InlineTable.add (table : InlineTable) (key : List String) (value : Setting) :
    Except Error InlineTable := do
  if isFrozen table.frozen key then malformed
  else
    return {
      entries := ← put false key value table.entries
      frozen := if value.isContainer then key :: table.frozen else table.frozen }

/-- An equals sign and the blanks around it. -/
def skipEquals : List Char → Except Error (List Char)
  | '=' :: rest => .ok (skipBlanks rest)
  | _ => malformed

mutual

/-- A value. `fuel` bounds the number of values in it. -/
def valueFrom : Nat → Reader Setting
  | 0, _ => malformed
  | fuel + 1, cs =>
    match cs with
    | '"' :: _ | '\'' :: _ => do
      let (text, rest) ← quotedText cs
      return (.text (String.ofList text), rest)
    | '[' :: rest => do
      let (items, rest) ← itemsFrom fuel (← skipLayout false rest)
      return (.list items, rest)
    | '\x7b' :: rest =>
      match skipBlanks rest with
      | '\x7d' :: rest => return (.table [], rest)
      | rest => do
        let (table, rest) ← entriesFrom fuel {} rest
        return (.table table.entries, rest)
    | _ => return (.scalar, ← scalar cs)

/-- The items of an array up to its bracket. The last may have a comma behind it. -/
def itemsFrom : Nat → Reader (List Setting)
  | 0, _ => malformed
  | fuel + 1, cs =>
    match cs with
    | ']' :: rest => return ([], rest)
    | _ => do
      let (item, rest) ← valueFrom fuel cs
      match ← skipLayout false rest with
      | ']' :: rest => return ([item], rest)
      | ',' :: rest =>
        let (items, rest) ← itemsFrom fuel (← skipLayout false rest)
        return (item :: items, rest)
      | _ => malformed

/-- The entries of a table up to its brace, added to those before. -/
def entriesFrom : Nat → InlineTable → Reader InlineTable
  | 0, _, _ => malformed
  | fuel + 1, table, cs => do
    let (path, rest) ← key cs
    let (value, rest) ← valueFrom fuel (← skipEquals rest)
    let table ← table.add path value
    match skipBlanks rest with
    | '\x7d' :: rest => return (table, rest)
    | ',' :: rest => entriesFrom fuel table (skipBlanks rest)
    | _ => malformed

end

/-- A value and the text behind it. Every value takes at least one character. -/
def value : Reader Setting := fun cs => valueFrom (2 * cs.length + 1) cs

end RustLint.Toml
