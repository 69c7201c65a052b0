import RustLint.Toml.Value

set_option autoImplicit false

namespace RustLint.Toml

/-- What has been read of a document. `header` is the path of the open table. `opened` lists the
paths that no header may open again and no dotted key may extend, `frozen` those of arrays and
tables between braces. The tables that dotted keys have made count as opened from the next header
on; until then they are `pending`. -/
structure Document where
  entries : Setting.Entries := []
  header : List String := []
  opened : List (List String) := []
  pending : List (List String) := []
  frozen : List (List String) := []

namespace Document

/-- The document before a header: what was pending is opened. -/
def closeTable (d : Document) : Document :=
  { d with opened := d.pending ++ d.opened, pending := [] }

/-- Opens a table of its own. -/
def openTable (d : Document) (path : List String) : Except Error Document :=
  if d.opened.contains path || isFrozen d.frozen path then malformed
  else
    match Setting.updateAt? true some path d.entries with
    | some entries => .ok { d with entries, header := path, opened := path :: d.opened }
    | none => malformed

/-- The entries with one more table at the end of a list, which is made when it is not there. -/
def appendTable? (key : String) (entries : Setting.Entries) : Option Setting.Entries :=
  match entries.lookup key with
  | none => some (entries ++ [(key, .list [.table []])])
  | some (.list items) => some (Setting.replace key (.list (items ++ [.table []])) entries)
  | some _ => none

/-- Opens one more table of a list. What was opened in the one before is free again. -/
def openListTable (d : Document) (path : List String) : Except Error Document :=
  if isFrozen d.frozen path then malformed
  else
    match Setting.updateAt? true (appendTable? (path.getLast?.getD "")) path.dropLast d.entries with
    | some entries =>
      .ok { d with
        entries
        header := path
        opened := path :: d.opened.filter (!path.isPrefixOf ·)
        frozen := d.frozen.filter (!path.isPrefixOf ·) }
    | none => malformed

/-- The tables that a dotted key leads through, from the outside in. -/
def tablesOf (header key : List String) : List (List String) :=
  (List.range (key.length - 1)).map fun n => header ++ key.take (n + 1)

/-- Sets a key of the open table. -/
def set (d : Document) (key : List String) (value : Setting) : Except Error Document := do
  let tables := tablesOf d.header key
  let path := d.header ++ key
  if tables.any d.opened.contains || isFrozen d.frozen path.dropLast then malformed
  else
    return { d with
      entries := ← put true path value d.entries
      pending := tables ++ d.pending
      frozen := if value.isContainer then path :: d.frozen else d.frozen }

end Document

/-- The end of a line: blanks, perhaps a comment, and the line feed or the end of the text. -/
def endLine (cs : List Char) : Except Error (List Char) := do
  match ← skipComment (skipBlanks cs) with
  | [] => return []
  | '\n' :: rest => return rest
  | _ => malformed

/-- One statement, and the text behind it. -/
def statement (d : Document) (cs : List Char) : Except Error (Document × List Char) :=
  match cs with
  | [] => return (d, [])
  | '\n' :: _ | '#' :: _ => return (d, cs)
  | '[' :: '[' :: rest => do
    let (path, rest) ← key (skipBlanks rest)
    let d ← d.closeTable.openListTable path
    match rest with
    | ']' :: ']' :: rest => return (d, rest)
    | _ => malformed
  | '[' :: rest => do
    let (path, rest) ← key (skipBlanks rest)
    let d ← d.closeTable.openTable path
    match rest with
    | ']' :: rest => return (d, rest)
    | _ => malformed
  | _ => do
    let (path, rest) ← key cs
    let (setting, rest) ← value (← skipEquals rest)
    return (← d.set path setting, rest)

/-- The statements of a text. `fuel` bounds their number. -/
def statementsFrom : Nat → Document → List Char → Except Error Document
  | 0, _, _ => malformed
  | fuel + 1, d, cs =>
    if cs.isEmpty then return d
    else do
      let (d, rest) ← statement d (skipBlanks cs)
      statementsFrom fuel d (← endLine rest)

/-- The entries of a document. Every line takes at least its line feed or ends the text. -/
def read (text : String) : Except Error Setting.Entries := do
  let cs := text.toList
  return (← statementsFrom (cs.length + 1) {} cs).entries

end RustLint.Toml
