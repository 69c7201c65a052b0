set_option autoImplicit false

namespace RustLint

/-- A value of a configuration file. Numbers, truth values and dates are scalars; no key takes
one. -/
inductive Setting where
  | absent
  | text (s : String)
  | scalar
  | list (items : List Setting)
  | table (entries : List (String × Setting))
  deriving Inhabited

namespace Setting

/-- Keys with their values, each key once. -/
abbrev Entries := List (String × Setting)

/-- Lists and tables hold other values. -/
def isContainer : Setting → Bool
  | list _ | table _ => true
  | absent | text _ | scalar => false

/-- The entries with another value for a key that they have. -/
def replace (key : String) (value : Setting) (entries : Entries) : Entries :=
  entries.map fun entry => if entry.1 = key then (key, value) else entry

/-- The entries with one entry more, unless they have its key. -/
def insertNew? (key : String) (value : Setting) (entries : Entries) : Option Entries :=
  match entries.lookup key with
  | some _ => none
  | none => some (entries ++ [(key, value)])

/-- The entries with the table at the end of the path updated. Tables that are missing on the way
are made; where `throughLists` allows it, the way leads through the last table of a list. -/
def updateAt? (throughLists : Bool) (update : Entries → Option Entries) :
    List String → Entries → Option Entries
  | [], entries => update entries
  | key :: path, entries =>
    match entries.lookup key with
    | none => do
      let inner ← updateAt? throughLists update path []
      return entries ++ [(key, table inner)]
    | some (table inner) => do
      let inner ← updateAt? throughLists update path inner
      return replace key (table inner) entries
    | some (list items) =>
      match items.getLast? with
      | some (table inner) =>
        if throughLists then do
          let inner ← updateAt? throughLists update path inner
          return replace key (list (items.dropLast ++ [table inner])) entries
        else none
      | _ => none
    | some _ => none

end Setting

end RustLint
