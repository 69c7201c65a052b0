import RustLint.Text.Blank

set_option autoImplicit false

namespace RustLint

/-- The names of a path in order. `leading` counts the slashes in front: none for a relative path,
one for an absolute one, and two where exactly two were written. -/
structure Path where
  leading : Nat
  parts : List String
  deriving DecidableEq, Inhabited, Repr

namespace Path

/-- The names in the text of a path as they are written: a slash at an end of the text has an empty
name beside it, and so have two slashes between them. -/
def namesOf (s : String) : List String :=
  (Text.splitAtAll (· == '/') s.toList).map String.ofList

/-- Names as they are written that begin at the root. -/
def areAbsolute : List String → Bool
  | "" :: _ :: _ => true
  | _ => false

/-- Three or more slashes in front are one slash; exactly two are kept. -/
def leadingSlashes (names : List String) : Nat :=
  match (names.dropLast.takeWhile (· == "")).length with
  | 0 => 0
  | 2 => 2
  | _ => 1

/-- The path of names as they are written. -/
def ofNames (names : List String) : Path where
  leading := leadingSlashes names
  parts := names.filter fun name => name != "" && name != "."

def ofString (s : String) : Path := ofNames (namesOf s)

/-- The empty relative path is written as a dot. -/
def toString (p : Path) : String :=
  if p.leading = 0 && p.parts.isEmpty then "."
  else String.ofList (List.replicate p.leading '/') ++ String.intercalate "/" p.parts

instance : ToString Path := ⟨toString⟩

/-- The names as they would be written; those of an absolute path begin with an empty one. -/
def names (p : Path) : List String := if p.leading = 0 then p.parts else "" :: p.parts

/-- The second path seen from the first; an absolute second path stands for itself. -/
def join (p q : Path) : Path :=
  if q.leading = 0 then { p with parts := p.parts ++ q.parts } else q

/-- The path of an entry of the directory. -/
def child (p : Path) (name : String) : Path := { p with parts := p.parts ++ [name] }

/-- The last name, empty for a root. -/
def name (p : Path) : String := p.parts.getLast?.getD ""

/-- The directory that holds the path; a root holds itself. -/
def parent (p : Path) : Path := { p with parts := p.parts.dropLast }

/-- The path and the directories around it, from the inside out. -/
def selfAndParents (p : Path) : List Path :=
  (List.range (p.parts.length + 1)).reverse.map fun n => { p with parts := p.parts.take n }

/-- The last dot of the name and what follows it. A name that begins or ends with its last dot has
no suffix. -/
def suffix (p : Path) : String :=
  let cs := p.name.toList
  let ending := cs.reverse.takeWhile (· != '.')
  let dot := cs.length - (ending.length + 1)
  if dot = 0 || ending.isEmpty then "" else String.ofList (cs.drop dot)

/-- The names with each double dot taken together with the name before it. Nothing lies above an
absolute root; a relative path keeps the double dots it begins with. -/
def normalizeParts (absolute : Bool) : List String → List String → List String
  | done, [] => done.reverse
  | [], ".." :: todo => normalizeParts absolute (if absolute then [] else [".."]) todo
  | last :: done, ".." :: todo =>
    if last = ".." then normalizeParts absolute (".." :: last :: done) todo
    else normalizeParts absolute done todo
  | done, part :: todo => normalizeParts absolute (part :: done) todo

/-- The path without double dots, as far as names alone tell. -/
def normalize (p : Path) : Path := { p with parts := normalizeParts (p.leading != 0) [] p.parts }

/-- The path one double dot further. -/
def up (p : Path) : Path := (p.child "..").normalize

/-- The path seen from a directory that holds it. Both are normalised, so double dots behind the
names of the directory lead out of it. -/
def relativeTo? (p root : Path) : Option Path :=
  let inside := p.parts.drop root.parts.length
  if p.leading = root.leading && root.parts.isPrefixOf p.parts && inside.head? != some ".." then
    some ⟨0, inside⟩
  else none

/-- Order of names, by code points. -/
def nameLt (a b : String) : Bool := (a.toList.map Char.toNat).lex (b.toList.map Char.toNat) Nat.blt

/-- Order of paths: part by part; a path comes before what it holds. -/
def le (p q : Path) : Bool :=
  if p.leading = q.leading then !q.parts.lex p.parts nameLt else decide (p.leading ≤ q.leading)

/-- No file has a null character in its name. -/
def nameHasNull (name : String) : Bool := name.toList.contains '\x00'

def hasNull (p : Path) : Bool := p.parts.any nameHasNull

/-- Why a path has no place. -/
inductive PlaceError where
  /-- Links run in a circle. -/
  | circular
  /-- No file can have a name like that. -/
  | nullCharacter
  deriving DecidableEq, Inhabited, Repr

/-- How a place on a file system is found: links and double dots are followed. -/
abbrev Resolver := Path → Except PlaceError Path

/-- Without a file system names alone decide. -/
def lexical : Resolver := fun p =>
  if p.hasNull then .error .nullCharacter
  else .ok { p.normalize with leading := min p.leading 1 }

/-- The place of the path seen from that of the root, if it is inside. -/
def inside (p : Path) (resolve : Resolver) (root : Path) : Except PlaceError (Option Path) := do
  return (← resolve p).relativeTo? (← resolve root)

/-- The path from the project root, or the whole path for a file outside of it and for a name that
no file can have. Where links run in a circle there is nothing to show. -/
def display (p : Path) (resolve : Resolver) (root : Path) : Except PlaceError String :=
  match p.inside resolve root with
  | .ok (some inside) => .ok inside.toString
  | .ok none | .error .nullCharacter => .ok p.toString
  | .error .circular => .error .circular

theorem circular_of_display {p : Path} {resolve : Resolver} {root : Path} {e : PlaceError}
    (failed : p.display resolve root = .error e) : e = .circular := by
  unfold display at failed
  split at failed <;> cases failed
  rfl

/-- The path as it is shown for a file that has been read, to which no such links lead. -/
def shown (p : Path) (resolve : Resolver) (root : Path) : String :=
  (p.display resolve root).toOption.getD p.toString

end Path

end RustLint
