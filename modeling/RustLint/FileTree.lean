import RustLint.Path

set_option autoImplicit false

namespace RustLint

/-- What a directory can hold. -/
inductive Entry where
  | file (bytes : List UInt8)
  /-- A link, with the path in it as it was written. -/
  | link (target : String)
  | dir (entries : List (String × Entry))
  deriving Inhabited

/-- Why a path leads nowhere. -/
inductive PathError where
  | missing
  | notDirectory
  | tooManyLinks
  | nameTooLong
  deriving DecidableEq, Inhabited, Repr

/-- The text of the operating system for the error, with its number. -/
def PathError.text : PathError → String
  | missing => "[Errno 2] No such file or directory"
  | notDirectory => "[Errno 20] Not a directory"
  | tooManyLinks => "[Errno 40] Too many levels of symbolic links"
  | nameTooLong => "[Errno 36] File name too long"

namespace Entry

/-- The entry of the name in a directory. -/
def child? (name : String) : Entry → Option Entry
  | dir entries => entries.lookup name
  | file _ | link _ => none

/-- The entry below this one, links not followed. -/
def at? : List String → Entry → Option Entry
  | [], e => some e
  | name :: names, e => (child? name e).bind (at? names)

/-- The entries with the one of the name replaced, or added at the end. -/
def setEntry (name : String) (e : Entry) : List (String × Entry) → List (String × Entry)
  | [] => [(name, e)]
  | entry :: entries =>
    if entry.1 = name then (name, e) :: entries else entry :: setEntry name e entries

/-- The entry with another one put below it; directories that are missing are made. A directory is
put to what is there already. -/
def put (e : Entry) : List String → Entry → Entry
  | [], old =>
    match e, old with
    | dir [], dir entries => dir entries
    | _, _ => e
  | name :: names, old =>
    let entries := match old with
      | dir entries => entries
      | file _ | link _ => []
    dir (setEntry name (put e names ((entries.lookup name).getD (dir []))) entries)

mutual

/-- The number of links at and below the entry. -/
def linkCount : Entry → Nat
  | file _ => 0
  | link _ => 1
  | dir entries => linkCountIn entries

/-- The number of links in and below the entries of a directory. -/
def linkCountIn : List (String × Entry) → Nat
  | [] => 0
  | (_, e) :: entries => linkCount e + linkCountIn entries

end

end Entry

/-- A file system by its root directory. -/
structure FileTree where
  root : Entry := .dir []
  deriving Inhabited

namespace FileTree

/-- So many links are followed on the way to one file. -/
def maxLinks : Nat := 40

/-- The bytes in a name are at most so many. -/
def maxNameBytes : Nat := 255

/-- The bytes in a whole path are less than so many. -/
def pathBytesLimit : Nat := 4096

/-- The entry at the end of a path without links, which begins at the root. -/
def entry? (tree : FileTree) (names : List String) : Option Entry := tree.root.at? names

/-- Where the names of a path lead. -/
inductive Route where
  /-- To a place; nothing has to be there. `known` holds the links on the way and their ends. -/
  | arrived (place : Path) (known : List (Path × Path))
  /-- Back into a link on the way to its own end. What was left of the names is put behind it. -/
  | circular (place : Path)
  /-- To a name with a null character. -/
  | nameless

/-- The directory where names as they are written begin. -/
def start (directory : Path) (names : List String) : Path :=
  if Path.areAbsolute names then ⟨1, []⟩ else directory

/-- The path as it is seen from the root. -/
def fromRoot (directory p : Path) : Path :=
  if p.leading = 0 then (directory.join p).normalize else p

/-- Follows the names from `place`, which a relative path leads to from the directory. Names that
lead nowhere are kept as they are. `following` holds the links that are being followed, and at most
`links` more of them can be followed inside each other. Empty names in what is left behind a circle
still count: as an absolute path it takes the place of all that is in front of it. -/
def follow (tree : FileTree) (directory : Path) :
    Nat → List Path → List (Path × Path) → Path → List String → Route
  | _, _, known, place, [] => .arrived place known
  | links, following, known, place, name :: todo =>
    if name = "" || name = "." then follow tree directory links following known place todo
    else if name = ".." then follow tree directory links following known place.up todo
    else if Path.nameHasNull name then .nameless
    else
      let here := place.child name
      match tree.entry? (fromRoot directory here).parts, links with
      | some (.link _), 0 => .circular (here.join (.ofNames todo))
      | some (.link target), inner + 1 =>
        match known.lookup here with
        | some theEnd => follow tree directory (inner + 1) following known theEnd todo
        | none =>
          if following.contains here then .circular (here.join (.ofNames todo))
          else
            let names := Path.namesOf target
            let beginning := start place names
            match follow tree directory inner (here :: following) known beginning names with
            | .arrived theEnd known =>
              follow tree directory (inner + 1) following ((here, theEnd) :: known) theEnd todo
            | .circular place => .circular (place.join (.ofNames todo))
            | .nameless => .nameless
      | _, links => follow tree directory links following known here todo
termination_by links _ _ _ todo => (links, todo.length)

/-- Follows the names from the directory `done`, whose last name comes first, as opening a file
does: everything on the way has to be a directory. -/
def findFrom (tree : FileTree) : Nat → List String → List String → Except PathError Entry
  | _, done, [] =>
    match tree.entry? done.reverse with
    | some e => .ok e
    | none => .error .missing
  | links, done, name :: todo =>
    match tree.entry? done.reverse with
    | some (.dir entries) =>
      if name = "" || name = "." then findFrom tree links done todo
      else if name = ".." then findFrom tree links done.tail todo
      else if name.utf8ByteSize > maxNameBytes then .error .nameTooLong
      else
        match entries.lookup name, links with
        | none, _ => .error .missing
        | some (.link _), 0 => .error .tooManyLinks
        | some (.link target), links + 1 =>
          let names := Path.namesOf target
          findFrom tree links (if Path.areAbsolute names then [] else done) (names ++ todo)
        | some _, links => findFrom tree links (name :: done) todo
    | _ => .error .notDirectory
termination_by links _ todo => (links, todo.length)

/-- What is found at the end of an absolute path. -/
def find (tree : FileTree) (p : Path) : Except PathError Entry :=
  if p.toString.utf8ByteSize < pathBytesLimit then findFrom tree maxLinks [] p.parts
  else .error .nameTooLong

/-- The place of names as they are written, in the directory, without links and double dots. Where
links run in a circle the names alone decide. A link can be met twice inside itself, as seen from
the directory and as seen from the root. -/
def locate (tree : FileTree) (directory : Path) (names : List String) :
    Except Path.PlaceError Path :=
  match tree.follow directory (2 * tree.root.linkCount) [] [] (start ⟨0, []⟩ names) names with
  | .arrived place _ => .ok (fromRoot directory place)
  | .circular place =>
    let place := (directory.join place).normalize
    if place.hasNull then .error .nullCharacter else .ok place
  | .nameless => .error .nullCharacter

/-- The place of a path seen from the root. There is none if links run in a circle and the place
that the names alone give leads into one again. -/
def resolve (tree : FileTree) : Path.Resolver := fun p => do
  let place ← tree.locate ⟨1, []⟩ p.names
  match tree.find place with
  | .error .tooManyLinks => .error .circular
  | _ => .ok place

def exists? (tree : FileTree) (p : Path) : Bool :=
  match tree.find p with
  | .ok _ => true
  | .error _ => false

def isFile (tree : FileTree) (p : Path) : Bool :=
  match tree.find p with
  | .ok (.file _) => true
  | _ => false

def isDir (tree : FileTree) (p : Path) : Bool :=
  match tree.find p with
  | .ok (.dir _) => true
  | _ => false

/-- The bytes of a file. -/
def readFile (tree : FileTree) (p : Path) : Except PathError (List UInt8) :=
  match tree.find p with
  | .ok (.file bytes) => .ok bytes
  | .ok _ => .error .missing
  | .error e => .error e

mutual

/-- The files at or below an entry, directories whose names are skipped left out. Links to
directories are not followed; all other links are files. -/
def filesOf (skips isDir : Path → Bool) (here : Path) : Entry → List Path
  | .file _ => [here]
  | .link _ => if isDir here then [] else [here]
  | .dir entries => if skips here then [] else filesIn skips isDir here entries

/-- The files in and below the entries of a directory. -/
def filesIn (skips isDir : Path → Bool) (here : Path) : List (String × Entry) → List Path
  | [] => []
  | (name, e) :: entries =>
    filesOf skips isDir (here.child name) e ++ filesIn skips isDir here entries

end

/-- The files below a directory. -/
def filesBelow (tree : FileTree) (skips : Path → Bool) (p : Path) : List Path :=
  match tree.find p with
  | .ok (.dir entries) => filesIn skips tree.isDir p entries
  | _ => []

end FileTree

end RustLint
