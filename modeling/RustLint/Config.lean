import RustLint.Lint
import RustLint.Path
import RustLint.Setting
import RustLint.StdLibrary
import RustLint.Text.Glob
import RustLint.Text.Quoted
import RustLint.Text.Segments

set_option autoImplicit false

namespace RustLint

/-- What is wrong with a configuration. -/
inductive ConfigError where
  | notStrings (key : String)
  | notTable (key : String)
  | notTraitPath (key : String)
  | unknownLint (key written : String)
  /-- The file does not follow the rules of its format. -/
  | malformedFile (name : String)
  deriving DecidableEq, Inhabited, Repr

def ConfigError.message : ConfigError → String
  | notStrings key => "`" ++ key ++ "` must be a list of strings."
  | notTable key => "`" ++ key ++ "` must be a table."
  | notTraitPath key => "`" ++ key ++ "` must be a path such as `core::default::Default`."
  | unknownLint key written =>
    "`" ++ key ++ "` contains unknown lint " ++ Text.quoted written ++ ". Valid lints: " ++
      String.intercalate ", " Lint.names ++ ", all."
  | malformedFile name => "Invalid TOML in " ++ name

/-- `allow` holds names of lints, or `all`. The paths to ignore are patterns. -/
structure Config where
  allow : List String := []
  defaultTrait : String := StdLibrary.defaultTrait
  defaultTypes : List String := []
  ignorePaths : List String := []
  deriving DecidableEq, Inhabited, Repr

namespace Config

/-- The names that can be allowed. -/
def allowable : List String := "all" :: Lint.names

/-- The lint is not switched off. -/
def enables (config : Config) (lint : String) : Bool :=
  !config.allow.contains "all" && !config.allow.contains lint

/-- The value as a text. -/
def text? : Setting → Option String
  | .text s => some s
  | _ => none

/-- The members as texts, when all of them are. -/
def texts? : List Setting → Option (List String)
  | [] => some []
  | item :: items => do return (← text? item) :: (← texts? items)

/-- A list of texts, each without blanks around it; an absent list is empty. -/
def stringsOf (key : String) : Setting → Except ConfigError (List String)
  | .absent => .ok []
  | .list items =>
    match texts? items with
    | some texts => .ok (texts.map Text.strip)
    | none => .error (.notStrings key)
  | _ => .error (.notStrings key)

/-- The lints that the list names; empty names are passed over. -/
def lintsOf (key : String) : List String → Except ConfigError (List String)
  | [] => .ok []
  | written :: rest =>
    if written = "" then lintsOf key rest
    else if allowable.contains (Lint.normalize written) then
      return Lint.normalize written :: (← lintsOf key rest)
    else .error (.unknownLint key written)

/-- The value of `allow`: which lints are switched off, in the order of all lints. -/
def allowOf (key : String) (value : Setting) : Except ConfigError (List String) := do
  let lints ← lintsOf key (← stringsOf key value)
  return allowable.filter fun name => lints.contains name

/-- A name of a program: letters, digits and underscores, no digit in front. -/
def isIdentifier : List Char → Bool
  | [] => false
  | c :: cs => (c.isAlpha || c == '_') && cs.all fun c => c.isAlphanum || c == '_'

/-- Identifiers with double colons between them, and perhaps one in front. -/
def isTraitPath (path : String) : Bool :=
  let cs := path.toList
  let bare := match cs with
    | ':' :: ':' :: rest => rest
    | _ => cs
  (Text.splitAtColons bare).all isIdentifier

/-- The value of `default-trait`. -/
def traitOf (key : String) (value : Setting) : Except ConfigError String :=
  match text? value with
  | some written =>
    let path := Text.strip written
    if isTraitPath path then .ok path else .error (.notTraitPath key)
  | none => .error (.notTraitPath key)

/-- The value of `ignore`. -/
def ignoreOf (key : String) : Setting → Except ConfigError (List String)
  | .absent => .ok []
  | .table entries => stringsOf (key ++ ".paths") ((entries.lookup "paths").getD (.list []))
  | _ => .error (.notTable key)

/-- The value of a key, or of the same key with underscores, or the default. -/
def valueOf (entries : Setting.Entries) (key other : String) (default : Setting) :
    Setting :=
  ((entries.lookup key).or (entries.lookup other)).getD default

/-- The configuration that the table gives. `place` stands in front of the keys in messages. -/
def ofTable (place : String) (entries : Setting.Entries) : Except ConfigError Config := do
  let allow ← allowOf (place ++ "allow") ((entries.lookup "allow").getD (.list []))
  let defaultTrait ← traitOf (place ++ "default-trait")
    (valueOf entries "default-trait" "default_trait" (.text StdLibrary.defaultTrait))
  let defaultTypes ← stringsOf (place ++ "default-types")
    (valueOf entries "default-types" "default_types" (.list []))
  let ignorePaths ← ignoreOf (place ++ "ignore") ((entries.lookup "ignore").getD (.table []))
  return { allow, defaultTrait, defaultTypes := defaultTypes.filter (· != ""), ignorePaths }

/-- The configuration in a file of several tools: the table of this tool, if it is there and not
empty. -/
def ofSharedTable (entries : Setting.Entries) : Except ConfigError Config :=
  match entries.lookup "tool" with
  | some (.table tools) =>
    match tools.lookup "ferrolint" with
    | some (.table (entry :: more)) => ofTable "tool.ferrolint." (entry :: more)
    | _ => .ok {}
  | _ => .ok {}

/-- The pattern without blanks around it, with slashes in place of backslashes. -/
def slashed (pattern : String) : List Char :=
  (Text.strip pattern).toList.map fun c => if c = '\\' then '/' else c

/-- The pattern without a first step that leads nowhere. -/
def withoutFirstDot : List Char → List Char
  | '.' :: '/' :: rest => rest
  | cs => cs

/-- A pattern covers a path below the root: with a slash at its end it is a directory, with another
slash it covers the whole path, without one the name or the whole path. -/
def patternMatches (pattern : String) (path : Path) : Bool :=
  let bare := withoutFirstDot (slashed pattern)
  let covers (text : String) : Bool := Text.globMatches (String.ofList bare) text
  if (slashed pattern).isEmpty then false
  else if bare.getLast? = some '/' then bare.isPrefixOf path.toString.toList
  else if bare.contains '/' then covers path.toString
  else covers path.name || covers path.toString

/-- Some pattern covers the path as it is seen from the root. Nothing outside the root is
ignored. -/
def isIgnored (resolve : Path.Resolver) (root : Path) (patterns : List String) (path : Path) :
    Bool :=
  match resolve path, resolve root with
  | .ok place, .ok rootPlace =>
    match place.relativeTo? rootPlace with
    | some inside => patterns.any fun pattern => patternMatches pattern inside
    | none => false
  | _, _ => false

end Config

end RustLint
