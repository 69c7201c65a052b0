import RustLint.Path
import RustLint.Text.Lower

set_option autoImplicit false

namespace RustLint.CommandLine

/-- What is wrong with the arguments. -/
inductive UsageError where
  | unknownOption (written : String)
  | valueMissing (option : String)
  | valueUnexpected (option : String)
  | commandMissing
  | unknownCommand (written : String)
  | tooManyArguments (written : String)
  | verboseAndQuiet
  | unsupportedFormat (known : List String)
  | pathMissing (written : String)
  deriving DecidableEq, Inhabited, Repr

def UsageError.message : UsageError → String
  | unknownOption written => "No such option: " ++ written
  | valueMissing option => "Option '" ++ option ++ "' requires an argument."
  | valueUnexpected option => "Option '" ++ option ++ "' does not take a value."
  | commandMissing => "Missing command."
  | unknownCommand written => "No such command '" ++ written ++ "'."
  | tooManyArguments written => "Got unexpected extra argument (" ++ written ++ ")"
  | verboseAndQuiet => "Choose at most one: --verbose or --quiet."
  | unsupportedFormat known => "Unsupported format. Use: " ++ String.intercalate ", " known ++ "."
  | pathMissing written => "Path '" ++ written ++ "' does not exist."

/-- The options that may be given: those that stand alone, those that take a value, and the single
letters that stand for options. With `stopsAtFirst` the first argument that is no option ends
them. -/
structure OptionTable where
  flags : List String
  valued : List String
  letters : List (Char × String)
  stopsAtFirst : Bool

/-- The options that were given with their values, in order, and all other arguments. -/
structure Given where
  options : List (String × String) := []
  others : List String := []

namespace Given

def addOption (name value : String) (g : Given) : Given :=
  { g with options := (name, value) :: g.options }

def addOther (argument : String) (g : Given) : Given :=
  { g with others := argument :: g.others }

/-- The value that counts: the last. -/
def last? (g : Given) (names : List String) : Option (String × String) :=
  (g.options.filter fun option => names.contains option.1).getLast?

/-- The first of the options that was given. -/
def first? (g : Given) (names : List String) : Option String :=
  (g.options.find? fun option => names.contains option.1).map (·.1)

def has (g : Given) (name : String) : Bool := (g.first? [name]).isSome

end Given

/-- The name of a long option and the value behind its equals sign. -/
def splitOption (argument : String) : String × Option String :=
  let cs := argument.toList
  let name := String.ofList (cs.takeWhile (· != '='))
  match cs.dropWhile (· != '=') with
  | [] => (name, none)
  | _ :: value => (name, some (String.ofList value))

/-- The options that a run of single letters stands for; none of them takes a value. -/
def lettersOf (table : OptionTable) (argument : String) :
    List Char → Except UsageError (List (String × String))
  | [] => .ok []
  | c :: cs =>
    match table.letters.lookup c with
    | some name => return (name, "") :: (← lettersOf table argument cs)
    | none => .error (.unknownOption argument)

def isLong (argument : String) : Bool := ['-', '-'].isPrefixOf argument.toList

/-- An argument that begins with a dash and has more than it. -/
def isOption (argument : String) : Bool :=
  match argument.toList with
  | '-' :: _ :: _ => true
  | _ => false

/-- Sorts the arguments into options and others. Two dashes alone end the options. -/
def sortArguments (table : OptionTable) : List String → Except UsageError Given
  | [] => .ok {}
  | argument :: rest =>
    if argument = "--" then .ok { others := rest }
    else if !isOption argument then
      if table.stopsAtFirst then .ok { others := argument :: rest }
      else Given.addOther argument <$> sortArguments table rest
    else if isLong argument then
      let (name, value?) := splitOption argument
      if table.flags.contains name then
        match value? with
        | some _ => .error (.valueUnexpected name)
        | none => Given.addOption name "" <$> sortArguments table rest
      else if table.valued.contains name then
        match value?, rest with
        | some value, rest => Given.addOption name value <$> sortArguments table rest
        | none, value :: rest => Given.addOption name value <$> sortArguments table rest
        | none, [] => .error (.valueMissing name)
      else .error (.unknownOption name)
    else do
      let options ← lettersOf table argument (argument.toList.drop 1)
      let given ← sortArguments table rest
      return { given with options := options ++ given.options }

inductive Verbosity where
  | normal
  | verbose
  | quiet
  deriving DecidableEq, Inhabited, Repr

inductive CheckFormat where
  | text
  | json
  deriving DecidableEq, Inhabited, Repr

inductive LintsFormat where
  | terminal
  | json
  deriving DecidableEq, Inhabited, Repr

/-- What the program is asked to do. -/
inductive Request where
  | version
  | help
  | check (verbosity : Verbosity) (path : String) (format : CheckFormat) (failOnFindings : Bool)
  | lints (format : LintsFormat)
  deriving DecidableEq, Inhabited, Repr

/-- The options in front of the command. -/
def mainOptions : OptionTable where
  flags := ["--version", "--verbose", "--quiet", "--help"]
  valued := []
  letters := [('v', "--verbose"), ('q', "--quiet")]
  stopsAtFirst := true

def checkOptions : OptionTable where
  flags := ["--fail", "--no-fail", "--help"]
  valued := ["--format"]
  letters := []
  stopsAtFirst := false

def lintsOptions : OptionTable where
  flags := ["--help"]
  valued := ["--format"]
  letters := []
  stopsAtFirst := false

/-- The format of the name, blanks around it and its case aside. -/
def formatOf {α : Type} (formats : List (String × α)) (given : Given) (default : α) :
    Except UsageError α :=
  match given.last? ["--format"] with
  | none => .ok default
  | some (_, written) =>
    match formats.lookup (Text.lower (Text.strip written)) with
    | some format => .ok format
    | none => .error (.unsupportedFormat (formats.map (·.1)))

def checkRequest (verbosity : Verbosity) (arguments : List String) :
    Except UsageError Request := do
  let given ← sortArguments checkOptions arguments
  if given.has "--help" then return .help
  let path := given.others.headD "."
  let fails := (given.last? ["--fail", "--no-fail"]).all (·.1 == "--fail")
  -- The run breaks off at such a path, whatever else is wrong.
  if (Path.ofString path).hasNull then return .check verbosity path .text fails
  match given.others.drop 1 with
  | [] => return .check verbosity path (← format given) fails
  | extra :: _ => .error (.tooManyArguments extra)
where
  format (given : Given) : Except UsageError CheckFormat :=
    formatOf [("text", .text), ("json", .json)] given .text

def lintsRequest (arguments : List String) : Except UsageError Request := do
  let given ← sortArguments lintsOptions arguments
  if given.has "--help" then return .help
  match given.others with
  | [] => return .lints (← formatOf [("terminal", .terminal), ("json", .json)] given .terminal)
  | extra :: _ => .error (.tooManyArguments extra)

def verbosityOf (given : Given) : Except UsageError Verbosity :=
  match given.has "--verbose", given.has "--quiet" with
  | true, true => .error .verboseAndQuiet
  | true, false => .ok .verbose
  | false, true => .ok .quiet
  | false, false => .ok .normal

/-- Of the requests for the version and for help the first wins, over everything but arguments that
cannot be sorted. -/
def eagerRequest? (given : Given) : Option Request :=
  (given.first? ["--version", "--help"]).map fun option =>
    if option = "--version" then .version else .help

/-- What the arguments ask for. Where no command is known by the first argument behind the options,
two dashes may have ended the options too early: the arguments from there on are sorted once more
for a request that needs no command. -/
def requestOf (arguments : List String) : Except UsageError Request := do
  let given ← sortArguments mainOptions arguments
  match eagerRequest? given, given.others with
  | some request, _ => return request
  | none, [] => .error .commandMissing
  | none, "check" :: rest => checkRequest (← verbosityOf given) rest
  | none, "lints" :: rest => do
    let _ ← verbosityOf given
    lintsRequest rest
  | none, command :: rest =>
    match eagerRequest? (← sortArguments mainOptions (command :: rest)) with
    | some request => return request
    | none => .error (.unknownCommand command)

end RustLint.CommandLine
