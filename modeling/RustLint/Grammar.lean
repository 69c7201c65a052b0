set_option autoImplicit false

/- The parser library. It may be missing, and each call to it may fail. The grammar is loaded once
and kept, and every thread keeps one parser, made when the thread first needs it. What fails in a
way that the library is known for makes no tree; any other failure is passed on. -/
namespace RustLint

/-- The kinds of failures that the library is known for, and any other by its name. -/
inductive FailureKind where
  | attribute
  | key
  | value
  | type
  | runtime
  | other (name : String)
  deriving DecidableEq, Inhabited, Repr

structure LibraryFailure where
  kind : FailureKind
  text : String
  deriving DecidableEq, Inhabited, Repr

/-- What came of parsing a text: a tree, the reason why there is none, or no parser at all. -/
inductive ParseOutcome (τ : Type) where
  | parsed (tree : τ)
  | failed (reason : String)
  | unavailable
  deriving Inhabited

namespace Grammar

/-- How the calls to the library end. -/
structure Library (τ : Type) where
  loadGrammar : Except LibraryFailure Unit := .ok ()
  makeParser : Except LibraryFailure Unit := .ok ()
  setLanguage : Except LibraryFailure Unit := .ok ()
  parse : Except LibraryFailure τ

/-- One call to the library. Grammars and parsers are numbered in the order in which the library
hands them out. -/
inductive LibraryCall where
  | loadGrammar
  | makeParser
  | setLanguage (parser grammar : Nat)
  | parse (parser : Nat)
  deriving DecidableEq, Inhabited, Repr

/-- What is kept between texts: the grammar once it is loaded, the parser of each thread, and how
many grammars were loaded and how many parsers made. -/
structure Cache where
  grammar : Option Nat := none
  parsers : List (Nat × Nat) := []
  loaded : Nat := 0
  made : Nat := 0
  deriving DecidableEq, Inhabited, Repr

/-- The cache, and the calls made so far. -/
structure Session where
  cache : Cache
  calls : List LibraryCall := []
  deriving DecidableEq, Inhabited, Repr

/-- Work with the library, which may fail; the session stays as it was then. -/
abbrev Use := ExceptT LibraryFailure (StateM Session)

variable {τ : Type}

/-- Makes a call that ends as given. -/
def call {α : Type} (c : LibraryCall) (result : Except LibraryFailure α) : Use α := do
  modify fun s => { s with calls := s.calls ++ [c] }
  match result with
  | .ok a => return a
  | .error e => throw e

def updateCache (f : Cache → Cache) : Use Unit := modify fun s => { s with cache := f s.cache }

/-- A failure to load the grammar of one of four kinds says that there is none. -/
def noGrammar (e : LibraryFailure) : LibraryFailure :=
  match e.kind with
  | .attribute | .key | .value | .runtime =>
    ⟨.runtime, "no 'rust' grammar in tree-sitter-languages"⟩
  | .type | .other _ => e

/-- The grammar. It is loaded unless it is there; a failure is not remembered. -/
def grammarOf (library : Library τ) : Use Nat := do
  match (← get).cache.grammar with
  | some grammar => return grammar
  | none =>
    call .loadGrammar (library.loadGrammar.mapError noGrammar)
    let grammar := (← get).cache.loaded
    updateCache fun c => { c with grammar := some grammar, loaded := c.loaded + 1 }
    return grammar

/-- The parser of the thread. A new one is kept once it knows the grammar. -/
def parserOf (library : Library τ) (thread : Nat) : Use Nat := do
  match (← get).cache.parsers.lookup thread with
  | some parser => return parser
  | none =>
    let grammar ← grammarOf library
    call .makeParser library.makeParser
    let parser := (← get).cache.made
    updateCache fun c => { c with made := c.made + 1 }
    call (.setLanguage parser grammar) library.setLanguage
    updateCache fun c => { c with parsers := (thread, parser) :: c.parsers }
    return parser

/-- Parses a text in the thread. -/
def parseIn (library : Library τ) (thread : Nat) : Use τ := do
  let parser ← parserOf library thread
  call (.parse parser) library.parse

/-- Failures of these kinds make no tree. -/
def isExpected (e : LibraryFailure) : Bool :=
  match e.kind with
  | .value | .type | .runtime => true
  | .attribute | .key | .other _ => false

/-- What comes of parsing a text in the thread, and the session after it. A library that is missing
is not called. -/
def parse (available : Bool) (library : Library τ) (thread : Nat) (session : Session) :
    Except LibraryFailure (ParseOutcome τ) × Session :=
  if available then
    match (parseIn library thread).run.run session with
    | (.ok tree, session) => (.ok (.parsed tree), session)
    | (.error e, session) =>
      (if isExpected e then .ok (.failed e.text) else .error e, session)
  else (.ok .unavailable, session)

end Grammar

end RustLint
