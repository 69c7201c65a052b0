import RustLint.Text.Lower
import RustLint.Text.Blank

set_option autoImplicit false

namespace RustLint

inductive Lint where
  | collapsibleIf
  | newWithoutDefault
  | newWithoutDefaultDerive
  deriving DecidableEq, Inhabited, Repr

namespace Lint

/-- Every lint, by name. -/
def all : List Lint := [collapsibleIf, newWithoutDefault, newWithoutDefaultDerive]

theorem mem_all (l : Lint) : l ∈ all := by cases l <;> simp [all]

def name : Lint → String
  | collapsibleIf => "collapsible_if"
  | newWithoutDefault => "new_without_default"
  | newWithoutDefaultDerive => "new_without_default_derive"

/-- The names of all lints, in order. -/
def names : List String := all.map name

def summary : Lint → String
  | collapsibleIf =>
    "`if`s that can be collapsed (e.g. `if x \x7b if y \x7b .. \x7d \x7d` and " ++
      "`else \x7b if x \x7b .. \x7d \x7d`)"
  | newWithoutDefault => "`fn new() -> Self` method without `Default` implementation"
  | newWithoutDefaultDerive =>
    "`fn new() -> Self` without `#[derive]`able `Default` implementation"

def explanation : Lint → String
  | collapsibleIf =>
    "Each `if` adds a level of nesting. An `if` whose only content is another `if` can " ++
      "`&&`-combine the two conditions, and an `else` block whose only content is an `if` " ++
      "can be written as `else if`."
  | newWithoutDefault =>
    "A public zero-argument `new` constructor on a type without a `Default` impl. " ++
      "Add `impl Default for T \x7b fn default() -> Self \x7b Self::new() \x7d \x7d`."
  | newWithoutDefaultDerive =>
    "A public zero-argument `new` constructor on a struct whose fields are all `Default`. " ++
      "Prepend `#[derive(Default)]` to the struct definition."

/-- The text without the prefix, when it begins with it. -/
def dropPrefix (head cs : List Char) : List Char :=
  if head.isPrefixOf cs then cs.drop head.length else cs

/-- The name of a lint from what a user wrote: in any case, with dashes for underscores, and behind
the name of this tool or of the collection that has lints of the same names. -/
def normalize (written : String) : String :=
  let small := (Text.lower (Text.strip written)).toList
  let bare := dropPrefix "clippy::".toList (dropPrefix "ferrolint::".toList small)
  String.ofList (bare.map fun c => if c = '-' then '_' else c)

end Lint

end RustLint
