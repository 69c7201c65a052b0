import RustLint.Log
import RustLint.StdLibrary
import RustLint.Syntax.Node
import RustLint.TypeOracle

set_option autoImplicit false

/- What the files of a run say about types and traits. The index answers questions about types from
the definitions and implementations it has seen and from what is known of the standard library. A
name that is defined twice or never is not guessed at: such a type implements nothing and is no
struct. -/
namespace RustLint

/-- The definitions in order, in a table of its own the files that they stand in, each under the
name of its definition, the names of the traits in order, and the implementations as pairs of a
trait path and the name of a type. `extra` lists further types that are `Default`. -/
structure CrateIndex where
  types : List TypeDef := []
  homes : List (String × Option Source) := []
  traits : List String := []
  impls : List (String × String) := []
  extra : List String := []
  deriving Inhabited

namespace CrateIndex

/-- An index that has seen nothing. -/
def empty (extraDefaultTypes : List String) : CrateIndex :=
  { extra := extraDefaultTypes.map Text.normalizePath }

/-- The path by which a trait is known: that of the crate for a trait that some file defines and
for one that nothing is known of, else that of the prelude. -/
def canonicalTrait (traits : List String) (written : String) : String :=
  let name := Text.lastSegment (Text.normalizePath written)
  if traits.contains name then "crate::" ++ name
  else (StdLibrary.preludeTrait? name).getD ("crate::" ++ name)

def typeDef? : Item → Option TypeDef
  | .typeDef d => some d
  | _ => none

def traitName? : Item → Option String
  | .traitDef d => some d.name
  | _ => none

/-- The trait as it is written and the name of the type, for an implementation of a trait. -/
def written? : Item → Option (String × String)
  | .impl i => i.trait.map fun trait => (trait.name, i.selfTy.name)
  | _ => none

/-- The traits that definitions derive, each with the name of its type. -/
def derivedBy (types : List TypeDef) : List (String × String) :=
  types.flatMap fun d => d.derives.map fun trait => (trait, d.name)

/-- One more crate. With the traits known then, all derived traits are read anew, those of earlier
crates too; the implementations of the crate are read once. Nothing is ever taken back. -/
def add (index : CrateIndex) (crate : Crate) (home : Option Source := none) : CrateIndex :=
  let items := (Node.crate crate).items
  let found := items.filterMap typeDef?
  let types := index.types ++ found
  let homes := index.homes ++ found.map fun d => (d.name, home)
  let traits := index.traits ++ items.filterMap traitName?
  let entries := (derivedBy types ++ items.filterMap written?).map fun (trait, ty) =>
    (canonicalTrait traits trait, ty)
  { index with
    types, homes, traits,
    impls := entries.foldl (fun impls entry => impls.insert entry) index.impls }

/-- The names of the defined types, each once. -/
def typeNames (index : CrateIndex) : List String :=
  (index.types.map (·.name)).eraseDups

/-- The names of the defined traits, each once. -/
def traitNames (index : CrateIndex) : List String := index.traits.eraseDups

/-- The paths of the implemented traits, each once. -/
def implPaths (index : CrateIndex) : List String := (index.impls.map (·.1)).eraseDups

/-- The names of the types that implement the trait of the path. -/
def implementors (index : CrateIndex) (path : String) : List String :=
  (index.impls.filter (·.1 == path)).map (·.2)

/-- The definitions of the name, in order. -/
def definitionsOf (index : CrateIndex) (name : String) : List TypeDef :=
  index.types.filter (·.name == name)

/-- The files that the definitions of the name stand in, in order. -/
def homesOf (index : CrateIndex) (name : String) : List (Option Source) :=
  (index.homes.filter (·.1 == name)).map (·.2)

/-- The definition of a name that is defined exactly once. -/
def unique? (index : CrateIndex) (name : String) : Option TypeDef :=
  match index.definitionsOf name with
  | [d] => some d
  | _ => none

/-- The definition that a path type names, when there is exactly one. -/
def definitionOf? (index : CrateIndex) (ty : Ty) : Option TypeDef :=
  if ty.kind = .path then index.unique? ty.name else none

/-- The file that this definition stands in: the first that is listed under its name. -/
def homeOf? (index : CrateIndex) (ty : Ty) : Option Source :=
  if (index.definitionOf? ty).isSome then (index.homesOf ty.name).head?.join else none

/-- The trait that a path names. A bare name, or one below the crate, is a trait that the files
define exactly once; a bare name that no file defines may be a prelude trait, and a path into the
standard library may name one. -/
def resolveTrait? (index : CrateIndex) (path : String) : Option TraitId :=
  let segments := Text.segments (Text.normalizePath path)
  let name := segments.getLast?.getD ""
  let first := segments.head?.getD ""
  let known := index.traits.count name
  if name = "" then none
  else if segments.length = 1 || ["crate", "self", "super"].contains first then
    if known = 1 then some ⟨"crate::" ++ name⟩
    else if segments.length = 1 && known = 0 then
      (StdLibrary.preludeTrait? name).map TraitId.mk
    else none
  else (StdLibrary.traitOfSegments? segments).map TraitId.mk

/-- The types of the fields of a struct, with the arguments of the type put in. -/
def fieldTypes? (index : CrateIndex) (ty : Ty) : Option (List Ty) := do
  let d ← index.definitionOf? ty
  match d.form with
  | .struct _ fields => some (fields.map fun f => f.ty.instantiate d.generics.typeParams ty.args)
  | _ => none

/-- The type is one of the extra types that are `Default`, by its source or by its name. -/
def isExtra (index : CrateIndex) (name text : String) : Bool :=
  (text != "" && index.extra.contains (Text.normalizePath text)) || index.extra.contains name

/-- The type behind a reference is one whose references are `Default`: a slice, or `str` behind a
shared reference. -/
def isDefaultTarget (reference : String) (target : Ty) : Bool :=
  target.kind == .slice || (target.kind == .path && target.name == "str" && reference == "&")

mutual

/-- Does the type implement the trait? A type that the files define must have an entry; types of
other crates may have one, and for `Default` the standard library is known. -/
def implements (index : CrateIndex) (trait : TraitId) : Ty → Bool
  | ⟨kind, name, _, args, text⟩ =>
    let answers := implementsEach index trait args
    let isDefault := trait.path == StdLibrary.defaultTrait
    match kind with
    | .path =>
      match index.definitionsOf name with
      | [] =>
        index.impls.contains (trait.path, name) ||
          (isDefault &&
            (index.isExtra name text || StdLibrary.defaultTypes.contains name ||
              (StdLibrary.wrapperTypes.contains name && !args.isEmpty && answers.all id)))
      | [_] => index.impls.contains (trait.path, name)
      | _ => false
    | .tuple => isDefault && answers.all id
    | .array => isDefault && answers.head?.getD false
    | .ref => isDefault && (args.head?.map (isDefaultTarget name)).getD false
    | _ => false

/-- The answers for the types, in order. -/
def implementsEach (index : CrateIndex) (trait : TraitId) : List Ty → List Bool
  | [] => []
  | ty :: tys => implements index trait ty :: implementsEach index trait tys

end

/-- The definition is public and no module hides it. -/
def isExported (index : CrateIndex) (ty : Ty) : Bool :=
  (index.definitionOf? ty).any fun d => d.vis == .everywhere && d.exported

/-- What the index answers to a question. -/
def answer (index : CrateIndex) : (q : Query) → q.Answer
  | .sameType a b => a.same b
  | .definitionSpan ty => (index.definitionOf? ty).map (·.span)
  | .definitionSource ty => index.homeOf? ty
  | .isExported ty => index.isExported ty
  | .resolveTrait path => index.resolveTrait? path
  | .implements ty trait => index.implements trait ty
  | .fields ty => index.fieldTypes? ty

/-- The index as an oracle that answers every question. -/
def oracle (index : CrateIndex) : TypeOracle := fun q => .ok (index.answer q)

/-- The log record of an index after a crate was added. -/
def record (index : CrateIndex) : LogRecord :=
  ⟨.debug, "ferrolint.oracles.crate_index",
    "indexed " ++ toString index.typeNames.length ++ " type names, " ++
      toString index.traitNames.length ++ " trait names"⟩

/-- One more crate, and a record of what is known then. -/
def addLogged (index : CrateIndex) (entry : Crate × Option Source) : Logged CrateIndex :=
  let index := index.add entry.1 entry.2
  ⟨index, [index.record]⟩

/-- The index of the crates, added in order, with a record for each. -/
def ofCrates (extraDefaultTypes : List String) (crates : List (Crate × Option Source)) :
    Logged CrateIndex :=
  crates.foldlM addLogged (empty extraDefaultTypes)

theorem value_foldlM_addLogged (index : CrateIndex) (crates : List (Crate × Option Source)) :
    (crates.foldlM addLogged index).value =
      crates.foldl (fun index entry => index.add entry.1 entry.2) index := by
  induction crates generalizing index with
  | nil => rfl
  | cons entry crates ih => rw [List.foldlM_cons, Logged.value_bind, ih]; rfl

end CrateIndex

end RustLint
