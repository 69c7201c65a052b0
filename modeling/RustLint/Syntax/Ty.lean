import RustLint.Span
import RustLint.Text.Blank

set_option autoImplicit false

namespace RustLint

/-- The shapes of types that the rules tell apart; `path` covers primitive types too, `other` all
that has no shape of its own here. -/
inductive TyKind where
  | path
  | self
  | tuple
  | ref
  | array
  | slice
  | never
  | other
  deriving DecidableEq, Inhabited, Repr

/-- A written type. `name` is the last segment of a path, `text` the source of the type where it
was written, empty where it was computed. -/
structure Ty where
  kind : TyKind
  name : String
  span : Span
  args : List Ty := []
  text : String := ""
  deriving Inhabited

namespace Ty

mutual

/-- The type as a reader sees it: its source, or its name with its arguments in angle brackets. -/
def display : Ty → String
  | ⟨_, name, _, args, text⟩ =>
    if text != "" then text
    else if args.isEmpty then name
    else name ++ "<" ++ String.intercalate ", " (displayAll args) ++ ">"

/-- The displayed members, in order. -/
def displayAll : List Ty → List String
  | [] => []
  | ty :: tys => display ty :: displayAll tys

end

mutual

/-- Same type: kind, name and arguments agree. Types of no known shape agree when their texts do,
up to blanks. -/
def same : Ty → Ty → Bool
  | ⟨kind, name, _, args, text⟩, ⟨kind', name', _, args', text'⟩ =>
    if kind != kind' then false
    else if kind = .other then Text.squash text == Text.squash text'
    else name == name' && sameAll args args'

/-- Equally many types, the same one by one. -/
def sameAll : List Ty → List Ty → Bool
  | [], [] => true
  | a :: as, b :: bs => same a b && sameAll as bs
  | _, _ => false

end

mutual

/-- The type with the named parameters replaced. A type rebuilt around a replacement loses its
source text. -/
def substitute (values : List (String × Ty)) : Ty → Ty
  | ⟨kind, name, span, args, text⟩ =>
    if args.isEmpty then
      match if kind = .path then values.lookup name else none with
      | some value => value
      | none => ⟨kind, name, span, args, text⟩
    else ⟨kind, name, span, substituteAll values args, ""⟩

/-- The members with the named parameters replaced. -/
def substituteAll (values : List (String × Ty)) : List Ty → List Ty
  | [] => []
  | ty :: tys => substitute values ty :: substituteAll values tys

end

theorem substituteAll_eq_map (values : List (String × Ty)) (tys : List Ty) :
    substituteAll values tys = tys.map (substitute values) := by
  induction tys with
  | nil => rfl
  | cons ty tys ih => rw [substituteAll, ih, List.map_cons]

/-- The type with the parameters of a definition replaced by as many arguments; with another number
of arguments it stays as it is. Of two parameters with one name the last counts. -/
def instantiate (params : List String) (args : List Ty) (ty : Ty) : Ty :=
  if params.isEmpty || params.length != args.length then ty
  else ty.substitute (params.zip args).reverse

end Ty

/-- What a generic parameter stands for. -/
inductive GenericKind where
  | type
  | lifetime
  | const
  deriving DecidableEq, Inhabited, Repr

structure GenericParam where
  kind : GenericKind
  name : String
  deriving DecidableEq, Inhabited, Repr

/-- The generic parameters of a definition, and their source with the angle brackets. -/
structure Generics where
  params : List GenericParam := []
  text : String := ""
  deriving DecidableEq, Inhabited, Repr

/-- The names of the type parameters, in order. -/
def Generics.typeParams (g : Generics) : List String :=
  (g.params.filter (·.kind = .type)).map (·.name)

end RustLint
