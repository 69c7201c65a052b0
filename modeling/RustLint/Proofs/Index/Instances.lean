import RustLint.Proofs.Constructors.Flagged
import RustLint.Proofs.Index.Growth

set_option autoImplicit false

namespace RustLint.CrateIndex

/-- A type parameter that stands for any type: it hides no `str`, and by its name alone it does not
implement the trait. -/
structure IsFree (index : CrateIndex) (trait : TraitId) (param : String) : Prop where
  noStr : param ≠ "str"
  unknown : index.implements trait (bareType param) = false

variable (index : CrateIndex) (trait : TraitId)

/-- Without extra types, the source of a type and its place are nothing to the answer. -/
theorem implements_named (noExtra : index.extra = []) (name text : String) (span : Span) :
    index.implements trait ⟨.path, name, span, [], text⟩ =
      index.implements trait (bareType name) := by
  simp only [bareType, implements, isExtra_eq_false index noExtra]

variable (values : List (String × Ty)) (free : ∀ entry ∈ values, IsFree index trait entry.1)

include free in
/-- What a reference leads to stays what it is: `str` is no parameter, and a slice keeps its
shape. -/
theorem isDefaultTarget_substitute (reference : String) (target : Ty)
    (holds : isDefaultTarget reference target = true) :
    isDefaultTarget reference (target.substitute values) = true := by
  obtain ⟨kind, name, span, args, text⟩ := target
  cases args with
  | cons arg args => exact holds
  | nil =>
    have stays : (if kind = .path then values.lookup name else none) = none := by
      split
      · next path =>
        subst path
        rw [List.lookup_eq_none_iff]
        rintro entry listed
        have isStr : name = "str" := by
          simp only [isDefaultTarget, Bool.or_eq_true, Bool.and_eq_true, beq_iff_eq] at holds
          rcases holds with slice | ⟨⟨-, isStr⟩, -⟩
          · cases slice
          · exact isStr
        rw [isStr, bne_iff_ne]
        exact Ne.symm (free entry listed).noStr
      · rfl
    rw [Ty.substitute, if_pos List.isEmpty_nil, stays]
    exact holds

mutual

/-- A type that implements the trait does so with anything put in for free parameters: no answer
came from one of them. -/
theorem implements_substitute (noExtra : index.extra = [])
    (free : ∀ entry ∈ values, IsFree index trait entry.1) (ty : Ty)
    (holds : index.implements trait ty = true) :
    index.implements trait (ty.substitute values) = true := by
  match ty with
  | ⟨kind, name, span, [], text⟩ =>
    rw [Ty.substitute, if_pos List.isEmpty_nil]
    split
    · next value found =>
      -- A bare parameter that implements the trait would not be free.
      split at found
      · next path =>
        subst path
        obtain ⟨front, behind, split, -⟩ := List.lookup_eq_some_iff.mp found
        have listed : (name, value) ∈ values := by
          rw [split]
          exact List.mem_append_right _ List.mem_cons_self
        rw [implements_named index trait noExtra, (free _ listed).unknown] at holds
        cases holds
      · cases found
    · exact holds
  | ⟨kind, name, span, arg :: args, text⟩ =>
    have stay := implementsEach_substitute noExtra free (arg :: args)
    rw [Ty.substitute, if_neg (by simp)]
    cases kind with
    | path =>
      have extra : index.isExtra name "" = index.isExtra name text := by
        rw [isExtra_eq_false index noExtra, isExtra_eq_false index noExtra]
      exact implementsPath_mono index index trait.path name text "" true _ _ rfl id extra stay.all
        holds
    | tuple =>
      simp only [implements, Bool.and_eq_true] at holds ⊢
      exact ⟨holds.1, stay.all holds.2⟩
    | array =>
      simp only [implements, Bool.and_eq_true] at holds ⊢
      exact ⟨holds.1, stay.head holds.2⟩
    | ref =>
      simp only [implements, Bool.and_eq_true, Ty.substituteAll_eq_map] at holds ⊢
      exact ⟨holds.1, isDefaultTarget_substitute index trait values free name arg holds.2⟩
    | self | slice | never | other => cases holds

theorem implementsEach_substitute (noExtra : index.extra = [])
    (free : ∀ entry ∈ values, IsFree index trait entry.1) (tys : List Ty) :
    Stay (index.implementsEach trait tys)
      (index.implementsEach trait (Ty.substituteAll values tys)) := by
  match tys with
  | [] => exact .nil
  | ty :: tys =>
    exact .cons (implements_substitute noExtra free ty) (implementsEach_substitute noExtra free tys)

end

/-- So it does in an instance, with the arguments put in for the parameters. -/
theorem implements_instantiate (noExtra : index.extra = []) (params : List String)
    (free : ∀ param ∈ params, IsFree index trait param) (args : List Ty) (ty : Ty)
    (holds : index.implements trait ty = true) :
    index.implements trait (ty.instantiate params args) = true := by
  unfold Ty.instantiate
  split
  · exact holds
  · apply implements_substitute index trait _ noExtra _ ty holds
    rintro ⟨param, arg⟩ listed
    exact free param (List.of_mem_zip (List.mem_reverse.mp listed)).1

theorem definitionOf?_named (d : TypeDef) (unique : index.unique? d.name = some d) (span : Span)
    (args : List Ty) (text : String) :
    index.definitionOf? ⟨.path, d.name, span, args, text⟩ = some d := by
  rw [definitionOf?, if_pos rfl, unique]

/-- For every index without extra types, every trait and every struct that is defined once and
whose type parameters are free: when the field types implement the trait as they are declared, then
those of every instance do, and the trait can be derived for the instance, at the place of the
definition. With another number of arguments than parameters the fields stay as declared. -/
theorem canDerive_instance (d : TypeDef) (shape : StructShape) (fields : List FieldDef)
    (noExtra : index.extra = []) (unique : index.unique? d.name = some d)
    (isStruct : d.form = .struct shape fields)
    (free : ∀ param ∈ d.generics.typeParams, IsFree index trait param)
    (generic : ∀ field ∈ fields, index.implements trait field.ty = true) :
    ∀ (args : List Ty) (span : Span) (text : String),
      ∃ tys, index.fieldTypes? ⟨.path, d.name, span, args, text⟩ = some tys ∧
        tys.length = fields.length ∧ (∀ ty ∈ tys, index.implements trait ty = true) ∧
        (NewWithoutDefault.canDerive index.oracle ⟨.path, d.name, span, args, text⟩ trait).result =
          .ok (some d.span) := by
  intro args span text
  have defined := definitionOf?_named index d unique span args text
  have found : index.fieldTypes? ⟨.path, d.name, span, args, text⟩ =
      some (fields.map fun f => f.ty.instantiate d.generics.typeParams args) := by
    simp only [fieldTypes?, defined, Option.bind_eq_bind, Option.bind_some, isStruct]
  have each : ∀ ty ∈ fields.map fun f => f.ty.instantiate d.generics.typeParams args,
      index.implements trait ty = true := by
    intro ty listed
    obtain ⟨field, declared, rfl⟩ := List.mem_map.mp listed
    exact implements_instantiate index trait noExtra d.generics.typeParams free args field.ty
      (generic field declared)
  refine ⟨_, found, List.length_map _, each, ?_⟩
  rw [NewWithoutDefault.result_canDerive, found, Option.bind_some,
    if_pos (List.all_eq_true.mpr each), defined]
  rfl

/-! The struct `struct Pair<'a, T>(Box<Vec<T>>, &'a [T], ([u8; 4], Option<T>));` at `File`. -/

/-- A slice or an array. -/
def rowOf (kind : TyKind) (ty : Ty) : Ty := ⟨kind, "[]", ⟨0, 0, 0⟩, [ty], ""⟩

def shared (ty : Ty) : Ty := ⟨.ref, "&", ⟨0, 0, 0⟩, [ty], ""⟩

def wrapped (name : String) (ty : Ty) : Ty := ⟨.path, name, ⟨0, 0, 0⟩, [ty], ""⟩

def tupleField (ty : Ty) : FieldDef := ⟨none, ty, ⟨0, 0, 0⟩⟩

def genericFields : List FieldDef :=
  [wrapped "Box" (wrapped "Vec" (bareType "T")), shared (rowOf .slice (bareType "T")),
    ⟨.tuple, "", ⟨0, 0, 0⟩, [rowOf .array (bareType "u8"), wrapped "Option" (bareType "T")], ""⟩].map
      tupleField

def genericPair : TypeDef := { sampleUnit "Pair" with
  form := .struct .tuple genericFields
  generics := ⟨[⟨.lifetime, "'a"⟩, ⟨.type, "T"⟩], "<'a, T>"⟩
  span := ⟨4, 40, 0⟩ }

def genericIndex : CrateIndex := indexed [] [(⟨[.typeDef genericPair], ⟨0, 0, 0⟩⟩, none)]

/-- Every type put in for `T`, also one that is no `Default`. -/
theorem canDerive_genericPair :
    genericIndex.implements ⟨StdLibrary.defaultTrait⟩ (bareType "File") = false ∧
      (NewWithoutDefault.canDerive genericIndex.oracle (wrapped "Pair" (bareType "File"))
        ⟨StdLibrary.defaultTrait⟩).result = .ok (some ⟨4, 40, 0⟩) := by
  refine ⟨by decide +kernel, ?_⟩
  have types : genericIndex.types = [genericPair] := by
    rw [genericIndex, types_indexed, List.flatMap_singleton, typesIn_eq_typesBelow]
    rfl
  have unique : genericIndex.unique? genericPair.name = some genericPair := by
    rw [unique?, definitionsOf, types]
    rfl
  have free : ∀ param ∈ genericPair.generics.typeParams,
      IsFree genericIndex ⟨StdLibrary.defaultTrait⟩ param := by
    intro param listed
    cases List.mem_singleton.mp listed
    exact ⟨by decide, by decide +kernel⟩
  obtain ⟨_, _, _, _, derivable⟩ := canDerive_instance genericIndex ⟨StdLibrary.defaultTrait⟩
    genericPair .tuple genericFields (by decide +kernel) unique rfl free (by decide +kernel)
    [bareType "File"] ⟨0, 0, 0⟩ ""
  exact derivable

/-- A parameter called `str` would be put in for what a reference leads to. -/
example :
    genericIndex.implements ⟨StdLibrary.defaultTrait⟩ (shared (bareType "str")) = true ∧
      genericIndex.implements ⟨StdLibrary.defaultTrait⟩
        ((shared (bareType "str")).instantiate ["str"] [bareType "File"]) = false := by
  decide +kernel

end RustLint.CrateIndex
