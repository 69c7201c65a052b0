import Mathlib.Data.List.Forall2
import RustLint.Proofs.Constructors.Flagged
import RustLint.Proofs.Index.Definitions

set_option autoImplicit false

namespace RustLint

namespace Ty

mutual

/-- What two types that count as the same have in common: kind, name and arguments, and of a type
of no known shape its text without blanks. -/
def shape : Ty → Ty
  | ⟨kind, name, _, args, text⟩ =>
    if kind = .other then ⟨.other, "", ⟨0, 0, 0⟩, [], Text.squash text⟩
    else ⟨kind, name, ⟨0, 0, 0⟩, shapes args, ""⟩

/-- The shapes of the types, in order. -/
def shapes : List Ty → List Ty
  | [] => []
  | ty :: tys => shape ty :: shapes tys

end

theorem shapes_eq_map (tys : List Ty) : shapes tys = tys.map shape := by
  induction tys with
  | nil => rfl
  | cons ty tys ih => rw [shapes, ih, List.map_cons]

theorem shape_of_ne_other (ty : Ty) (shaped : ty.kind ≠ .other) :
    ty.shape = ⟨ty.kind, ty.name, ⟨0, 0, 0⟩, ty.args.map shape, ""⟩ := by
  cases ty
  rw [shape, if_neg shaped, shapes_eq_map]

theorem shape_of_other (ty : Ty) (other : ty.kind = .other) :
    ty.shape = ⟨.other, "", ⟨0, 0, 0⟩, [], Text.squash ty.text⟩ := by
  cases ty
  rw [shape, if_pos other]

@[simp] theorem kind_shape (ty : Ty) : ty.shape.kind = ty.kind := by
  by_cases other : ty.kind = .other
  · rw [shape_of_other ty other, other]
  · rw [shape_of_ne_other ty other]

mutual

/-- Two types count as the same when their shapes are equal. -/
theorem same_iff : ∀ a b : Ty, a.same b = true ↔ a.shape = b.shape
  | ⟨kind, name, span, args, text⟩, ⟨kind', name', span', args', text'⟩ => by
    have args_iff := sameAll_iff args args'
    by_cases kinds : kind = kind'
    · subst kinds
      by_cases other : kind = .other
      · simp [same, shape, other]
      · simp [same, shape, other, args_iff]
    · have differ : (⟨kind, name, span, args, text⟩ : Ty).shape ≠
          (⟨kind', name', span', args', text'⟩ : Ty).shape := by
        intro equal
        have := congrArg Ty.kind equal
        rw [kind_shape, kind_shape] at this
        exact kinds this
      simp [same, kinds, differ]

theorem sameAll_iff : ∀ as bs : List Ty, sameAll as bs = true ↔ shapes as = shapes bs
  | [], [] => by simp [sameAll]
  | [], _ :: _ => by simp [sameAll, shapes]
  | _ :: _, [] => by simp [sameAll, shapes]
  | a :: as, b :: bs => by
    rw [sameAll, Bool.and_eq_true, same_iff a b, sameAll_iff as bs, shapes, shapes, List.cons.injEq]

end

/-- Sameness of written types is an equivalence relation. -/
theorem same_equivalence : Equivalence fun a b : Ty => a.same b = true := by
  simp only [same_iff]
  exact ⟨fun _ => rfl, Eq.symm, Eq.trans⟩

theorem forall₂_same_iff (as bs : List Ty) :
    List.Forall₂ (fun a b => a.same b = true) as bs ↔ as.map shape = bs.map shape := by
  simp only [same_iff]
  rw [← List.forall₂_eq_eq_eq, List.forall₂_map_left_iff, List.forall₂_map_right_iff]

/-! Parameters put in. -/

/-- Named types as far as their shapes go. -/
def shapedValues (values : List (String × Ty)) : List (String × Ty) :=
  values.map fun value => (value.1, value.2.shape)

theorem lookup_shapedValues (values : List (String × Ty)) (name : String) :
    (shapedValues values).lookup name = (values.lookup name).map shape := by
  induction values with
  | nil => rfl
  | cons value values ih =>
    rw [shapedValues, List.map_cons, List.lookup_cons, List.lookup_cons, ← shapedValues, ih]
    cases name == value.1 <;> rfl

mutual

/-- The shape of a type with its parameters put in hangs on the shapes of what is put in. -/
theorem shape_substitute (values others : List (String × Ty))
    (alike : shapedValues values = shapedValues others) :
    ∀ ty : Ty, (ty.substitute values).shape = (ty.substitute others).shape
  | ⟨kind, name, span, args, text⟩ => by
    have inside := shape_substituteAll values others alike args
    have found : (values.lookup name).map shape = (others.lookup name).map shape := by
      rw [← lookup_shapedValues, alike, lookup_shapedValues]
    rw [substitute, substitute]
    cases args with
    | nil =>
      cases kind with
      | path =>
        simp only [List.isEmpty_nil, if_true]
        revert found
        cases values.lookup name <;> cases others.lookup name <;> intro found
        · rfl
        · cases found
        · cases found
        · exact Option.some.inj found
      | _ => rfl
    | cons arg args =>
      simp only [List.isEmpty_cons, Bool.false_eq_true, if_false, shape, shapes_eq_map, inside]

theorem shape_substituteAll (values others : List (String × Ty))
    (alike : shapedValues values = shapedValues others) :
    ∀ tys : List Ty, (substituteAll values tys).map shape = (substituteAll others tys).map shape
  | [] => rfl
  | ty :: tys => by
    rw [substituteAll, substituteAll, List.map_cons, List.map_cons,
      shape_substitute values others alike ty, shape_substituteAll values others alike tys]

end

theorem shape_instantiate (params : List String) (args others : List Ty)
    (alike : args.map shape = others.map shape) (ty : Ty) :
    (ty.instantiate params args).shape = (ty.instantiate params others).shape := by
  have lengths : args.length = others.length := by
    simpa using congrArg List.length alike
  rw [instantiate, instantiate, lengths]
  split
  · rfl
  · apply shape_substitute
    have zipped (tys : List Ty) : shapedValues (params.zip tys).reverse =
        (params.zip (tys.map shape)).reverse := by
      rw [shapedValues, List.map_reverse, List.zip_map_right]
      rfl
    rw [zipped, zipped, alike]

end Ty

namespace CrateIndex

open NewWithoutDefault (canDerive)

variable (index : CrateIndex)

/-! What the index reads of a type. -/

theorem definitionOf?_shape (ty : Ty) : index.definitionOf? ty.shape = index.definitionOf? ty := by
  by_cases other : ty.kind = .other
  · rw [ty.shape_of_other other]
    simp [definitionOf?, other]
  · rw [ty.shape_of_ne_other other]
    rfl

theorem homeOf?_shape (ty : Ty) : index.homeOf? ty.shape = index.homeOf? ty := by
  by_cases other : ty.kind = .other
  · rw [ty.shape_of_other other]
    simp [homeOf?, definitionOf?, other]
  · rw [ty.shape_of_ne_other other]
    rfl

theorem isDefaultTarget_shape (reference : String) (target : Ty) :
    isDefaultTarget reference target.shape = isDefaultTarget reference target := by
  by_cases other : target.kind = .other
  · rw [target.shape_of_other other]
    simp [isDefaultTarget, other]
  · rw [target.shape_of_ne_other other]
    rfl

mutual

/-- Without extra types that are `Default`, whether a trait is implemented hangs on the shape. -/
theorem implements_shape (noExtra : index.extra = []) (trait : TraitId) :
    ∀ ty : Ty, index.implements trait ty.shape = index.implements trait ty
  | ⟨kind, name, span, args, text⟩ => by
    have answers := implementsEach_shapes noExtra trait args
    cases kind with
    | other => rfl
    | path =>
      have arguments : (Ty.shapes args).isEmpty = args.isEmpty := by cases args <;> rfl
      simp only [Ty.shape, reduceCtorEq, if_false, implements, answers, arguments,
        isExtra_eq_false index noExtra]
    | ref =>
      have target : ((Ty.shapes args).head?.map (isDefaultTarget name)) =
          args.head?.map (isDefaultTarget name) := by
        rw [Ty.shapes_eq_map, List.head?_map, Option.map_map]
        simp only [Function.comp_def, isDefaultTarget_shape]
      simp only [Ty.shape, reduceCtorEq, if_false, implements, target]
    | _ => simp only [Ty.shape, reduceCtorEq, if_false, implements, answers]

theorem implementsEach_shapes (noExtra : index.extra = []) (trait : TraitId) :
    ∀ tys : List Ty, index.implementsEach trait (Ty.shapes tys) = index.implementsEach trait tys
  | [] => rfl
  | ty :: tys => by
    rw [Ty.shapes, implementsEach, implementsEach, implements_shape noExtra trait ty,
      implementsEach_shapes noExtra trait tys]

end

section SameShape

variable {a b : Ty} (alike : a.shape = b.shape)

include alike

theorem definitionOf?_congr : index.definitionOf? a = index.definitionOf? b := by
  rw [← definitionOf?_shape, alike, definitionOf?_shape]

theorem homeOf?_congr : index.homeOf? a = index.homeOf? b := by
  rw [← homeOf?_shape, alike, homeOf?_shape]

/-- The fields of two types of one shape have the same shapes, whatever parameters are put in. -/
theorem fieldTypes?_congr :
    (index.fieldTypes? a).map (List.map Ty.shape) =
      (index.fieldTypes? b).map (List.map Ty.shape) := by
  have definitions := definitionOf?_congr index alike
  rw [fieldTypes?, fieldTypes?, definitions]
  cases defined : index.definitionOf? b with
  | none => rfl
  | some d =>
    have shaped : b.kind ≠ .other := by
      intro other
      simp [definitionOf?, other] at defined
    have shaped' : a.kind ≠ .other := by rwa [← a.kind_shape, alike, b.kind_shape]
    rw [a.shape_of_ne_other shaped', b.shape_of_ne_other shaped] at alike
    have args := congrArg Ty.args alike
    dsimp only [Option.bind_eq_bind, Option.bind_some]
    cases d.form with
    | struct _ fields =>
      simp only [Option.map_some, List.map_map]
      refine congrArg some (List.map_congr_left fun f _ => ?_)
      exact f.ty.shape_instantiate d.generics.typeParams a.args b.args args
    | enum => rfl
    | union _ => rfl

theorem implements_congr (noExtra : index.extra = []) (trait : TraitId) :
    index.implements trait a = index.implements trait b := by
  rw [← implements_shape index noExtra, alike, implements_shape index noExtra]

end SameShape

/-- That all types of a list implement a trait hangs on their shapes. -/
theorem all_implements_congr (noExtra : index.extra = []) (trait : TraitId) (as bs : List Ty)
    (alike : as.map Ty.shape = bs.map Ty.shape) :
    as.all (index.implements trait) = bs.all (index.implements trait) := by
  have shapes (tys : List Ty) : tys.all (index.implements trait) =
      (tys.map Ty.shape).all (index.implements trait) := by
    simp only [List.all_map, Function.comp_def, implements_shape index noExtra]
  rw [shapes, alike, ← shapes]

/-- All that is asked about the two types is answered alike. -/
structure Interchangeable (a b : Ty) : Prop where
  implements : ∀ trait, index.answer (.implements a trait) = index.answer (.implements b trait)
  definitionSpan : index.answer (.definitionSpan a) = index.answer (.definitionSpan b)
  definitionSource : index.answer (.definitionSource a) = index.answer (.definitionSource b)
  isExported : index.answer (.isExported a) = index.answer (.isExported b)
  /-- Neither is a struct, or both are and their fields have the same types one by one. -/
  fields : (index.answer (.fields a) = none ∧ index.answer (.fields b) = none) ∨
    ∃ as bs, index.answer (.fields a) = some as ∧ index.answer (.fields b) = some bs ∧
      List.Forall₂ (fun x y => index.answer (.sameType x y) = true) as bs
  /-- A trait can be derived for both at one place, or for neither. -/
  derivable : ∀ trait, (canDerive index.oracle a trait).result =
    (canDerive index.oracle b trait).result

theorem fields_interchangeable {a b : Ty} (alike : a.shape = b.shape) :
    (index.fieldTypes? a = none ∧ index.fieldTypes? b = none) ∨
      ∃ as bs, index.fieldTypes? a = some as ∧ index.fieldTypes? b = some bs ∧
        as.map Ty.shape = bs.map Ty.shape := by
  have shapes := fieldTypes?_congr index alike
  cases ofA : index.fieldTypes? a with
  | none =>
    rw [ofA, Option.map_none, eq_comm, Option.map_eq_none_iff] at shapes
    exact .inl ⟨rfl, shapes⟩
  | some as =>
    rw [ofA, Option.map_some, eq_comm, Option.map_eq_some_iff] at shapes
    obtain ⟨bs, ofB, same⟩ := shapes
    exact .inr ⟨as, bs, rfl, ofB, same.symm⟩

theorem derivable_congr (noExtra : index.extra = []) {a b : Ty} (alike : a.shape = b.shape)
    (trait : TraitId) :
    (canDerive index.oracle a trait).result = (canDerive index.oracle b trait).result := by
  rw [NewWithoutDefault.result_canDerive, NewWithoutDefault.result_canDerive,
    definitionOf?_congr index alike]
  rcases fields_interchangeable index alike with ⟨ofA, ofB⟩ | ⟨as, bs, ofA, ofB, same⟩
  · rw [ofA, ofB]
  · rw [ofA, ofB, Option.bind_some, Option.bind_some,
      all_implements_congr index noExtra trait as bs same]

/-- For every index, to count as the same is an equivalence relation on types; and where no extra
types are configured, two types that count as the same are interchangeable. -/
theorem sameType_congruence :
    Equivalence (fun a b : Ty => index.answer (.sameType a b) = true) ∧
      (index.extra = [] → ∀ a b : Ty, index.answer (.sameType a b) = true →
        Interchangeable index a b) := by
  refine ⟨Ty.same_equivalence, fun noExtra a b same => ?_⟩
  have alike : a.shape = b.shape := (Ty.same_iff a b).mp same
  have definitions := definitionOf?_congr index alike
  exact {
    implements := implements_congr index alike noExtra
    definitionSpan := congrArg (Option.map _) definitions
    definitionSource := homeOf?_congr index alike
    isExported := congrArg (Option.any _) definitions
    fields := by
      rcases fields_interchangeable index alike with none | ⟨as, bs, ofA, ofB, shapes⟩
      · exact .inl none
      · exact .inr ⟨as, bs, ofA, ofB, (Ty.forall₂_same_iff as bs).mpr shapes⟩
    derivable := derivable_congr index noExtra alike }

/-! The struct of `moduleFile` with an argument, as it is written in two places. -/

def vecStruct : Ty :=
  ⟨.path, "S", ⟨0, 10, 0⟩,
    [⟨.path, "Vec", ⟨2, 9, 0⟩, [⟨.path, "u8", ⟨6, 8, 0⟩, [], "u8"⟩], "Vec<u8>"⟩], "S<Vec<u8>>"⟩

def spacedVecStruct : Ty :=
  ⟨.path, "S", ⟨40, 54, 0⟩,
    [⟨.path, "Vec", ⟨43, 52, 0⟩, [⟨.path, "u8", ⟨48, 50, 0⟩, [], "u8"⟩], "Vec< u8 >"⟩],
    "S< Vec< u8 > >"⟩

theorem vecStruct_interchangeable :
    (indexed [] [moduleFile]).extra = [] ∧
      (indexed [] [moduleFile]).answer (.sameType vecStruct spacedVecStruct) = true ∧
      Interchangeable (indexed [] [moduleFile]) vecStruct spacedVecStruct ∧
      (indexed [] [moduleFile]).answer (.implements spacedVecStruct ⟨"core::default::Default"⟩) =
        false ∧
      (canDerive (indexed [] [moduleFile]).oracle spacedVecStruct
        ⟨"core::default::Default"⟩).result = .ok (some ⟨12, 36, 0⟩) := by
  have noExtra : (indexed [] [moduleFile]).extra = [] := rfl
  have same : (indexed [] [moduleFile]).answer (.sameType vecStruct spacedVecStruct) = true := by
    decide
  have interchangeable := (sameType_congruence (indexed [] [moduleFile])).2 noExtra _ _ same
  refine ⟨noExtra, same, interchangeable, ?_, ?_⟩
  · rw [← interchangeable.implements]
    decide +kernel
  · rw [← interchangeable.derivable]
    decide +kernel

end CrateIndex

end RustLint
