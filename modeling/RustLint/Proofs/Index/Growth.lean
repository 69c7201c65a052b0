import RustLint.Proofs.Index.History
import RustLint.Proofs.Index.Resolution

set_option autoImplicit false

namespace RustLint

/-- The name stands in the type as that of a path, at any depth. -/
inductive Ty.Mentions (name : String) : Ty → Prop
  | here (ty : Ty) (path : ty.kind = .path) (named : ty.name = name) : Mentions name ty
  | inside (ty arg : Ty) (part : arg ∈ ty.args) (deeper : Mentions name arg) : Mentions name ty

namespace CrateIndex

open Ty (Mentions)

/-- The crate defines a struct, an enum or a union of the name, anywhere in it. -/
def DefinesType (c : Crate) (name : String) : Prop :=
  ∃ d : TypeDef, Within c (.typeDef d) ∧ d.name = name

variable (index : CrateIndex) (c : Crate) (home : Option Source) (trait : TraitId)

theorem definitionsOf_add (name : String) (undefined : ¬DefinesType c name) :
    (index.add c home).definitionsOf name = index.definitionsOf name := by
  have none : (typesIn c).filter (·.name == name) = [] := by
    rw [List.filter_eq_nil_iff]
    intro d listed same
    exact undefined ⟨d, (mem_typesIn_iff c d).mp listed, beq_iff_eq.mp same⟩
  change (index.types ++ typesIn c).filter _ = _
  rw [List.filter_append, none, List.append_nil, definitionsOf]

theorem contains_impls_add (entry : String × String)
    (listed : index.impls.contains entry = true) :
    (index.add c home).impls.contains entry = true := by
  rw [List.contains_iff_mem] at listed ⊢
  exact impls_subset_add index c home listed

/-- What a path type implements it still implements where its name has the same definitions and no
fewer entries, when the answers about its arguments stay. -/
theorem implementsPath_mono (i j : CrateIndex) (path name text text' : String)
    (hasArgs before after : Bool) (definitions : j.definitionsOf name = i.definitionsOf name)
    (entry : i.impls.contains (path, name) = true → j.impls.contains (path, name) = true)
    (extra : j.isExtra name text' = i.isExtra name text) (stays : before = true → after = true)
    (holds : i.implementsPath path name text hasArgs before = true) :
    j.implementsPath path name text' hasArgs after = true := by
  unfold implementsPath at holds ⊢
  rw [definitions]
  cases found : i.definitionsOf name with
  | nil =>
    simp only [found, extra, Bool.or_eq_true, Bool.and_eq_true] at holds ⊢
    rcases holds with listed | ⟨isDefault, known | ⟨wrapper, answers⟩⟩
    · exact .inl (entry listed)
    · exact .inr ⟨isDefault, .inl known⟩
    · exact .inr ⟨isDefault, .inr ⟨wrapper, stays answers⟩⟩
  | cons d rest =>
    simp only [found] at holds
    cases rest with
    | nil => exact entry holds
    | cons => cases holds

/-- Answers that stay, one by one. -/
abbrev Stay (before after : List Bool) : Prop :=
  List.Forall₂ (fun b a : Bool => b = true → a = true) before after

theorem Stay.all {before after : List Bool} (stay : Stay before after)
    (holds : before.all id = true) : after.all id = true := by
  induction stay with
  | nil => rfl
  | cons first _ ih =>
    rw [List.all_cons, Bool.and_eq_true] at holds ⊢
    exact ⟨first holds.1, ih holds.2⟩

theorem Stay.head {before after : List Bool} (stay : Stay before after)
    (holds : before.head?.getD false = true) : after.head?.getD false = true := by
  cases stay with
  | nil => cases holds
  | cons first _ => exact first holds

mutual

/-- A trait that the type implements stays implemented when a crate is added that defines none of
the names in the type. -/
theorem implements_add (ty : Ty) (undefined : ∀ name, Mentions name ty → ¬DefinesType c name)
    (holds : index.implements trait ty = true) :
    (index.add c home).implements trait ty = true := by
  match ty with
  | ⟨kind, name, span, args, text⟩ =>
    have stay := implementsEach_add args fun arg part n mentioned =>
      undefined n (.inside _ arg part mentioned)
    cases kind with
    | path =>
      exact implementsPath_mono index (index.add c home) trait.path name text text (!args.isEmpty)
        _ _ (definitionsOf_add index c home name (undefined name (.here _ rfl rfl)))
        (contains_impls_add index c home (trait.path, name)) rfl stay.all holds
    | tuple =>
      simp only [implements, Bool.and_eq_true] at holds ⊢
      exact ⟨holds.1, stay.all holds.2⟩
    | array =>
      simp only [implements, Bool.and_eq_true] at holds ⊢
      exact ⟨holds.1, stay.head holds.2⟩
    -- What is behind a reference is looked at without the index.
    | ref => exact holds
    | self | slice | never | other => cases holds

theorem implementsEach_add (tys : List Ty)
    (undefined : ∀ ty ∈ tys, ∀ name, Mentions name ty → ¬DefinesType c name) :
    Stay (index.implementsEach trait tys) ((index.add c home).implementsEach trait tys) := by
  match tys with
  | [] => exact .nil
  | ty :: tys =>
    refine .cons (implements_add ty (undefined ty List.mem_cons_self)) ?_
    exact implementsEach_add tys fun other later => undefined other (List.mem_cons_of_mem _ later)

end

/-- So it does when several crates are added. -/
theorem implements_foldl_add (later : List (Crate × Option Source)) (ty : Ty)
    (undefined : ∀ g ∈ later, ∀ name, Mentions name ty → ¬DefinesType g.1 name)
    (holds : index.implements trait ty = true) :
    (later.foldl (fun index g => index.add g.1 g.2) index).implements trait ty = true := by
  induction later generalizing index with
  | nil => exact holds
  | cons g later ih =>
    apply ih
    · intro other listed
      exact undefined other (List.mem_cons_of_mem _ listed)
    · exact implements_add index g.1 g.2 trait ty (undefined g List.mem_cons_self) holds

/-- For every index, whatever crates led to it, every type and every trait: a further crate that
defines no struct, enum or union of a name in the type never takes the trait from the type, and
neither do any number of such crates. -/
theorem implements_of_undefined (index : CrateIndex) (ty : Ty) (trait : TraitId)
    (holds : index.implements trait ty = true) :
    (∀ (c : Crate) (home : Option Source), (∀ name, Mentions name ty → ¬DefinesType c name) →
        (index.add c home).implements trait ty = true) ∧
      ∀ later : List (Crate × Option Source),
        (∀ g ∈ later, ∀ name, Mentions name ty → ¬DefinesType g.1 name) →
        (later.foldl (fun index g => index.add g.1 g.2) index).implements trait ty = true :=
  ⟨fun c home undefined => implements_add index c home trait ty undefined holds,
    fun later undefined => implements_foldl_add index trait later ty undefined holds⟩

/-! The type `(S, Vec<u8>)`, beside `#[derive(Default)] struct S;`. -/

def derivingCrate : Crate :=
  ⟨[.typeDef { sampleUnit "S" with derives := ["Default"] }], ⟨0, 0, 0⟩⟩

def vecOfBytes : Ty := ⟨.path, "Vec", ⟨0, 0, 0⟩, [bareType "u8"], "Vec<u8>"⟩

def pairType : Ty := ⟨.tuple, "", ⟨0, 0, 0⟩, [bareType "S", vecOfBytes], "(S, Vec<u8>)"⟩

theorem names_of_pairType (name : String) (mentioned : Mentions name pairType) :
    name ∈ ["S", "Vec", "u8"] := by
  have ofBare (n : String) (mentioned : Mentions name (bareType n)) : name = n := by
    cases mentioned with
    | here _ _ named => exact named.symm
    | inside _ _ part => cases part
  cases mentioned with
  | here _ path => cases path
  | inside _ arg part deeper =>
    simp only [pairType, List.mem_cons, List.not_mem_nil, or_false] at part
    rcases part with rfl | rfl
    · simp [ofBare "S" deeper]
    · cases deeper with
      | here _ _ named => simp [← named, vecOfBytes]
      | inside _ arg part deeper =>
        cases List.mem_singleton.mp part
        simp [ofBare "u8" deeper]

theorem eq_of_definesType_functionFile (name : String)
    (defines : DefinesType functionFile.1 name) : name = "E" := by
  obtain ⟨d, within, rfl⟩ := defines
  have listed := (mem_typesIn_iff _ d).mpr within
  rw [typesIn_eq_typesBelow] at listed
  cases List.mem_singleton.mp listed
  rfl

/-- A file with an `enum E` leaves the pair as it is. -/
theorem implements_pairType :
    (indexed [] [(derivingCrate, none)]).implements ⟨StdLibrary.defaultTrait⟩ pairType = true ∧
      (indexed [] [(derivingCrate, none), functionFile]).implements ⟨StdLibrary.defaultTrait⟩
        pairType = true := by
  have holds : (indexed [] [(derivingCrate, none)]).implements ⟨StdLibrary.defaultTrait⟩
      pairType = true := by decide +kernel
  refine ⟨holds, ?_⟩
  have stays := implements_of_undefined _ pairType ⟨StdLibrary.defaultTrait⟩ holds
  refine stays.1 functionFile.1 functionFile.2 fun name mentioned defines => ?_
  have named := names_of_pairType name mentioned
  rw [eq_of_definesType_functionFile name defines] at named
  revert named
  decide

/-- A file with a struct `Vec` of its own takes `Default` from it. -/
example : (indexed [] [(derivingCrate, none),
    (⟨[.typeDef (sampleUnit "Vec")], ⟨0, 0, 0⟩⟩, none)]).implements
      ⟨StdLibrary.defaultTrait⟩ pairType = false := by decide +kernel

end CrateIndex

end RustLint
