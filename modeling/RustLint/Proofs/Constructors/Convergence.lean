import RustLint.Proofs.Constructors.Additions
import RustLint.Proofs.Constructors.Flagged
import RustLint.Proofs.Index.Names
import RustLint.Proofs.Lowering.Success

set_option autoImplicit false

namespace RustLint.NewWithoutDefault

open CrateIndex (Defines Uses typesIn traitsIn indexed bareName traitPath)
open Lowering (bind_eq_ok pure_eq_ok)
open Node (Replaced)

/-- The crates of the files and where they stand. -/
def crates (files : List Subject) : List (Crate × Option Source) :=
  files.map fun file => (file.crate, some file.source)

/-- The index of the files. -/
def indexOf (config : Config) (files : List Subject) : CrateIndex :=
  (CrateIndex.ofCrates config.defaultTypes (crates files)).value

/-- The methods that the rule reports, file by file. -/
def flaggedIn (config : Config) (files : List Subject) : List (List Candidate) :=
  files.map (flagged (indexOf config files).oracle config.defaultTrait)

/-- The finding is one of the rule in the files, for the method in the `impl`, and the trait is the
one that the type lacks. -/
structure Reported (config : Config) (files : List Subject) (subject : Subject) (impl : ImplBlock)
    (c : Candidate) (trait : TraitId) (finding : Finding) : Prop where
  file : subject ∈ files
  method : (impl, c) ∈ candidates subject.crate
  found : outcome (indexOf config files).oracle config.defaultTrait subject impl c =
    .flagged finding
  trait : (indexOf config files).resolveTrait? config.defaultTrait = some trait

/-- The second list of files is the first with the edit of the finding made in one file: where the
trait can be derived, the definition of the type derives it, else an `impl` of the trait stands
right behind that of the method. -/
inductive Mended (subject : Subject) (impl : ImplBlock) (c : Candidate) (trait : TraitId)
    (finding : Finding) : List Subject → List Subject → Prop
  | derived (front back : List Subject) (file file' : Subject) (d : TypeDef)
      (lint : finding.lint = Lint.newWithoutDefaultDerive.name) (named : d.name = c.selfTy.name)
      (edit : Replaced [.item (.typeDef d)] [.item (.typeDef (alsoDeriving d trait.name))]
        (.crate file.crate) (.crate file'.crate)) :
      Mended subject impl c trait finding (front ++ file :: back) (front ++ file' :: back)
  | implemented (front back : List Subject) (subject' : Subject) (added : ImplBlock)
      (old new : List Node) (lint : finding.lint = Lint.newWithoutDefault.name)
      (gives : Gives added trait.name c.selfTy) (behind : Behind impl added old new)
      (edit : Replaced old new (.crate subject.crate) (.crate subject'.crate)) :
      Mended subject impl c trait finding (front ++ subject :: back) (front ++ subject' :: back)

theorem flaggedIn_eq (config : Config) (files : List Subject) : flaggedIn config files =
    files.map fun file => ((candidates file.crate).map Prod.snd).filter
      (flags (indexOf config files) config.defaultTrait) :=
  List.map_congr_left fun file _ =>
    flagged_eq_filter (indexOf config files) config.defaultTrait file

/-! What an index says when one crate says more. -/

/-- The only member of the list, if it has just one. -/
def single? {α : Type} : List α → Option α
  | [a] => some a
  | _ => none

theorem single?_map {α β : Type} (f : α → β) (as : List α) :
    single? (as.map f) = (single? as).map f := by
  match as with
  | [] | [_] | _ :: _ :: _ => rfl

theorem unique?_eq (index : CrateIndex) (name : String) :
    index.unique? name = single? (index.definitionsOf name) := by
  rw [CrateIndex.unique?]
  match index.definitionsOf name with
  | [] | [_] | _ :: _ :: _ => rfl

/-- Whether a type is exported can be told without the traits that definitions derive. -/
theorem isExported_eq (index : CrateIndex) (ty : Ty) : index.isExported ty =
    (decide (ty.kind = .path) &&
      (single? ((index.types.map face).filter (·.name == ty.name))).any
        fun d => d.vis == .everywhere && d.exported) := by
  rw [List.filter_map, single?_map, Option.any_map, CrateIndex.isExported, CrateIndex.definitionOf?,
    unique?_eq]
  by_cases path : ty.kind = .path
  · rw [if_pos path, decide_eq_true path, Bool.true_and]
    rfl
  · rw [if_neg path, decide_eq_false path, Bool.false_and]
    rfl

theorem exists_crates {files : List Subject} (P : Crate → Prop) :
    (∃ g ∈ crates files, P g.1) ↔ ∃ file ∈ files, P file.crate := by
  simp [crates]

section

variable {trait name : String} {file file' : Subject}
  (adds : Adds trait name file.crate file'.crate) (config : Config) (front back : List Subject)

include adds

theorem faces_indexOf_of_adds :
    (indexOf config (front ++ file' :: back)).types.map face =
      (indexOf config (front ++ file :: back)).types.map face := by
  have faces (files : List Subject) : (indexOf config files).types.map face =
      files.flatMap fun file => (typesIn file.crate).map face := by
    have types := CrateIndex.types_indexed config.defaultTypes (crates files)
    rw [indexOf, ← indexed, types, crates, List.flatMap_map, List.map_flatMap]
  simp only [faces, List.flatMap_append, List.flatMap_cons, adds.types]

theorem traits_indexOf_of_adds : (indexOf config (front ++ file' :: back)).traits =
    (indexOf config (front ++ file :: back)).traits := by
  have traits (files : List Subject) :
      (indexOf config files).traits = files.flatMap fun file => traitsIn file.crate := by
    have all := CrateIndex.traits_indexed config.defaultTypes (crates files)
    rw [indexOf, ← indexed, all, crates, List.flatMap_map]
  simp only [traits, List.flatMap_append, List.flatMap_cons, adds.traits]

/-- The index of the files has one entry more. -/
theorem mem_impls_of_adds
    (noPrelude : ∀ g ∈ front ++ file :: back, ∀ x, Defines g.crate x →
      StdLibrary.preludeTrait? x = none) (p m : String) :
    (p, m) ∈ (indexOf config (front ++ file' :: back)).impls ↔
      (p, m) ∈ (indexOf config (front ++ file :: back)).impls ∨
        (traitPath [] (bareName trait) = p ∧ m = name) := by
  have noPrelude' : ∀ g ∈ front ++ file' :: back, ∀ x, Defines g.crate x →
      StdLibrary.preludeTrait? x = none := by
    intro g listed x defines
    simp only [List.mem_append, List.mem_cons] at listed
    rcases listed with inFront | rfl | inBack
    · exact noPrelude g (by simp [inFront]) x defines
    · rw [Defines, adds.traits] at defines
      exact noPrelude file (by simp) x defines
    · exact noPrelude g (by simp [inBack]) x defines
  have entries (files : List Subject) (noPrelude : ∀ g ∈ files, ∀ x, Defines g.crate x →
      StdLibrary.preludeTrait? x = none) : (p, m) ∈ (indexOf config files).impls ↔
      ∃ x, traitPath [] x = p ∧ ∃ g ∈ files, Uses g.crate x m := by
    have settled : ∀ g ∈ crates files, ∀ x, Defines g.1 x → StdLibrary.preludeTrait? x = none := by
      intro g listed
      obtain ⟨file, inFiles, rfl⟩ := List.mem_map.mp listed
      exact noPrelude file inFiles
    have listed := CrateIndex.mem_impls_of_noPrelude config.defaultTypes (crates files) settled p m
    apply listed.trans
    exact exists_congr fun x => and_congr_right fun _ => exists_crates (Uses · x m)
  have uses (x : String) : (∃ g ∈ front ++ file' :: back, Uses g.crate x m) ↔
      (∃ g ∈ front ++ file :: back, Uses g.crate x m) ∨ (x = bareName trait ∧ m = name) := by
    simp only [List.mem_append, List.mem_cons, or_and_right, exists_or, exists_eq_left, adds.uses]
    rw [or_right_comm]
    simp only [or_assoc]
  rw [entries _ noPrelude, entries _ noPrelude']
  simp only [uses, and_or_left, exists_or]
  refine or_congr_right ⟨?_, ?_⟩
  · rintro ⟨x, path, bare, self⟩
    rw [← bare]
    exact ⟨path, self⟩
  · rintro ⟨path, self⟩
    exact ⟨bareName trait, path, rfl, self⟩

/-- The rule reports what it reported but for the methods of the type of the name, if the trait is
the one that it asks for. -/
theorem flags_of_adds (noPrelude : ∀ g ∈ front ++ file :: back, ∀ x, Defines g.crate x →
      StdLibrary.preludeTrait? x = none) (t : TraitId)
    (resolved : (indexOf config (front ++ file :: back)).resolveTrait? config.defaultTrait = some t)
    (meant : traitPath [] (bareName trait) = t.path) (c : Candidate) :
    flags (indexOf config (front ++ file' :: back)) config.defaultTrait c =
      (flags (indexOf config (front ++ file :: back)) config.defaultTrait c &&
        c.selfTy.name != name) := by
  have exported : (indexOf config (front ++ file' :: back)).isExported c.selfTy =
      (indexOf config (front ++ file :: back)).isExported c.selfTy := by
    rw [isExported_eq, isExported_eq, faces_indexOf_of_adds adds config front back]
  have resolved' : (indexOf config (front ++ file' :: back)).resolveTrait? config.defaultTrait =
      some t := by
    rw [CrateIndex.resolveTrait?_congr _ _ (traits_indexOf_of_adds adds config front back), resolved]
  have entries : (indexOf config (front ++ file' :: back)).impls.contains (t.path, c.selfTy.name) =
      ((indexOf config (front ++ file :: back)).impls.contains (t.path, c.selfTy.name) ||
        c.selfTy.name == name) := by
    rw [Bool.eq_iff_iff, Bool.or_eq_true, List.contains_iff_mem, List.contains_iff_mem, beq_iff_eq,
      mem_impls_of_adds adds config front back noPrelude]
    simp only [meant, true_and]
  simp only [flags, exported, resolved, resolved', entries, Option.any_some, Bool.not_or, bne,
    Bool.and_assoc]

end

/-- The trait of a configuration that was read is written as a path of identifiers. -/
theorem isTraitPath_of_ofTable (place : String) (entries : Setting.Entries) (config : Config)
    (loaded : Config.ofTable place entries = .ok config) :
    Config.isTraitPath config.defaultTrait = true := by
  have ofTrait (key : String) (value : Setting) (path : String)
      (read : Config.traitOf key value = .ok path) : Config.isTraitPath path = true := by
    unfold Config.traitOf at read
    split at read
    · dsimp only at read
      split at read
      · next loadable =>
        cases read
        exact loadable
      · cases read
    · cases read
  simp only [Config.ofTable, bind_eq_ok, pure_eq_ok] at loaded
  obtain ⟨allow, -, trait, read, defaultTypes, -, ignorePaths, -, rfl⟩ := loaded
  exact ofTrait _ _ trait read

theorem adds_of_mended (subject : Subject) (impl : ImplBlock) (c : Candidate) (trait : TraitId)
    (finding : Finding) (files files' : List Subject)
    (mended : Mended subject impl c trait finding files files') :
    ∃ front file file' back, files = front ++ file :: back ∧ files' = front ++ file' :: back ∧
      Adds trait.name c.selfTy.name file.crate file'.crate := by
  cases mended with
  | derived front back file file' d lint named edit =>
    refine ⟨front, file, file', back, rfl, rfl, ?_⟩
    rw [← named]
    exact adds_of_derive file.crate file'.crate d trait.name edit
  | implemented front back subject' added old new lint gives behind edit =>
    exact ⟨front, subject, subject', back, rfl, rfl,
      adds_of_impl subject.crate subject'.crate gives behind edit⟩

/-- Where no file defines a trait with the name of a prelude trait, making the edit of a finding
removes the findings for that type, and no others, and brings no new ones. -/
theorem flaggedIn_of_mended (place : String) (entries : Setting.Entries) (config : Config)
    (loaded : Config.ofTable place entries = .ok config) (files files' : List Subject)
    (noPrelude : ∀ file ∈ files, ∀ x, Defines file.crate x → StdLibrary.preludeTrait? x = none)
    (subject : Subject) (impl : ImplBlock) (c : Candidate) (trait : TraitId) (finding : Finding)
    (reported : Reported config files subject impl c trait finding)
    (mended : Mended subject impl c trait finding files files') :
    flaggedIn config files' = (flaggedIn config files).map fun methods =>
      methods.filter fun method => method.selfTy.name != c.selfTy.name := by
  obtain ⟨front, file, file', back, rfl, rfl, adds⟩ :=
    adds_of_mended subject impl c trait finding files files' mended
  have noPreludeTraits : ∀ x ∈ (indexOf config (front ++ file :: back)).traits,
      StdLibrary.preludeTrait? x = none := by
    intro x listed
    obtain ⟨g, inCrates, defines⟩ := (CrateIndex.mem_traits_indexed _ _ x).mp listed
    obtain ⟨h, inFiles, rfl⟩ := List.mem_map.mp inCrates
    exact noPrelude h inFiles x defines
  have meant : traitPath [] (bareName trait.name) = trait.path :=
    CrateIndex.traitPath_of_resolved _ config.defaultTrait trait
      (isTraitPath_of_ofTable place entries config loaded) noPreludeTraits reported.trait
  have flags' : flags (indexOf config (front ++ file' :: back)) config.defaultTrait =
      fun method => method.selfTy.name != c.selfTy.name &&
        flags (indexOf config (front ++ file :: back)) config.defaultTrait method := by
    funext method
    rw [flags_of_adds adds config front back noPrelude trait reported.trait meant, Bool.and_comm]
  simp only [flaggedIn_eq, flags', List.map_append, List.map_cons, List.map_map,
    Function.comp_def, List.filter_filter, adds.candidates]

/-! A struct, for which the trait can be derived, and an enum, each with a constructor. -/

def sampleType (name : String) : Ty := ⟨.path, name, ⟨0, 0, 0⟩, [], name⟩

def sampleDef (name : String) (form : TypeForm) : TypeDef :=
  ⟨form, name, {}, [], .everywhere, ⟨0, 0, 0⟩, true⟩

def sampleNew : FnItem :=
  ⟨⟨"new", 0, false, false, {}, some ⟨.self, "Self", ⟨0, 0, 0⟩, [], "Self"⟩⟩, .everywhere, none,
    ⟨0, 0, 0⟩, true⟩

/-- The `impl` of the trait, if one is given, with one function. -/
def sampleImpl (name : String) (trait : Option Ty) (method : FnItem) : ImplBlock :=
  ⟨{}, trait, sampleType name, [.fn method], ⟨0, 0, 0⟩, true⟩

def sampleFile (items : List Item) : Subject := ⟨"lib.rs", ⟨"", none⟩, ⟨items, ⟨0, 0, 0⟩⟩⟩

def sampleStruct : TypeDef := sampleDef "S" (.struct .unit [])

def sampleEnum : TypeDef := sampleDef "E" .enum

def structImpl : ImplBlock := sampleImpl "S" none sampleNew

def enumImpl : ImplBlock := sampleImpl "E" none sampleNew

def sampleSubject : Subject :=
  sampleFile [.typeDef sampleStruct, .impl structImpl, .typeDef sampleEnum, .impl enumImpl]

/-- The file in which the struct derives the trait. -/
def derivedSubject : Subject :=
  sampleFile [.typeDef (alsoDeriving sampleStruct "Default"), .impl structImpl, .typeDef sampleEnum,
    .impl enumImpl]

/-- The `impl` that calls the constructor, as far as the rules look at it. -/
def addedImpl : ImplBlock :=
  sampleImpl "E" (some (sampleType "Default"))
    { sampleNew with sig := { sampleNew.sig with name := "default" } }

/-- The file in which the trait is implemented for the enum. -/
def implementedSubject : Subject :=
  sampleFile [.typeDef sampleStruct, .impl structImpl, .typeDef sampleEnum, .impl enumImpl,
    .impl addedImpl]

/-- The finding about the constructor in the `impl`. -/
def sampleFinding (impl : ImplBlock) : Finding :=
  ((outcome (indexOf {} [sampleSubject]).oracle StdLibrary.defaultTrait sampleSubject impl
    (.ofMethod sampleNew impl)).finding?).getD default

theorem reported_of_finding? (impl : ImplBlock)
    (method : (impl, .ofMethod sampleNew impl) ∈ candidates sampleSubject.crate)
    (found : (outcome (indexOf {} [sampleSubject]).oracle StdLibrary.defaultTrait sampleSubject impl
      (.ofMethod sampleNew impl)).finding?.isSome = true) :
    Reported {} [sampleSubject] sampleSubject impl (.ofMethod sampleNew impl)
      ⟨StdLibrary.defaultTrait⟩ (sampleFinding impl) where
  file := List.mem_cons_self
  method := method
  trait := by decide +kernel
  found := by
    have known (o : Outcome) (some : o.finding?.isSome = true) :
        o = .flagged (o.finding?.getD default) := by
      cases o <;> first | rfl | cases some
    exact known _ found

theorem candidates_sampleSubject : candidates sampleSubject.crate =
    [(structImpl, .ofMethod sampleNew structImpl), (enumImpl, .ofMethod sampleNew enumImpl)] := by
  rw [candidates, Node.items, Node.walk_eq_preorder]
  rfl

theorem gives_addedImpl : Gives addedImpl "Default" enumImpl.selfTy where
  trait := ⟨sampleType "Default", rfl, rfl⟩
  selfTy := rfl
  plain := by
    intro child listed i inside
    cases List.mem_singleton.mp listed
    rw [Node.items, Node.walk_eq_preorder] at inside
    cases List.mem_singleton.mp inside
    exact ⟨rfl, rfl, rfl⟩

theorem sample_mended :
    (flaggedIn {} [derivedSubject] = (flaggedIn {} [sampleSubject]).map fun methods =>
      methods.filter fun method => method.selfTy.name != "S") ∧
    flaggedIn {} [implementedSubject] = (flaggedIn {} [sampleSubject]).map fun methods =>
      methods.filter fun method => method.selfTy.name != "E" := by
  have loaded : Config.ofTable "" [] = .ok {} := by decide +kernel
  have noPrelude : ∀ file ∈ [sampleSubject], ∀ x, Defines file.crate x →
      StdLibrary.preludeTrait? x = none := by
    intro file listed x defines
    have noTraits : traitsIn sampleSubject.crate = [] := by decide +kernel
    rw [List.mem_singleton.mp listed, Defines, noTraits] at defines
    cases defines
  have name : (TraitId.mk StdLibrary.defaultTrait).name = "Default" := by decide +kernel
  constructor
  · refine flaggedIn_of_mended "" [] {} loaded [sampleSubject] [derivedSubject] noPrelude
      sampleSubject structImpl (.ofMethod sampleNew structImpl) ⟨StdLibrary.defaultTrait⟩
      (sampleFinding structImpl) ?_ ?_
    · apply reported_of_finding? structImpl
      · rw [candidates_sampleSubject]
        exact List.mem_cons_self
      · decide +kernel
    · refine .derived [] [] sampleSubject derivedSubject sampleStruct (by decide +kernel) rfl ?_
      rw [name]
      exact .here _ _ rfl ⟨[], _, rfl, rfl⟩
  · refine flaggedIn_of_mended "" [] {} loaded [sampleSubject] [implementedSubject] noPrelude
      sampleSubject enumImpl (.ofMethod sampleNew enumImpl) ⟨StdLibrary.defaultTrait⟩
      (sampleFinding enumImpl) ?_ ?_
    · apply reported_of_finding? enumImpl
      · rw [candidates_sampleSubject]
        exact List.mem_cons_of_mem _ List.mem_cons_self
      · decide +kernel
    · refine .implemented [] [] implementedSubject addedImpl _ _ (by decide +kernel) ?_ .item ?_
      · rw [name]
        exact gives_addedImpl
      · refine .here _ _ rfl ⟨[.item (.typeDef sampleStruct), .item (.impl structImpl),
          .item (.typeDef sampleEnum)], [], rfl, rfl⟩

end RustLint.NewWithoutDefault
