import RustLint.Proofs.Constructors.DeriveEdits
import RustLint.Proofs.Constructors.Flagged
import RustLint.Proofs.Constructors.Questions
import RustLint.Proofs.Index.FileOrder
import Mathlib.Data.List.Forall2

set_option autoImplicit false

namespace RustLint

namespace CrateIndex

/-- The same index without the files that the definitions stand in. -/
def unplaced (index : CrateIndex) : CrateIndex :=
  { index with homes := index.homes.map fun home => (home.1, none) }

theorem unplaced_add (index : CrateIndex) (c : Crate) (home : Option Source) :
    (index.add c home).unplaced = index.unplaced.add c := by
  simp only [unplaced, add, List.map_append, List.map_map, Function.comp_def]

/-- Crates that are added without their files give the index without the files. -/
theorem indexed_unplaced (extra : List String) (files : List (Crate × Option Source)) :
    indexed extra (files.map fun file => (file.1, none)) = (indexed extra files).unplaced := by
  induction files using List.reverseRecOn with
  | nil => rfl
  | append_singleton files file ih =>
    rw [List.map_append, List.map_singleton, indexed_append, ih, indexed_append, unplaced_add]

variable (index : CrateIndex)

theorem homeOf?_unplaced (ty : Ty) : index.unplaced.homeOf? ty = none := by
  have homes : index.unplaced.homesOf ty.name = (index.homesOf ty.name).map fun _ => none := by
    simp only [homesOf, unplaced, List.filter_map, List.map_map, Function.comp_def]
  rw [homeOf?, homes, List.head?_map]
  split
  · cases (index.homesOf ty.name).head? <;> rfl
  · rfl

theorem agree_unplaced : Agree index.unplaced index where
  counts := fun _ => rfl
  extra := rfl
  entries := fun _ _ _ => .inl Iff.rfl

/-- Only the question about the file of a definition is answered otherwise. -/
theorem answer_unplaced (q : Query) (other : ∀ ty, q ≠ .definitionSource ty) :
    index.unplaced.answer q = index.answer q := by
  cases q with
  | definitionSource ty => exact absurd rfl (other ty)
  | implements ty trait => exact implements_of_agree _ _ (agree_unplaced index) trait ty
  | sameType | definitionSpan | isExported | resolveTrait | fields => rfl

theorem oracle_unplaced (q : Query) (other : ∀ ty, q ≠ .definitionSource ty) :
    index.unplaced.oracle q = index.oracle q :=
  congrArg Except.ok (answer_unplaced index q other)

end CrateIndex

namespace NewWithoutDefault

/-- On these grounds a constructor is reported: a derive where one is possible, else an `impl`. -/
theorem inquire_of_grounds (oracle : TypeOracle) (defaultTrait : String) (subject : Subject)
    (impl : ImplBlock) (c : Candidate) (trait : TraitId) (definition : Option Span)
    (grounds : Grounds oracle defaultTrait c trait)
    (derivable : (canDerive oracle c.selfTy trait).result = .ok definition) :
    (inquire oracle defaultTrait subject impl c).result =
      (match definition with
        | some definition => do
          return .flagged (← deriveFinding oracle subject c trait definition)
        | none => pure (.flagged (manualFinding subject impl c trait)) : Inquiry Outcome).result := by
  obtain ⟨⟨ret, returned, same⟩, ⟨span, defined⟩, exported, resolved, missing⟩ := grounds
  have ask {β : Type} (q : Query) (answer : q.Answer) (answered : oracle q = .ok answer)
      (next : q.Answer → Inquiry β) : (Inquiry.ask oracle q >>= next).result =
        (next answer).result := by
    rw [Inquiry.bind_of_ok (show (Inquiry.ask oracle q).result = .ok answer from answered)]
  rw [inquire, returned]
  dsimp only
  rw [ask _ true same, if_neg (by decide), ask _ (some span) defined, if_neg (by simp),
    ask _ true exported, if_neg (by decide), ask _ (some trait) resolved]
  dsimp only
  rw [ask _ false missing, if_neg (by decide), Inquiry.bind_of_ok derivable]
  cases definition <;> rfl

/-- The file that the edit of a definition goes to, as far as the index knows it. -/
def homeFor (index : CrateIndex) (subject : Subject) (c : Candidate) (definition : Span) :
    Option Source :=
  if definesStruct subject.crate c.selfTy.name definition then some subject.source
  else index.homeOf? c.selfTy

/-- Why an index has a constructor reported, and with what. -/
inductive Yielded (index : CrateIndex) (defaultTrait : String) (subject : Subject)
    (impl : ImplBlock) (c : Candidate) : Finding → Prop
  | derive (trait : TraitId) (definition : Span) (isConstructor : c.skipReason? = none)
      (grounds : Grounds index.oracle defaultTrait c trait)
      (derivable : (canDerive index.oracle c.selfTy trait).result = .ok (some definition)) :
      Yielded index defaultTrait subject impl c
        (deriveFindingIn subject c trait definition (homeFor index subject c definition))
  | manual (trait : TraitId) (isConstructor : c.skipReason? = none)
      (grounds : Grounds index.oracle defaultTrait c trait)
      (underivable : (canDerive index.oracle c.selfTy trait).result = .ok none) :
      Yielded index defaultTrait subject impl c (manualFinding subject impl c trait)

variable (index : CrateIndex) (defaultTrait : String) (subject : Subject) (impl : ImplBlock)
  (c : Candidate)

theorem result_deriveFinding (trait : TraitId) (definition : Span) :
    (deriveFinding index.oracle subject c trait definition).result =
      .ok (deriveFindingIn subject c trait definition (homeFor index subject c definition)) := by
  rw [deriveFinding, homeFor]
  split
  · rfl
  · rfl

theorem outcome_eq_flagged_iff (finding : Finding) :
    outcome index.oracle defaultTrait subject impl c = .flagged finding ↔
      Yielded index defaultTrait subject impl c finding := by
  constructor
  · intro found
    have isConstructor : c.skipReason? = none := by
      cases skips : c.skipReason? with
      | none => rfl
      | some reason =>
        rw [outcome, judge, skips] at found
        cases found
    obtain ⟨trait, grounds, ⟨definition, derivable, made⟩ | ⟨underivable, rfl⟩⟩ :=
      grounds_of_inquire _ _ _ impl c finding (inquire_of_outcome _ _ _ impl c finding found)
    · rw [result_deriveFinding] at made
      cases made
      exact .derive trait definition isConstructor grounds derivable
    · exact .manual trait isConstructor grounds underivable
  · rintro (⟨trait, definition, isConstructor, grounds, derivable⟩ |
      ⟨trait, isConstructor, grounds, underivable⟩)
    · have result := inquire_of_grounds _ _ subject impl c trait _ grounds derivable
      dsimp only at result
      rw [Inquiry.bind_of_ok (result_deriveFinding index subject c trait definition)] at result
      rw [outcome, judge, isConstructor]
      simp only [result, Inquiry.result_pure]
    · have result := inquire_of_grounds _ _ subject impl c trait _ grounds underivable
      rw [outcome, judge, isConstructor]
      simp only [result, Inquiry.result_pure]

/-! The same with an index that knows no files. -/

/-- What is asked before a constructor is reported has nothing to do with files. -/
theorem Grounds.of_same {oracle other : TypeOracle} {defaultTrait : String} {c : Candidate}
    {trait : TraitId} (grounds : Grounds oracle defaultTrait c trait)
    (same : ∀ q, (∀ ty, q ≠ .definitionSource ty) → other q = oracle q) :
    Grounds other defaultTrait c trait := by
  obtain ⟨⟨ret, returned, isSame⟩, ⟨span, defined⟩, exported, resolved, missing⟩ := grounds
  refine ⟨⟨ret, returned, ?_⟩, ⟨span, ?_⟩, ?_, ?_, ?_⟩
  · rwa [same _ (by simp)]
  · rwa [same _ (by simp)]
  · rwa [same _ (by simp)]
  · rwa [same _ (by simp)]
  · rwa [same _ (by simp)]

theorem grounds_unplaced (trait : TraitId) :
    Grounds index.unplaced.oracle defaultTrait c trait ↔
      Grounds index.oracle defaultTrait c trait := by
  have same := CrateIndex.oracle_unplaced index
  exact ⟨fun grounds => grounds.of_same fun q other => (same q other).symm,
    fun grounds => grounds.of_same same⟩

theorem canDerive_unplaced (ty : Ty) (trait : TraitId) :
    (canDerive index.unplaced.oracle ty trait).result =
      (canDerive index.oracle ty trait).result := by
  have implements : index.unplaced.implements trait = index.implements trait := by
    funext ty
    exact CrateIndex.implements_of_agree _ _ (CrateIndex.agree_unplaced index) trait ty
  rw [result_canDerive, result_canDerive, implements]
  rfl

theorem homeFor_unplaced (definition : Span) :
    homeFor index.unplaced subject c definition =
      if definesStruct subject.crate c.selfTy.name definition then some subject.source
      else none := by
  rw [homeFor, CrateIndex.homeOf?_unplaced]

theorem finding?_eq_none
    (unreported : ¬∃ finding, Yielded index defaultTrait subject impl c finding) :
    (outcome index.oracle defaultTrait subject impl c).finding? = none := by
  cases judged : outcome index.oracle defaultTrait subject impl c with
  | flagged finding =>
    exact absurd ⟨finding, (outcome_eq_flagged_iff index _ _ impl c finding).mp judged⟩ unreported
  | skipped | failed | hidden | quiet => rfl

theorem value_check_eq (oracle : TypeOracle) :
    (check oracle defaultTrait subject).value = (candidates subject.crate).filterMap fun entry =>
      (outcome oracle defaultTrait subject entry.1 entry.2).finding? := by
  rw [check, Logged.value_bind, Logged.value_each, Logged.value_pure, List.filterMap_map]
  rfl

end NewWithoutDefault

namespace Detection

open NewWithoutDefault (Subject Candidate candidates outcome Yielded)

variable (config : Config) (files : List RustFile)

/-- The index of the crates alone. -/
def indexOfCrates : CrateIndex :=
  CrateIndex.indexed config.defaultTypes ((crates files).map fun entry => (entry.1, none))

theorem indexOfCrates_eq : indexOfCrates config files = (indexOf config files).unplaced :=
  CrateIndex.indexed_unplaced config.defaultTypes (crates files)

/-- The finding says of a constructor in the file that the trait can be derived for its type. -/
structure SaysDerive (file : RustFile) (finding : Finding) (c : Candidate) : Prop where
  lint : finding.lint = Lint.newWithoutDefaultDerive.name
  found : ∃ crate impl, file.crate = some crate ∧ (impl, c) ∈ candidates crate ∧
    outcome (indexOf config files).oracle config.defaultTrait ⟨file.place, file.source, crate⟩ impl
      c = .flagged finding

/-- The edits of two findings in the file, of which the second comes from the crates alone. -/
inductive SameEdit (file : RustFile) (a b : Finding) : Prop
  | ofOther (lint : a.lint ≠ Lint.newWithoutDefaultDerive.name) (same : b.suggestion = a.suggestion)
  /-- The definition stands in the file of the finding. -/
  | here (c : Candidate) (about : SaysDerive config files file a c)
      (own : definitionsIn file c.selfTy.name ≠ []) (known : a.suggestion ≠ none)
      (same : b.suggestion = a.suggestion)
  /-- The only definition stands in another file. -/
  | elsewhere (c : Candidate) (about : SaysDerive config files file a c) (home : RustFile)
      (d : TypeDef) (only : OnlyDefinition files home d) (named : d.name = c.selfTy.name)
      (outside : definitionsIn file c.selfTy.name = []) (known : a.suggestion ≠ none)
      (lost : b.suggestion = none)

/-- Two findings in the file that tell the same but for an edit elsewhere. -/
structure TellSame (file : RustFile) (a b : Finding) : Prop where
  lint : b.lint = a.lint
  message : b.message = a.message
  span : b.span = a.span
  location : b.location = a.location
  edit : SameEdit config files file a b

/-! One constructor. -/

theorem definesStruct_of_mem (file : RustFile) (crate : Crate) (tree : file.crate = some crate)
    (n : String) (d : TypeDef) (listed : d ∈ definitionsIn file n)
    (isStruct : ∃ shape fields, d.form = .struct shape fields) :
    NewWithoutDefault.definesStruct crate n d.span = true := by
  simp only [definitionsIn, tree] at listed
  obtain ⟨below, named⟩ := List.mem_filter.mp listed
  rw [← CrateIndex.typesIn_eq_typesBelow] at below
  obtain ⟨i, inItems, isType⟩ := List.mem_filterMap.mp below
  obtain ⟨shape, fields, form⟩ := isStruct
  refine List.any_eq_true.mpr ⟨i, inItems, ?_⟩
  cases i with
  | typeDef e =>
    cases isType
    simp only [form, named, BEq.rfl, Bool.and_self]
  | traitDef | fn | impl | mod | other => cases isType

theorem placed_of_onlyDefinition {files : List RustFile} {home : RustFile} {d : TypeDef}
    (only : OnlyDefinition files home d) :
    CrateIndex.placed (crates files) d.name = [(d, some home.source)] := by
  obtain ⟨before, after, rfl, others⟩ := only.alone
  have none (part : List RustFile) (inside : ∀ file ∈ part, file ∈ before ++ after) :
      (part.flatMap fun file => (definitionsIn file d.name).map fun e =>
        (e, some file.source)) = [] := by
    rw [List.flatMap_eq_nil_iff]
    intro file listed
    rw [others file (inside file listed), List.map_nil]
  rw [placed_crates, List.flatMap_append, List.flatMap_cons, only.here,
    none before fun _ => List.mem_append_left _, none after fun _ => List.mem_append_right _]
  rfl

theorem definitionOf?_of_onlyDefinition {home : RustFile} {d : TypeDef}
    (only : OnlyDefinition files home d) (ty : Ty) (kind : ty.kind = .path)
    (named : d.name = ty.name) : (indexOf config files).definitionOf? ty = some d := by
  have definitions := CrateIndex.definitionsOf_indexed config.defaultTypes (crates files) ty.name
  rw [← named, placed_of_onlyDefinition only, List.map_singleton] at definitions
  rw [CrateIndex.definitionOf?, if_pos kind, CrateIndex.unique?, ← named, indexOf, definitions]

/-- What is derivable is a struct, and its only definition is known. -/
theorem exists_struct_of_canDerive (ty : Ty) (trait : TraitId) (definition : Span)
    (derivable : (NewWithoutDefault.canDerive (indexOf config files).oracle ty trait).result =
      .ok (some definition)) :
    ∃ home d, OnlyDefinition files home d ∧ d.name = ty.name ∧ d.span = definition ∧
      (indexOf config files).homeOf? ty = some home.source ∧
      ∃ shape fields, d.form = .struct shape fields := by
  have known := Except.ok.inj
    (NewWithoutDefault.definitionSpan_of_canDerive _ ty trait definition derivable)
  obtain ⟨home, d, only, named, span, answer⟩ :=
    exists_onlyDefinition config files ty definition known
  refine ⟨home, d, only, named, span, answer, ?_⟩
  have kind : ty.kind = .path := by
    by_contra other
    rw [CrateIndex.answer, CrateIndex.definitionOf?, if_neg other] at known
    cases known
  rw [NewWithoutDefault.result_canDerive] at derivable
  obtain ⟨tys, fields, -⟩ := Option.bind_eq_some_iff.mp (Except.ok.inj derivable)
  rw [CrateIndex.fieldTypes?, definitionOf?_of_onlyDefinition config files only ty kind named]
    at fields
  cases form : d.form with
  | struct shape fields => exact ⟨shape, fields, rfl⟩
  | enum | union => simp [form] at fields

section InFile

variable (file : RustFile) (crate : Crate) (tree : file.crate = some crate) (inFiles : file ∈ files)
  (impl : ImplBlock) (c : Candidate) (listed : (impl, c) ∈ candidates crate)

include tree inFiles listed

/-- What is reported with the files is reported without them, in the same words. -/
theorem exists_tellSame (a : Finding)
    (reported : Yielded (indexOf config files) config.defaultTrait
      ⟨file.place, file.source, crate⟩ impl c a) :
    ∃ b, Yielded (indexOf config files).unplaced config.defaultTrait
        ⟨file.place, file.source, crate⟩ impl c b ∧ TellSame config files file a b := by
  have found := (NewWithoutDefault.outcome_eq_flagged_iff _ _ _ impl c a).mpr reported
  cases reported with
  | manual trait isConstructor grounds underivable =>
    have others : (NewWithoutDefault.manualFinding ⟨file.place, file.source, crate⟩ impl c
        trait).lint ≠ Lint.newWithoutDefaultDerive.name :=
      show Lint.newWithoutDefault.name ≠ Lint.newWithoutDefaultDerive.name by decide
    refine ⟨_, .manual trait isConstructor ?_ ?_, ⟨rfl, rfl, rfl, rfl, .ofOther others rfl⟩⟩
    · exact (NewWithoutDefault.grounds_unplaced _ _ c trait).mpr grounds
    · rw [NewWithoutDefault.canDerive_unplaced, underivable]
  | derive trait definition isConstructor grounds derivable =>
    refine ⟨_, .derive trait definition isConstructor ?_ ?_, ⟨rfl, rfl, rfl, rfl, ?_⟩⟩
    · exact (NewWithoutDefault.grounds_unplaced _ _ c trait).mpr grounds
    · rw [NewWithoutDefault.canDerive_unplaced, derivable]
    obtain ⟨home, d, only, named, span, isHome, isStruct⟩ :=
      exists_struct_of_canDerive config files c.selfTy trait definition derivable
    have about : SaysDerive config files file _ c := ⟨rfl, crate, impl, tree, listed, found⟩
    by_cases here : NewWithoutDefault.definesStruct crate c.selfTy.name definition = true
    · have own := definitionsIn_ne_nil_of_definesStruct file crate _ _ tree here
      refine .here c about own ?_ ?_
      · simp [NewWithoutDefault.deriveFindingIn, NewWithoutDefault.homeFor, here]
      · simp only [NewWithoutDefault.deriveFindingIn, NewWithoutDefault.homeFor, if_pos here]
    · have outside : definitionsIn file c.selfTy.name = [] := by
        by_contra defines
        rw [← named] at defines here
        obtain rfl := only.eq_home inFiles defines
        have listed : d ∈ definitionsIn file d.name := by
          rw [only.here]
          exact List.mem_cons_self
        exact here (span ▸ definesStruct_of_mem file crate tree d.name d listed isStruct)
      refine .elsewhere c about home d only named outside ?_ ?_
      · simp [NewWithoutDefault.deriveFindingIn, NewWithoutDefault.homeFor, here, isHome]
      · simp only [NewWithoutDefault.deriveFindingIn, NewWithoutDefault.homeFor_unplaced,
          if_neg here, Option.map_none]

/-- Each constructor is reported in both runs or in none. -/
theorem rel_outcome :
    Option.Rel (TellSame config files file)
      (outcome (indexOf config files).oracle config.defaultTrait
        ⟨file.place, file.source, crate⟩ impl c).finding?
      (outcome (indexOfCrates config files).oracle config.defaultTrait
        ⟨file.place, file.source, crate⟩ impl c).finding? := by
  rw [indexOfCrates_eq]
  by_cases reported : ∃ a, Yielded (indexOf config files) config.defaultTrait
      ⟨file.place, file.source, crate⟩ impl c a
  · obtain ⟨a, reported⟩ := reported
    obtain ⟨b, reported', same⟩ :=
      exists_tellSame config files file crate tree inFiles impl c listed a reported
    rw [(NewWithoutDefault.outcome_eq_flagged_iff _ _ _ impl c a).mpr reported,
      (NewWithoutDefault.outcome_eq_flagged_iff _ _ _ impl c b).mpr reported']
    exact .some same
  · have unreported : ¬∃ b, Yielded (indexOf config files).unplaced config.defaultTrait
        ⟨file.place, file.source, crate⟩ impl c b := by
      rintro ⟨b, ⟨trait, definition, isConstructor, grounds, derivable⟩ |
        ⟨trait, isConstructor, grounds, underivable⟩⟩
      · rw [NewWithoutDefault.grounds_unplaced] at grounds
        rw [NewWithoutDefault.canDerive_unplaced] at derivable
        exact reported ⟨_, .derive trait definition isConstructor grounds derivable⟩
      · rw [NewWithoutDefault.grounds_unplaced] at grounds
        rw [NewWithoutDefault.canDerive_unplaced] at underivable
        exact reported ⟨_, .manual trait isConstructor grounds underivable⟩
    rw [NewWithoutDefault.finding?_eq_none _ _ _ impl c reported,
      NewWithoutDefault.finding?_eq_none _ _ _ impl c unreported]
    exact .none

end InFile

/-! All findings. -/

/-- The findings of the rule about constructors in a file with a tree. -/
theorem forall₂_check (file : RustFile) (crate : Crate) (tree : file.crate = some crate)
    (inFiles : file ∈ files) :
    List.Forall₂ (TellSame config files file)
      (NewWithoutDefault.check (indexOf config files).oracle config.defaultTrait
        ⟨file.place, file.source, crate⟩).value
      (NewWithoutDefault.check (indexOfCrates config files).oracle config.defaultTrait
        ⟨file.place, file.source, crate⟩).value := by
  rw [NewWithoutDefault.value_check_eq, NewWithoutDefault.value_check_eq]
  refine List.rel_filterMap (R := fun x y => x = y ∧ x ∈ candidates crate) ?_ ?_
  · rintro ⟨impl, c⟩ _ ⟨rfl, listed⟩
    exact rel_outcome config files file crate tree inFiles impl c listed
  · exact List.forall₂_same.mpr fun entry listed => ⟨rfl, listed⟩

theorem forall₂_inFile (file : RustFile) (inFiles : file ∈ files) :
    List.Forall₂ (TellSame config files file)
      (inFile config (builtinRules (indexOf config files).oracle config.defaultTrait) file).value
      (inFile config (builtinRules (indexOfCrates config files).oracle config.defaultTrait)
        file).value := by
  rw [value_inFile, value_inFile]
  refine List.rel_filter ?_ ?_
  · intro a b same
    show keeps config file a = true ↔ keeps config file b = true
    rw [keeps, keeps, same.lint, same.location]
  simp only [builtinRules, List.flatMap_cons, List.flatMap_nil, List.append_nil]
  refine List.rel_append ?_ ?_
  · refine List.forall₂_same.mpr fun finding found => ?_
    refine ⟨rfl, rfl, rfl, rfl, .ofOther ?_ rfl⟩
    unfold Rule.findings at found
    split at found
    · cases found
    · rw [List.mem_singleton.mp (collapsibleIf.declared _ finding found)]
      decide
  · unfold Rule.findings
    cases tree : file.crate with
    | none => exact .nil
    | some crate => exact forall₂_check config files file crate tree inFiles

/-- For every list of files and every configuration, the run that knows the files of the definitions
and the run that knows the crates alone report the same findings, one by one and in order: of the
same lint, with the same message, span and location. The edits are the same too, but for the types
that can be derived and are defined in another file: there the second run has none. -/
theorem findings_of_crates :
    List.Forall₂ (fun a b => ∃ file ∈ files, TellSame config files file a b)
      (inFiles config (indexOf config files).oracle files).value
      (inFiles config (indexOfCrates config files).oracle files).value := by
  rw [inFiles, inFiles, value_detect, value_detect]
  refine List.rel_flatMap (R := fun x y => x = y ∧ x ∈ files) ?_ ?_
  · exact List.forall₂_same.mpr fun file listed => ⟨rfl, listed⟩
  · rintro file _ ⟨rfl, listed⟩
    exact (forall₂_inFile config files file listed).imp fun a b same => ⟨file, listed, same⟩

end Detection
end RustLint
