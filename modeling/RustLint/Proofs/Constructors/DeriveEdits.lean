import RustLint.Proofs.Detection
import RustLint.Proofs.Index.Definitions

set_option autoImplicit false

namespace RustLint

namespace NewWithoutDefault

theorem exists_of_definesStruct (crate : Crate) (name : String) (span : Span)
    (defines : definesStruct crate name span = true) :
    ∃ d ∈ CrateIndex.typesIn crate, d.name = name := by
  obtain ⟨i, listed, isHere⟩ := List.any_eq_true.mp defines
  cases i with
  | typeDef d =>
    refine ⟨d, List.mem_filterMap.mpr ⟨.typeDef d, listed, rfl⟩, ?_⟩
    dsimp only at isHere
    split at isHere
    · exact beq_iff_eq.mp (Bool.and_eq_true_iff.mp isHere).1
    · cases isHere
  | traitDef | fn | impl | mod | other => cases isHere

end NewWithoutDefault

namespace CrateIndex

/-- What is said to stand somewhere is the only definition. -/
theorem Account.exists_of_span_eq_some (ty : Ty) (ds : List (TypeDef × Option Source))
    (span : Span) (said : (Account.ofPlaced ty ds).span = some span) :
    ∃ d home, ds = [(d, home)] ∧ d.span = span := by
  match ds with
  | [] => cases said
  | [(d, home)] => exact ⟨d, home, rfl, Option.some.inj said⟩
  | _ :: _ :: _ => cases said

end CrateIndex

namespace Detection

open NewWithoutDefault (candidates outcome)

/-- The definitions of the name in the file. -/
def definitionsIn (file : RustFile) (n : String) : List TypeDef :=
  match file.crate with
  | none => []
  | some crate => (CrateIndex.typesBelow crate).filter (·.name == n)

/-- Of all definitions in the files, this one is the only one of its name, and it stands in this
file. -/
structure OnlyDefinition (files : List RustFile) (home : RustFile) (d : TypeDef) : Prop where
  here : definitionsIn home d.name = [d]
  alone : ∃ before after, files = before ++ home :: after ∧
    ∀ other ∈ before ++ after, definitionsIn other d.name = []

/-- The index of the files. -/
def indexOf (config : Config) (files : List RustFile) : CrateIndex :=
  CrateIndex.indexed config.defaultTypes (crates files)

/-- The part of a list that gives the only member of the whole. -/
theorem exists_of_flatMap_eq_singleton {α β : Type} (f : α → List β) (as : List α) (b : β)
    (single : as.flatMap f = [b]) :
    ∃ before a after, as = before ++ a :: after ∧ f a = [b] ∧
      ∀ other ∈ before ++ after, f other = [] := by
  induction as with
  | nil => cases single
  | cons first rest ih =>
    rw [List.flatMap_cons] at single
    rcases List.append_eq_singleton_iff.mp single with ⟨none, later⟩ | ⟨here, none⟩
    · obtain ⟨before, a, after, rfl, here, others⟩ := ih later
      exact ⟨first :: before, a, after, rfl, here, List.forall_mem_cons.mpr ⟨none, others⟩⟩
    · exact ⟨[], first, rest, rfl, here, List.flatMap_eq_nil_iff.mp none⟩

theorem placed_crates (files : List RustFile) (n : String) :
    CrateIndex.placed (crates files) n = files.flatMap fun file =>
      (definitionsIn file n).map fun d => (d, some file.source) := by
  induction files with
  | nil => rfl
  | cons file files ih =>
    rw [List.flatMap_cons, ← ih, definitionsIn]
    cases tree : file.crate with
    | none => simp [crates, tree]
    | some crate => simp [crates, tree, CrateIndex.placed]

variable (config : Config) (files : List RustFile)

/-- The only definition of a type whose definition the index knows, and its file. -/
theorem exists_onlyDefinition (ty : Ty) (definition : Span)
    (known : (indexOf config files).answer (.definitionSpan ty) = some definition) :
    ∃ home d, OnlyDefinition files home d ∧ d.name = ty.name ∧ d.span = definition ∧
      (indexOf config files).answer (.definitionSource ty) = some home.source := by
  have isPath : ty.kind = .path := by
    by_contra other
    have nothing := CrateIndex.account_of_not_path (indexOf config files) ty other
    cases known.symm.trans (congrArg (·.span) nothing)
  have account := CrateIndex.account_indexed config.defaultTypes (crates files) ty isPath
  obtain ⟨d, source, placed, span⟩ := CrateIndex.Account.exists_of_span_eq_some ty _ definition
    ((congrArg (·.span) account).symm.trans known)
  have answer : (indexOf config files).answer (.definitionSource ty) = source := by
    refine (congrArg (·.home) account).trans ?_
    rw [placed]
    rfl
  rw [placed_crates] at placed
  obtain ⟨before, home, after, split, here, others⟩ :=
    exists_of_flatMap_eq_singleton _ files (d, source) placed
  obtain ⟨e, only, same⟩ := List.map_eq_singleton_iff.mp here
  cases same
  have name : d.name = ty.name := by
    have listed : d ∈ definitionsIn home ty.name := by
      rw [only]
      exact List.mem_cons_self
    rw [definitionsIn] at listed
    split at listed
    · cases listed
    · exact beq_iff_eq.mp (List.mem_filter.mp listed).2
  refine ⟨home, d, ⟨name ▸ only, before, after, split, ?_⟩, name, span, answer⟩
  intro other listed
  exact name ▸ List.map_eq_nil_iff.mp (others other listed)

/-- A file that defines the type is the file of its only definition. -/
theorem OnlyDefinition.eq_home {files : List RustFile} {home file : RustFile} {d : TypeDef}
    (only : OnlyDefinition files home d) (listed : file ∈ files)
    (defines : definitionsIn file d.name ≠ []) : file = home := by
  obtain ⟨before, after, rfl, others⟩ := only.alone
  rcases List.mem_append.mp listed with early | late
  · exact absurd (others file (List.mem_append_left _ early)) defines
  · rcases List.mem_cons.mp late with rfl | late
    · rfl
    · exact absurd (others file (List.mem_append_right _ late)) defines

/-- A finding is about two `if`s in one of the files or about a method in one of them. -/
theorem finding_of_check {config : Config} {files : List RustFile} {finding : Finding}
    (listed : finding ∈ (check config files).value.findings) :
    ∃ file ∈ files, ∃ crate, file.crate = some crate ∧
      ((∃ c, finding = CollapsibleIf.finding file.source c) ∨
        ∃ entry ∈ candidates crate, outcome (indexOf config files).oracle config.defaultTrait
          ⟨file.place, file.source, crate⟩ entry.1 entry.2 = .flagged finding) := by
  have found : finding ∈ (detect config
      (builtinRules (indexOf config files).oracle config.defaultTrait) files).value := listed
  obtain ⟨file, inFiles, rule, builtin, found, -⟩ :=
    (mem_detect_iff config _ files finding).mp found
  refine ⟨file, inFiles, ?_⟩
  rw [Rule.findings] at found
  split at found
  · cases found
  next crate tree =>
  refine ⟨crate, tree, ?_⟩
  rcases List.mem_pair.mp builtin with rfl | rfl
  · obtain ⟨collapse, -, rfl⟩ := List.mem_map.mp found
    exact .inl ⟨collapse, rfl⟩
  · exact .inr ((NewWithoutDefault.mem_check_iff _ _ _ finding).mp found)

/-- What the rules report was found in a file by the rule of its lint. -/
theorem exists_of_mem_findings (finding : Finding)
    (listed : finding ∈ (check config files).value.findings)
    (lint : finding.lint = Lint.newWithoutDefaultDerive.name) :
    ∃ file ∈ files, ∃ crate, file.crate = some crate ∧
      finding ∈ (NewWithoutDefault.check (indexOf config files).oracle config.defaultTrait
        ⟨file.place, file.source, crate⟩).value := by
  obtain ⟨file, inFiles, crate, tree, ⟨c, rfl⟩ | flagged⟩ := finding_of_check listed
  · have other : Lint.collapsibleIf.name ≠ Lint.newWithoutDefaultDerive.name := by decide
    exact absurd lint other
  · exact ⟨file, inFiles, crate, tree, (NewWithoutDefault.mem_check_iff _ _ _ finding).mpr flagged⟩

theorem definitionsIn_ne_nil_of_definesStruct (file : RustFile) (crate : Crate) (name : String)
    (span : Span) (tree : file.crate = some crate)
    (defines : NewWithoutDefault.definesStruct crate name span = true) :
    definitionsIn file name ≠ [] := by
  obtain ⟨d, listed, named⟩ := NewWithoutDefault.exists_of_definesStruct crate name span defines
  rw [CrateIndex.typesIn_eq_typesBelow] at listed
  simp only [definitionsIn, tree]
  exact List.ne_nil_of_mem (List.mem_filter.mpr ⟨listed, beq_iff_eq.mpr named⟩)

/-- The edit of a finding that the trait could be derived goes to the one file with the only
definition of the type: an attribute in front of the definition, at its depth in that file. -/
theorem suggestion_at_definition (finding : Finding)
    (listed : finding ∈ (check config files).value.findings)
    (lint : finding.lint = Lint.newWithoutDefaultDerive.name) :
    ∃ file ∈ files, ∃ crate impl c, file.crate = some crate ∧ (impl, c) ∈ candidates crate ∧
      outcome (indexOf config files).oracle config.defaultTrait ⟨file.place, file.source, crate⟩
        impl c = .flagged finding ∧
      ∃ home d trait, OnlyDefinition files home d ∧ d.name = c.selfTy.name ∧
        (indexOf config files).resolveTrait? config.defaultTrait = some trait ∧
        finding.suggestion = some {
          span := ⟨d.span.lo, d.span.lo, d.span.ctxt⟩
          replacement := "#[derive(" ++ trait.name ++ ")]\n" ++ home.source.indentOf d.span
          applicability := .maybeIncorrect
          path := some home.path } := by
  obtain ⟨file, inFiles, crate, tree, found⟩ := exists_of_mem_findings config files finding listed
    lint
  obtain ⟨⟨impl, c⟩, candidate, flagged⟩ :=
    (NewWithoutDefault.mem_check_iff _ _ _ finding).mp found
  refine ⟨file, inFiles, crate, impl, c, tree, candidate, flagged, ?_⟩
  obtain ⟨trait, grounds, ⟨definition, derivable, made⟩ | ⟨-, manual⟩⟩ :=
    NewWithoutDefault.grounds_of_inquire _ _ _ impl c finding
      (NewWithoutDefault.inquire_of_outcome _ _ _ impl c finding flagged)
  · obtain ⟨source, rfl, isSource⟩ :=
      NewWithoutDefault.exists_home_of_deriveFinding _ _ c trait definition finding made
    have known := Except.ok.inj (NewWithoutDefault.definitionSpan_of_canDerive _ c.selfTy trait
      definition derivable)
    obtain ⟨home, d, only, name, span, answer⟩ :=
      exists_onlyDefinition config files c.selfTy definition known
    have atHome : source = some home.source := by
      split at isSource
      · next here =>
        have defines := definitionsIn_ne_nil_of_definesStruct file crate _ _ tree here
        rw [isSource, only.eq_home inFiles (name ▸ defines)]
      · exact (Except.ok.inj isSource).symm.trans answer
    subst span atHome
    exact ⟨home, d, trait, only, name, Except.ok.inj grounds.resolved, rfl⟩
  · have notDerived : Lint.newWithoutDefault.name ≠ Lint.newWithoutDefaultDerive.name := by decide
    rw [manual] at lint
    exact absurd lint notDerived

/-! A file without a tree, the file `pub mod m { pub struct S; }`, and a file with the constructor of
`S` that defines another type at the same place. -/

def unreadFile : RustFile := ⟨.ofString "a.rs", "a.rs", "struct", [], none⟩

def structFile : RustFile where
  path := .ofString "m.rs"
  place := "m.rs"
  text := "pub mod m \x7b\n    pub struct S;\n\x7d\n"
  suppressions := []
  crate := some ⟨[.mod ⟨"m", .everywhere,
    [.typeDef ⟨.struct .unit [], "S", {}, [], .everywhere, ⟨16, 29, 0⟩, true⟩], ⟨0, 31, 0⟩⟩],
    ⟨0, 32, 0⟩⟩

def constructorFile : RustFile where
  path := .ofString "b.rs"
  place := "b.rs"
  text := "use self::m::S;\nstruct Other;\nimpl S \x7b pub fn new() -> Self \x7b S \x7d \x7d\n"
  suppressions := []
  crate := some ⟨[.other "use_declaration" ⟨0, 15, 0⟩,
    .typeDef ⟨.struct .unit [], "Other", {}, [], .hidden, ⟨16, 29, 0⟩, true⟩,
    .impl ⟨{}, none, ⟨.path, "S", ⟨35, 36, 0⟩, [], "S"⟩,
      [.fn ⟨⟨"new", 0, false, false, {}, some ⟨.self, "Self", ⟨55, 59, 0⟩, [], "Self"⟩⟩,
        .everywhere, some ⟨[], ⟨60, 65, 0⟩⟩, ⟨39, 65, 0⟩, true⟩], ⟨30, 67, 0⟩, true⟩], ⟨0, 68, 0⟩⟩

/-- The finding about the constructor, with an edit of the file of the definition. -/
def constructorFinding : Finding where
  lint := Lint.newWithoutDefaultDerive.name
  message := "you should consider deriving a `Default` implementation for `S`"
  span := ⟨39, 65, 0⟩
  location := some ⟨some (.ofString "b.rs"), some 3, some 10, some 3, some 36⟩
  suggestion := some
    ⟨⟨16, 16, 0⟩, "#[derive(Default)]\n    ", .maybeIncorrect, "try", some (.ofString "m.rs")⟩

theorem onlyDefinition_structFile :
    constructorFinding ∈
        (check {} [unreadFile, constructorFile, structFile]).value.findings ∧
      ∃ home d, OnlyDefinition [unreadFile, constructorFile, structFile] home d ∧
        home.path = structFile.path ∧ d.span.lo = 16 := by
  have listed : constructorFinding ∈
      (check {} [unreadFile, constructorFile, structFile]).value.findings := by decide +kernel
  refine ⟨listed, ?_⟩
  obtain ⟨-, -, -, -, -, -, -, -, home, d, trait, only, -, -, edit⟩ :=
    suggestion_at_definition {} _ constructorFinding listed rfl
  obtain ⟨span, -, -, -, path⟩ := Suggestion.mk.inj (Option.some.inj edit)
  exact ⟨home, d, only, (Option.some.inj path).symm, (congrArg (·.lo) span).symm⟩

end Detection
end RustLint
