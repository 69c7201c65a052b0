import RustLint.Proofs.Detection
import RustLint.Proofs.Lowering.Failure
import RustLint.Scan

set_option autoImplicit false

namespace RustLint

namespace Reporting

variable {ε α β : Type}

@[simp] theorem value_pure (a : α) : (pure a : Reporting ε α).run.value = .ok a := rfl

@[simp] theorem value_lift (x : Logged α) :
    (ExceptT.lift x : Reporting ε α).run.value = .ok x.value := rfl

@[simp] theorem value_write (record : LogRecord) :
    (write record : Reporting ε Unit).run.value = .ok () := rfl

@[simp] theorem value_bind (x : Reporting ε α) (next : α → Reporting ε β) :
    (x >>= next).run.value = x.run.value >>= fun a => (next a).run.value := by
  change (Logged.andThen x.run (ExceptT.bindCont next)).value = _
  rw [Logged.andThen]
  cases x.run.value <;> rfl

@[simp] theorem value_map (f : α → β) (x : Reporting ε α) :
    (f <$> x).run.value = f <$> x.run.value := by
  simp only [Functor.map, ExceptT.map, ExceptT.run, ExceptT.mk, Logged.value_bind]
  cases (x : Logged (Except ε α)).value <;> rfl

end Reporting

namespace Detection

variable (config : Config) (rules : List Rule) (files : List RustFile)

theorem value_inFile_withoutTree {file : RustFile} (noTree : file.crate = none) :
    (inFile config rules file).value = [] := by
  rw [inFile, noTree]
  rfl

theorem value_detect_withTrees :
    (detect config rules (files.filter (·.crate.isSome))).value =
      (detect config rules files).value := by
  rw [value_detect, value_detect]
  induction files with
  | nil => rfl
  | cons file files ih =>
    rw [List.filter_cons, List.flatMap_cons, ← ih]
    split
    · rfl
    · next noTree =>
      rw [value_inFile_withoutTree config rules (Option.not_isSome_iff_eq_none.mp noTree),
        List.nil_append]

theorem crates_withTrees : crates (files.filter (·.crate.isSome)) = crates files := by
  rw [crates, List.filterMap_filter]
  refine List.filterMap_congr fun file _ => ?_
  cases file.crate <;> rfl

/-- Files without a tree are of no use to the others: neither the rules nor the index see them. -/
theorem findings_check_withTrees :
    (check config (files.filter (·.crate.isSome))).value.findings =
      (check config files).value.findings := by
  simp only [check, summary, inFiles, Logged.value_bind, Logged.value_pure, crates_withTrees,
    value_detect_withTrees]

end Detection

namespace Scan

open Lowering (Gap)

variable (tree : FileTree) (parser : Parser) (target : ScanTarget)

/-- A run over the files at the paths. -/
def checkFiles (paths : List Path) : Reporting LowerError Summary := do
  let files ← readFiles tree parser target paths
  ExceptT.lift (Detection.check target.config files)

/-- The run over a target is the run over its files. -/
theorem value_check : (check tree parser target).run.value =
    (checkFiles tree parser target (files tree target)).run.value := by
  simp only [check, checkFiles, Reporting.value_bind, Reporting.value_write]
  rfl

/-- The text of a file and the tree in it, if the file can be read and parses. -/
def parsed? (path : Path) : Option (Source × ParseTree) :=
  match tree.readFile path with
  | .ok bytes =>
    let source : Source := ⟨textOf bytes, some path⟩
    match parser source with
    | .parsed root => some (source, root)
    | .failed _ | .unavailable => none
  | .error _ => none

/-- Why the tree of the file does not lower, if it does not. -/
def lowerError? (path : Path) : Option LowerError :=
  (parsed? tree parser path).bind fun found =>
    match Crate.ofTree found.1 found.2 with
    | .ok _ => none
    | .error e => some e

/-- The file does not lower. -/
def fails (path : Path) : Bool := (lowerError? tree parser path).isSome

/-- The fault in the file, if there is one. -/
def fault? (path : Path) : Option LowerError :=
  (lowerError? tree parser path).filter (·.refusal?.isNone)

/-- What the tree of the file lowers to. -/
def crate? (path : Path) : Option Crate :=
  (parsed? tree parser path).bind fun found => (Crate.ofTree found.1 found.2).toOption

/-- The file made ready, if it can be read. It has a tree if it lowers. -/
def file? (path : Path) : Option RustFile :=
  match tree.readFile path with
  | .ok bytes =>
    some (.ofCrate tree.resolve target.root path (textOf bytes) (crate? tree parser path))
  | .error _ => none

section Files

variable {tree parser target}

theorem value_crateOf {path : Path} {bytes : List UInt8} (read : tree.readFile path = .ok bytes) :
    (RustFile.crateOf parser path (textOf bytes)).run.value =
      match fault? tree parser path with
      | some e => .error e
      | none => .ok (crate? tree parser path) := by
  simp only [RustFile.crateOf, fault?, lowerError?, crate?, parsed?, read]
  cases parser ⟨textOf bytes, some path⟩ with
  | parsed root =>
    simp only [RustFile.lower, Option.bind_some]
    cases Crate.ofTree ⟨textOf bytes, some path⟩ root with
    | ok crate => rfl
    | error e =>
      cases refused : e.refusal? with
      | none =>
        simp only [Option.filter, refused]
        rfl
      | some message =>
        simp only [Option.filter, refused]
        rfl
  | failed reason => rfl
  | unavailable => rfl

theorem value_readFile (path : Path) : (readFile tree parser target path).run.value =
    match fault? tree parser path with
    | some e => .error e
    | none => .ok (file? tree parser target path) := by
  cases read : tree.readFile path with
  | error e =>
    simp only [readFile, read, fault?, lowerError?, parsed?, file?]
    rfl
  | ok bytes =>
    simp only [readFile, read, file?, RustFile.ofText, Reporting.value_map, Reporting.value_bind,
      value_crateOf read]
    split <;> rfl

/-- The files are made ready one after the other, up to the first fault. -/
theorem value_readFiles (paths : List Path) : (readFiles tree parser target paths).run.value =
    match paths.findSome? (fault? tree parser) with
    | some e => .error e
    | none => .ok (paths.filterMap (file? tree parser target)) := by
  induction paths with
  | nil => rfl
  | cons path paths ih =>
    simp only [readFiles, Reporting.value_bind, Reporting.value_pure, value_readFile, ih,
      List.findSome?_cons]
    cases fault? tree parser path with
    | some e => rfl
    | none =>
      cases paths.findSome? (fault? tree parser) with
      | some e => rfl
      | none =>
        rw [List.filterMap_cons]
        cases file? tree parser target path <;> rfl

theorem value_checkFiles (paths : List Path) : (checkFiles tree parser target paths).run.value =
    match paths.findSome? (fault? tree parser) with
    | some e => .error e
    | none => .ok
        (Detection.check target.config (paths.filterMap (file? tree parser target))).value := by
  simp only [checkFiles, Reporting.value_bind, Reporting.value_lift, value_readFiles]
  split <;> rfl

theorem lowerError?_eq_some {path : Path} {e : LowerError} :
    lowerError? tree parser path = some e ↔ ∃ source root,
      parsed? tree parser path = some (source, root) ∧ Crate.ofTree source root = .error e := by
  rw [lowerError?, Option.bind_eq_some_iff]
  constructor
  · rintro ⟨⟨source, root⟩, parsed, failed⟩
    refine ⟨source, root, parsed, ?_⟩
    dsimp only at failed
    split at failed
    · cases failed
    · next d lowered => rw [lowered, Option.some.inj failed]
  · rintro ⟨source, root, parsed, failed⟩
    exact ⟨(source, root), parsed, by simp only [failed]⟩

theorem fault?_eq_some {path : Path} {e : LowerError} :
    fault? tree parser path = some e ↔
      lowerError? tree parser path = some e ∧ e.refusal? = none := by
  rw [fault?, Option.filter_eq_some_iff, Option.isNone_iff_eq_none]

theorem fault?_eq_none {path : Path} :
    fault? tree parser path = none ↔
      ∀ e, lowerError? tree parser path = some e → e.refusal?.isSome := by
  simp only [fault?, Option.filter_eq_none_iff, Option.isNone_iff_eq_none,
    Option.isSome_iff_ne_none, ne_eq]

/-- A file that does not lower was read, and is kept without a tree. -/
theorem file?_of_fails (target : ScanTarget) {path : Path}
    (failed : fails tree parser path = true) :
    ∃ file, file? tree parser target path = some file ∧ file.path = path ∧ file.crate = none := by
  obtain ⟨e, failed⟩ := Option.isSome_iff_exists.mp failed
  obtain ⟨source, root, parsed, failed⟩ := lowerError?_eq_some.mp failed
  have noCrate : crate? tree parser path = none := by
    simp only [crate?, parsed, Option.bind_some, failed, Except.toOption]
  cases read : tree.readFile path with
  | error e =>
    rw [parsed?, read] at parsed
    cases parsed
  | ok bytes =>
    rw [file?, read, noCrate]
    exact ⟨_, rfl, rfl, rfl⟩

/-- Leaving out the files that do not lower leaves out none with a tree. -/
theorem filterMap_file?_withTrees (paths : List Path) :
    ((paths.filter fun path => !fails tree parser path).filterMap
        (file? tree parser target)).filter (·.crate.isSome) =
      (paths.filterMap (file? tree parser target)).filter (·.crate.isSome) := by
  rw [List.filterMap_filter, List.filter_filterMap, List.filter_filterMap]
  refine List.filterMap_congr fun path _ => ?_
  cases failed : fails tree parser path with
  | false => rfl
  | true =>
    obtain ⟨file, made, -, noTree⟩ := file?_of_fails target failed
    simp [made, Option.filter, noTree]

end Files

/-- The run over the files ends with the summary, and the files that do not lower stand for nothing
but themselves in it. -/
structure Survives (paths : List Path) (summary : Summary) : Prop where
  ends : (checkFiles tree parser target paths).run.value = .ok summary
  /-- Every file that does not lower is listed as skipped. -/
  skips : ∀ path ∈ paths, fails tree parser path → path ∈ summary.filesSkipped
  /-- If these files were absent, the run would end with the same findings. -/
  finds : ∃ rest : Summary,
    (checkFiles tree parser target (paths.filter fun path => !fails tree parser path)).run.value =
      .ok rest ∧ rest.findings = summary.findings

variable {tree parser target}

theorem Survives.of_faultless {paths : List Path}
    (faultless : paths.findSome? (fault? tree parser) = none) :
    ∃ summary, Survives tree parser target paths summary := by
  have restFaultless : (paths.filter fun path => !fails tree parser path).findSome?
      (fault? tree parser) = none := by
    rw [List.findSome?_eq_none_iff] at faultless ⊢
    exact fun path listed => faultless path (List.mem_of_mem_filter listed)
  refine ⟨_, by rw [value_checkFiles, faultless], fun path listed failed => ?_, _,
    by rw [value_checkFiles, restFaultless], ?_⟩
  · obtain ⟨file, made, here, noTree⟩ := file?_of_fails target failed
    have ready := List.mem_filterMap.mpr ⟨path, listed, made⟩
    exact List.mem_map.mpr ⟨file, List.mem_filter.mpr ⟨ready, by rw [noTree]; rfl⟩, here⟩
  -- Both runs have the same files with a tree, and only these count.
  · rw [← Detection.findings_check_withTrees, filterMap_file?_withTrees,
      Detection.findings_check_withTrees]

/-- A file at fault has a gap in its tree. -/
theorem exists_gap_of_fault {path : Path} {e : LowerError}
    (fault : fault? tree parser path = some e) :
    ∃ source root, parsed? tree parser path = some (source, root) ∧
      ∃ node, root.Holds node ∧ Gap node e := by
  obtain ⟨failed, fault⟩ := fault?_eq_some.mp fault
  obtain ⟨source, root, parsed, failed⟩ := lowerError?_eq_some.mp failed
  exact ⟨source, root, parsed, Lowering.gap_of_fault failed fault⟩

theorem value_checkFiles_eq_error {paths : List Path} {e : LowerError} :
    (checkFiles tree parser target paths).run.value = .error e ↔
      paths.findSome? (fault? tree parser) = some e := by
  rw [value_checkFiles]
  cases paths.findSome? (fault? tree parser) with
  | none => simp
  | some d => simp

theorem exists_survives_iff {paths : List Path} :
    (∃ summary, Survives tree parser target paths summary) ↔
      paths.findSome? (fault? tree parser) = none := by
  refine ⟨fun ⟨summary, survives⟩ => ?_, Survives.of_faultless⟩
  cases fault : paths.findSome? (fault? tree parser) with
  | none => rfl
  | some e => exact nomatch (value_checkFiles_eq_error.mpr fault).symm.trans survives.ends

variable (tree parser target)

/-- A run over files survives those that do not lower exactly when all of them are refused. If one
is at fault, the fault of the first such file is all that the run gives. No file is at fault whose
tree has no gap. -/
theorem survives_iff (paths : List Path) :
    ((∃ summary, Survives tree parser target paths summary) ↔
      ∀ path ∈ paths, ∀ e, lowerError? tree parser path = some e → e.refusal?.isSome) ∧
    (∀ e, (checkFiles tree parser target paths).run.value = .error e ↔
      ∃ before path after, paths = before ++ path :: after ∧
        (lowerError? tree parser path = some e ∧ e.refusal? = none) ∧
        ∀ earlier ∈ before, ∀ d, lowerError? tree parser earlier = some d →
          d.refusal?.isSome) ∧
    ((∀ path ∈ paths, ∀ source root, parsed? tree parser path = some (source, root) →
        ∀ node, root.Holds node → ∀ e, ¬ Gap node e) →
      ∃ summary, Survives tree parser target paths summary) := by
  refine ⟨?_, fun e => ?_, fun noGap => ?_⟩
  · simp only [exists_survives_iff, List.findSome?_eq_none_iff, fault?_eq_none]
  · simp only [value_checkFiles_eq_error, List.findSome?_eq_some_iff, fault?_eq_some,
      fault?_eq_none]
  · refine Survives.of_faultless (List.findSome?_eq_none_iff.mpr fun path listed => ?_)
    cases fault : fault? tree parser path with
    | none => rfl
    | some e =>
      obtain ⟨source, root, parsed, node, holds, gap⟩ := exists_gap_of_fault fault
      exact (noGap path listed source root parsed node holds e gap).elim

/-- The tree of `fn f() { a @ b }`: the operator of the binary expression is an error node. -/
def strayFile : ParseTree :=
  ⟨⟨"source_file", true, 0, 16, none⟩, (), [
    ⟨⟨"function_item", true, 0, 16, none⟩, (), [
      ⟨⟨"identifier", true, 3, 4, some "name"⟩, (), []⟩,
      ⟨⟨"parameters", true, 4, 6, some "parameters"⟩, (), []⟩,
      ⟨⟨"block", true, 7, 16, some "body"⟩, (), [
        ⟨⟨"binary_expression", true, 9, 14, none⟩, (), [
          ⟨⟨"identifier", true, 9, 10, some "left"⟩, (), []⟩,
          ⟨⟨"ERROR", true, 11, 12, none⟩, (), []⟩,
          ⟨⟨"identifier", true, 13, 14, some "right"⟩, (), []⟩]⟩]⟩]⟩]⟩

def strayPath : Path := ⟨1, ["bad.rs"]⟩

/-- A project with the file and an empty one. -/
def strayProject : FileTree := ⟨.dir [("bad.rs", .file []), ("lib.rs", .file [])]⟩

def strayParser : Parser := fun source =>
  .parsed (if source.path = some strayPath then strayFile
    else ⟨⟨"source_file", true, 0, 0, none⟩, (), []⟩)

theorem readFile_stray : strayProject.readFile strayPath = .ok [] := by
  have short : strayPath.toString.utf8ByteSize < FileTree.pathBytesLimit := by decide +kernel
  have fits : ¬ "bad.rs".utf8ByteSize > FileTree.maxNameBytes := by decide
  simp only [FileTree.readFile, FileTree.find, if_pos short]
  simp [FileTree.findFrom, strayPath, strayProject, FileTree.entry?, Entry.at?, Entry.child?,
    FileTree.maxLinks, fits]

theorem lowerError?_stray :
    lowerError? strayProject strayParser strayPath = some (.noOperator false) := by
  refine lowerError?_eq_some.mpr ⟨⟨textOf [], some strayPath⟩, strayFile, ?_, rfl⟩
  simp only [parsed?, readFile_stray]
  rfl

/-- The file without an operator takes the one beside it down with it. -/
theorem not_survives :
    ¬ ∀ (tree : FileTree) (parser : Parser) (target : ScanTarget) (paths : List Path),
      ∃ summary, Survives tree parser target paths summary := by
  intro always
  have faultless := exists_survives_iff.mp
    (always strayProject strayParser default [strayPath, ⟨1, ["lib.rs"]⟩])
  have none := List.findSome?_eq_none_iff.mp faultless strayPath List.mem_cons_self
  have fault := fault?_eq_some.mpr ⟨lowerError?_stray, rfl⟩
  exact nomatch fault.symm.trans none

end Scan
end RustLint
