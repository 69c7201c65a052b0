import RustLint.Proofs.Discovery.PathOrder
import RustLint.Proofs.Discovery.Patterns
import RustLint.Scan

set_option autoImplicit false

namespace RustLint

/-- The same target, with other patterns for the paths to ignore. -/
def ScanTarget.ignoring (target : ScanTarget) (patterns : List String) : ScanTarget :=
  { target with config := { target.config with ignorePaths := patterns } }

namespace Scan

open Entry (LeadsToFile)

/-- The path is one of the files to check below the directory of the target: names lead to it from
there through no skipped directory, its suffix in lower case is that of Rust files, and no pattern
ignores it. -/
structure IsSource (target : ScanTarget) (entries : List (String × Entry)) (path : Path) :
    Prop where
  below : ∃ names, path = target.path.descend names ∧ LeadsToFile skippedDirs (.dir entries) names
  rust : Text.lower path.suffix = ".rs"
  kept : ¬Config.Ignores target.root target.config.ignorePaths path

section

variable {tree : FileTree} {target : ScanTarget} {entries : List (String × Entry)}
  (found : tree.find target.path = .ok (.dir entries)) (plain : tree.root.IsPlain)

include found

theorem files_eq_mergeSort : files tree target =
    ((FileTree.filesIn (FileTree.skipsNamed skippedDirs) tree.isDir target.path entries).filter
      (isWanted tree target)).mergeSort Path.le := by
  have noFile : tree.isFile target.path = false := by rw [FileTree.isFile, found]
  have walk : tree.filesBelow (fun dir => skippedDirs.contains dir.name) target.path =
      FileTree.filesIn (FileTree.skipsNamed skippedDirs) tree.isDir target.path entries := by
    rw [FileTree.filesBelow, found]
    rfl
  rw [files, noFile, walk]
  rfl

include plain

theorem mem_files_iff (path : Path) :
    path ∈ files tree target ↔ IsSource target entries path := by
  have wanted : isWanted tree target path = true ↔ Text.lower path.suffix = ".rs" ∧
      ¬Config.Ignores target.root target.config.ignorePaths path := by
    rw [isWanted, isRust, Bool.and_eq_true, beq_iff_eq, Bool.not_eq_true', ← Bool.not_eq_true,
      Config.isIgnored_iff tree plain]
  have inside := tree.isPlain_of_find plain target.path _ found
  rw [files_eq_mergeSort found, List.mem_mergeSort, List.mem_filter, wanted,
    FileTree.mem_filesIn_iff _ _ _ entries inside]
  constructor
  · rintro ⟨below, rust, kept⟩
    exact ⟨below, rust, kept⟩
  · exact fun source => ⟨source.below, source.rust, source.kept⟩

theorem ascends_files : Path.Ascends (files tree target) := by
  have inside := tree.isPlain_of_find plain target.path _ found
  rw [files_eq_mergeSort found]
  exact Path.ascends_mergeSort _ ((FileTree.nodup_filesIn _ _ _ entries inside).filter _)

end

/-- The files under other patterns. -/
theorem mem_files_ignoring_iff (tree : FileTree) (plain : tree.root.IsPlain) (target : ScanTarget)
    (entries : List (String × Entry)) (found : tree.find target.path = .ok (.dir entries))
    (patterns : List String) (path : Path) :
    path ∈ files tree (target.ignoring patterns) ↔
      IsSource (target.ignoring []) entries path ∧ ¬Config.Ignores target.root patterns path := by
  have free : ¬Config.Ignores target.root [] path := by
    rintro ⟨inside, -, pattern, listed, -⟩
    cases listed
  have same : tree.find (target.ignoring patterns).path = .ok (.dir entries) := found
  rw [mem_files_iff same plain]
  constructor
  · exact fun source => ⟨⟨source.below, source.rust, free⟩, source.kept⟩
  · rintro ⟨source, kept⟩
    exact ⟨source.below, source.rust, kept⟩

/-- For every file system without links and every target on a directory of it. The files are in
strictly ascending order, none twice, and they are the Rust files below the directory that are not
behind a skipped directory and that no pattern ignores. Two lists of patterns one behind the other
leave what both of them leave, so neither order nor repetition matters, and a file that does not lie
below the root is never left out. -/
theorem files_outcome (tree : FileTree) (plain : tree.root.IsPlain) (target : ScanTarget)
    (entries : List (String × Entry)) (found : tree.find target.path = .ok (.dir entries)) :
    Path.Ascends (files tree target) ∧ (files tree target).Nodup ∧
      (∀ path, path ∈ files tree target ↔ IsSource target entries path) ∧
      (∀ front back, files tree (target.ignoring (front ++ back)) =
        (files tree (target.ignoring front)).filter
          fun path => path ∈ files tree (target.ignoring back)) ∧
      (∀ patterns others, (∀ pattern, pattern ∈ patterns ↔ pattern ∈ others) →
        files tree (target.ignoring patterns) = files tree (target.ignoring others)) ∧
      ∀ path, path ∈ files tree (target.ignoring []) →
        (∀ inside, ¬Path.SeenFrom target.root path inside) →
          ∀ patterns, path ∈ files tree (target.ignoring patterns) := by
  have sorted (patterns : List String) : Path.Ascends (files tree (target.ignoring patterns)) := by
    have same : tree.find (target.ignoring patterns).path = .ok (.dir entries) := found
    exact ascends_files same plain
  have members := mem_files_ignoring_iff tree plain target entries found
  have ascends := ascends_files found plain
  refine ⟨ascends, ascends.nodup, mem_files_iff found plain, ?_, ?_, ?_⟩
  · intro front back
    refine (sorted _).ext ((sorted front).filter _) fun path => ?_
    rw [List.mem_filter, decide_eq_true_eq, members, members, members, Config.ignores_append,
      not_or]
    constructor
    · rintro ⟨source, left, right⟩
      exact ⟨⟨source, left⟩, source, right⟩
    · rintro ⟨⟨source, left⟩, -, right⟩
      exact ⟨source, left, right⟩
  · intro patterns others same
    refine (sorted _).ext (sorted _) fun path => ?_
    rw [members, members, Config.Ignores, Config.Ignores]
    simp only [same]
  · intro path listed outside patterns
    rw [members] at listed ⊢
    refine ⟨listed.1, ?_⟩
    rintro ⟨inside, seen, -⟩
    exact outside inside seen

/-! A project with a file of each kind, and with patterns for one directory and one suffix. -/

def sampleEntries : List (String × Entry) := [
  ("MAIN.RS", .file []),
  ("notes.txt", .file []),
  ("gen", .dir [("a.rs", .file [])]),
  ("src", .dir [("target", .dir [("b.rs", .file [])]), ("lib.rs", .file [])])]

def sampleTree : FileTree := ⟨.dir [("work", .dir sampleEntries)]⟩

def sampleTarget : ScanTarget :=
  ⟨⟨1, ["work"]⟩, ⟨1, ["work"]⟩, { ignorePaths := [" .\\gen\\", "*.tmp"] }⟩

theorem find_sampleTarget : sampleTree.find sampleTarget.path = .ok (.dir sampleEntries) := by
  have short : sampleTarget.path.toString.utf8ByteSize < FileTree.pathBytesLimit := by
    decide +kernel
  have fits : ¬"work".utf8ByteSize > FileTree.maxNameBytes := by decide
  rw [FileTree.find, if_pos short]
  simp [FileTree.findFrom, sampleTarget, sampleTree, FileTree.entry?, Entry.at?, Entry.child?,
    FileTree.maxLinks, fits]

theorem isPlain_sampleTree : sampleTree.root.IsPlain where
  linkless := by decide
  distinct := by
    simp [sampleTree, sampleEntries, Entry.NamesDistinct, Entry.NamesDistinctIn]

theorem files_sampleTree :
    ⟨1, ["work", "MAIN.RS"]⟩ ∈ files sampleTree sampleTarget ∧
      ⟨1, ["work", "src", "lib.rs"]⟩ ∈ files sampleTree sampleTarget ∧
      ⟨1, ["work", "gen", "a.rs"]⟩ ∉ files sampleTree sampleTarget ∧
      ⟨1, ["work", "src", "target", "b.rs"]⟩ ∉ files sampleTree sampleTarget := by
  obtain ⟨-, -, members, -⟩ := files_outcome sampleTree isPlain_sampleTree sampleTarget
    sampleEntries find_sampleTarget
  have ignored (names : List String) (named : (⟨1, "work" :: names⟩ : Path).hasNull = false)
      (below : (⟨1, "work" :: names⟩ : Path).seat.parts = "work" :: names) :=
    Config.ignores_below_iff sampleTarget.root sampleTarget.config.ignorePaths ⟨1, "work" :: names⟩
      names (by decide) named below
  refine ⟨?_, ?_, ?_, ?_⟩
  · refine (members _).mpr ⟨⟨["MAIN.RS"], rfl, ⟨[], rfl⟩, by decide⟩, by decide +kernel, ?_⟩
    rw [ignored ["MAIN.RS"] (by decide) (by decide)]
    decide +kernel
  · refine (members _).mpr ⟨⟨["src", "lib.rs"], rfl, ⟨[], rfl⟩, by decide⟩, by decide +kernel, ?_⟩
    rw [ignored ["src", "lib.rs"] (by decide) (by decide)]
    decide +kernel
  · intro listed
    apply ((members _).mp listed).kept
    rw [ignored ["gen", "a.rs"] (by decide) (by decide)]
    decide +kernel
  · intro listed
    obtain ⟨names, same, leads⟩ := ((members _).mp listed).below
    cases Path.descend_injective ⟨1, ["work"]⟩ same
    exact leads.through "target" (by decide) (by decide)

end Scan

end RustLint
