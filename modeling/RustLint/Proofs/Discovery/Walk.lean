import RustLint.FileTree
import Mathlib.Data.List.Nodup

set_option autoImplicit false

namespace RustLint

/-- The path of what the names lead to from the directory. -/
def Path.descend (p : Path) (names : List String) : Path := { p with parts := p.parts ++ names }

theorem Path.descend_child (p : Path) (name : String) (names : List String) :
    (p.child name).descend names = p.descend (name :: names) := by
  rw [descend, child, descend, List.append_assoc]
  rfl

theorem Path.name_child (p : Path) (name : String) : (p.child name).name = name := by
  rw [Path.name, child, List.getLast?_concat, Option.getD_some]

theorem Path.descend_injective (p : Path) : Function.Injective p.descend := by
  intro names others same
  exact List.append_cancel_left (congrArg Path.parts same)

namespace Entry

mutual

/-- No directory at or below the entry has two entries of one name. -/
def NamesDistinct : Entry → Prop
  | file _ | link _ => True
  | dir entries => (entries.map Prod.fst).Nodup ∧ NamesDistinctIn entries

/-- The same of what the entries of a directory hold. -/
def NamesDistinctIn : List (String × Entry) → Prop
  | [] => True
  | (_, e) :: entries => NamesDistinct e ∧ NamesDistinctIn entries

end

/-- There are no links at or below the entry, and names tell the entries of a directory apart. -/
structure IsPlain (e : Entry) : Prop where
  linkless : e.linkCount = 0
  distinct : e.NamesDistinct

theorem linkCountIn_eq_zero_iff (entries : List (String × Entry)) :
    linkCountIn entries = 0 ↔ ∀ entry ∈ entries, entry.2.linkCount = 0 := by
  induction entries with
  | nil => simp [linkCountIn]
  | cons entry entries ih => rw [linkCountIn, Nat.add_eq_zero_iff, ih, List.forall_mem_cons]

theorem namesDistinctIn_iff (entries : List (String × Entry)) :
    NamesDistinctIn entries ↔ ∀ entry ∈ entries, entry.2.NamesDistinct := by
  induction entries with
  | nil => simp [NamesDistinctIn]
  | cons entry entries ih => rw [NamesDistinctIn, ih, List.forall_mem_cons]

/-- Where names are distinct, an entry is found by its name. -/
theorem lookup_eq_some_iff (entries : List (String × Entry))
    (distinct : (entries.map Prod.fst).Nodup) (name : String) (e : Entry) :
    entries.lookup name = some e ↔ (name, e) ∈ entries := by
  induction entries with
  | nil => simp
  | cons entry entries ih =>
    obtain ⟨first, held⟩ := entry
    rw [List.map_cons, List.nodup_cons] at distinct
    rw [List.lookup_cons, List.mem_cons, Prod.mk.injEq]
    by_cases here : name = first
    · subst here
      have later : (name, e) ∉ entries := fun listed =>
        distinct.1 (List.mem_map.mpr ⟨(name, e), listed, rfl⟩)
      rw [beq_self_eq_true]
      simp [later, eq_comm]
    · rw [beq_eq_false_iff_ne.mpr here]
      simp [here, ih distinct.2]

namespace IsPlain

variable {entries : List (String × Entry)} (plain : (dir entries).IsPlain)

include plain

theorem nodup : (entries.map Prod.fst).Nodup := plain.distinct.1

theorem entry (name : String) (e : Entry) (listed : (name, e) ∈ entries) : e.IsPlain where
  linkless := (linkCountIn_eq_zero_iff entries).mp plain.linkless (name, e) listed
  distinct := (namesDistinctIn_iff entries).mp plain.distinct.2 (name, e) listed

theorem child?_eq_some_iff (name : String) (e : Entry) :
    child? name (dir entries) = some e ↔ (name, e) ∈ entries :=
  lookup_eq_some_iff entries plain.nodup name e

end IsPlain

/-- What a path leads to from a plain entry is plain. -/
theorem IsPlain.at? {e : Entry} (plain : e.IsPlain) (names : List String) (found : Entry)
    (leads : e.at? names = some found) : found.IsPlain := by
  induction names generalizing e with
  | nil =>
    cases leads
    exact plain
  | cons name names ih =>
    rw [Entry.at?, Option.bind_eq_some_iff] at leads
    obtain ⟨next, isChild, behind⟩ := leads
    cases e with
    | file | link => cases isChild
    | dir entries =>
      exact ih (plain.entry name next ((plain.child?_eq_some_iff name next).mp isChild)) behind

/-- The names lead from the directory to a file, through no directory of a name that is skipped. -/
structure LeadsToFile (skipped : List String) (e : Entry) (names : List String) : Prop where
  file : ∃ bytes, e.at? names = some (.file bytes)
  through : ∀ dir ∈ names.dropLast, dir ∉ skipped

end Entry

namespace FileTree

open Entry (IsPlain LeadsToFile)

variable (skipped : List String) (isDir : Path → Bool) (here : Path)

/-- Directories of these names are skipped. -/
def skipsNamed (dir : Path) : Bool := skipped.contains dir.name

theorem filesIn_eq_flatMap (skips : Path → Bool) (entries : List (String × Entry)) :
    filesIn skips isDir here entries =
      entries.flatMap fun entry => filesOf skips isDir (here.child entry.1) entry.2 := by
  induction entries with
  | nil => rfl
  | cons entry entries ih => rw [filesIn, ih, List.flatMap_cons]

/-- The files that are found at or below an entry, known by the names from the directory that the
entry is in. -/
def Finds (name : String) (e : Entry) : Prop :=
  ∀ q, q ∈ filesOf (skipsNamed skipped) isDir (here.child name) e ↔
    ∃ names, q = here.descend (name :: names) ∧ (∃ bytes, e.at? names = some (.file bytes)) ∧
      ∀ dir ∈ (name :: names).dropLast, dir ∉ skipped

theorem mem_filesIn_of_finds (entries : List (String × Entry)) (plain : (Entry.dir entries).IsPlain)
    (each : ∀ name e, (name, e) ∈ entries → Finds skipped isDir here name e) (q : Path) :
    q ∈ filesIn (skipsNamed skipped) isDir here entries ↔
      ∃ names, q = here.descend names ∧ LeadsToFile skipped (.dir entries) names := by
  rw [filesIn_eq_flatMap, List.mem_flatMap]
  constructor
  · rintro ⟨⟨name, e⟩, listed, found⟩
    obtain ⟨names, rfl, ⟨bytes, leads⟩, through⟩ := (each name e listed q).mp found
    refine ⟨name :: names, rfl, ⟨bytes, ?_⟩, through⟩
    rw [Entry.at?, (plain.child?_eq_some_iff name e).mpr listed, Option.bind_some, leads]
  · rintro ⟨names, rfl, ⟨bytes, leads⟩, through⟩
    cases names with
    | nil => cases leads
    | cons name names =>
      rw [Entry.at?, Option.bind_eq_some_iff] at leads
      obtain ⟨e, isChild, leads⟩ := leads
      have listed := (plain.child?_eq_some_iff name e).mp isChild
      exact ⟨(name, e), listed, (each name e listed _).mpr ⟨names, rfl, ⟨bytes, leads⟩, through⟩⟩

theorem finds_file (name : String) (content : List UInt8) :
    Finds skipped isDir here name (.file content) := by
  intro q
  rw [filesOf, List.mem_singleton]
  constructor
  · rintro rfl
    exact ⟨[], rfl, ⟨content, rfl⟩, by simp⟩
  · rintro ⟨names, rfl, ⟨bytes, leads⟩, -⟩
    cases names with
    | nil => rfl
    | cons => cases leads

/-- A directory is left out because of its own name, or what is in it is found. -/
theorem finds_dir (name : String) (entries : List (String × Entry))
    (below : ∀ q, q ∈ filesIn (skipsNamed skipped) isDir (here.child name) entries ↔
      ∃ names, q = (here.child name).descend names ∧ LeadsToFile skipped (.dir entries) names) :
    Finds skipped isDir here name (.dir entries) := by
  intro q
  have isSkipped : (skipsNamed skipped (here.child name) = true) ↔ name ∈ skipped := by
    rw [skipsNamed, Path.name_child, List.contains_iff_mem]
  rw [filesOf]
  split
  · next skips =>
    simp only [List.not_mem_nil, false_iff]
    rintro ⟨names, -, ⟨bytes, leads⟩, through⟩
    cases names with
    | nil => cases leads
    | cons next names => exact through name List.mem_cons_self (isSkipped.mp skips)
  · next enters =>
    rw [below]
    refine exists_congr fun names => ?_
    rw [Path.descend_child]
    refine and_congr_right fun _ => ⟨fun leads => ⟨leads.file, ?_⟩, ?_⟩
    · cases names with
      | nil => exact nomatch leads.file
      | cons next names =>
        rw [List.dropLast_cons_cons, List.forall_mem_cons]
        exact ⟨fun listed => enters (isSkipped.mpr listed), leads.through⟩
    · rintro ⟨file, through⟩
      refine ⟨file, fun dir listed => through dir ?_⟩
      cases names with
      | nil => cases listed
      | cons next names => exact List.mem_cons_of_mem name listed

theorem finds (directory : Path) (name : String) (e : Entry) (plain : e.IsPlain) :
    Finds skipped isDir directory name e := by
  match e with
  | .file content => exact finds_file skipped isDir directory name content
  | .link target => exact absurd plain.linkless (by simp [Entry.linkCount])
  | .dir entries =>
    exact finds_dir skipped isDir directory name entries <|
      mem_filesIn_of_finds skipped isDir (directory.child name) entries plain
        fun other held listed => finds (directory.child name) other held
          (plain.entry other held listed)
termination_by sizeOf e
decreasing_by
  have := List.sizeOf_lt_of_mem listed
  simp at this ⊢
  omega

/-- For every directory without links: the walk finds the files below it that no directory of a
skipped name lies in front of. -/
theorem mem_filesIn_iff (entries : List (String × Entry)) (plain : (Entry.dir entries).IsPlain)
    (q : Path) : q ∈ filesIn (skipsNamed skipped) isDir here entries ↔
      ∃ names, q = here.descend names ∧ LeadsToFile skipped (.dir entries) names :=
  mem_filesIn_of_finds skipped isDir here entries plain
    (fun name e listed => finds skipped isDir here name e (plain.entry name e listed)) q

/-! Nothing is found twice. -/

theorem nodup_filesIn_of (entries : List (String × Entry)) (plain : (Entry.dir entries).IsPlain)
    (each : ∀ name e, (name, e) ∈ entries →
      (filesOf (skipsNamed skipped) isDir (here.child name) e).Nodup) :
    (filesIn (skipsNamed skipped) isDir here entries).Nodup := by
  rw [filesIn_eq_flatMap, List.nodup_flatMap]
  refine ⟨fun entry listed => each entry.1 entry.2 listed, ?_⟩
  have named := List.pairwise_map.mp plain.nodup
  refine named.imp_of_mem fun {one other} left right differ => ?_
  intro q found again
  obtain ⟨names, rfl, -⟩ := (finds skipped isDir here _ _ (plain.entry _ _ left) q).mp found
  obtain ⟨others, same, -⟩ := (finds skipped isDir here _ _ (plain.entry _ _ right) _).mp again
  exact differ (List.cons.inj (Path.descend_injective here same)).1

theorem nodup_filesOf (directory : Path) (e : Entry) (plain : e.IsPlain) :
    (filesOf (skipsNamed skipped) isDir directory e).Nodup := by
  match e with
  | .file _ => exact List.nodup_singleton directory
  | .link _ => exact absurd plain.linkless (by simp [Entry.linkCount])
  | .dir entries =>
    rw [filesOf]
    split
    · exact List.nodup_nil
    · exact nodup_filesIn_of skipped isDir directory entries plain fun name held listed =>
        nodup_filesOf (directory.child name) held (plain.entry name held listed)
termination_by sizeOf e
decreasing_by
  have := List.sizeOf_lt_of_mem listed
  simp at this ⊢
  omega

theorem nodup_filesIn (entries : List (String × Entry)) (plain : (Entry.dir entries).IsPlain) :
    (filesIn (skipsNamed skipped) isDir here entries).Nodup :=
  nodup_filesIn_of skipped isDir here entries plain fun name e listed =>
    nodup_filesOf skipped isDir (here.child name) e (plain.entry name e listed)

end FileTree

end RustLint
