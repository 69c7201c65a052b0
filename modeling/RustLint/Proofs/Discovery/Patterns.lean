import RustLint.Config
import RustLint.Proofs.Discovery.Places
import RustLint.Proofs.Text.Glob

set_option autoImplicit false

namespace RustLint.Config

open Text (Spells globParts)

/-- What is compared of a pattern: its text without blanks around it, with slashes in place of
backslashes, and without a first step that leads nowhere. -/
def bare (pattern : String) : List Char := withoutFirstDot (slashed pattern)

/-- The pattern covers a path as it is seen from the root. With a slash at its end it is a directory
that the path is in, with another slash it is a glob for the whole path, and without a slash a glob
for the name or for the whole path. -/
inductive Covers (pattern : String) (inside : Path) : Prop
  | folder (front : List Char) (isFolder : bare pattern = front ++ ['/'])
      (holds : bare pattern <+: inside.toString.toList)
  | place (noFolder : ∀ front, bare pattern ≠ front ++ ['/']) (slash : '/' ∈ bare pattern)
      (spells : Spells (globParts (bare pattern)) inside.toString.toList)
  | name (some : slashed pattern ≠ []) (noSlash : '/' ∉ bare pattern)
      (spells : Spells (globParts (bare pattern)) inside.name.toList ∨
        Spells (globParts (bare pattern)) inside.toString.toList)

theorem patternMatches_eq (pattern : String) (inside : Path) : patternMatches pattern inside =
    if (slashed pattern).isEmpty then false
    else if (bare pattern).getLast? = some '/' then
      (bare pattern).isPrefixOf inside.toString.toList
    else if (bare pattern).contains '/' then
      Text.globMatches (String.ofList (bare pattern)) inside.toString
    else Text.globMatches (String.ofList (bare pattern)) inside.name ||
      Text.globMatches (String.ofList (bare pattern)) inside.toString :=
  rfl

theorem patternMatches_iff (pattern : String) (inside : Path) :
    patternMatches pattern inside = true ↔ Covers pattern inside := by
  have glob (text : String) : Text.globMatches (String.ofList (bare pattern)) text = true ↔
      Spells (globParts (bare pattern)) text.toList := by
    rw [Text.globMatches_iff, String.toList_ofList]
  have folder : (bare pattern).getLast? = some '/' ↔ ∃ front, bare pattern = front ++ ['/'] :=
    List.getLast?_eq_some_iff
  rw [patternMatches_eq]
  split
  · next empty =>
    rw [List.isEmpty_iff] at empty
    have none : bare pattern = [] := by
      rw [bare, empty]
      rfl
    refine ⟨fun holds => absurd holds Bool.false_ne_true, fun covers => ?_⟩
    cases covers with
    | folder front isFolder => simp [none] at isFolder
    | place _ slash => simp [none] at slash
    | name some => exact absurd empty some
  next some =>
  split
  · next isFolder =>
    obtain ⟨front, ends⟩ := folder.mp isFolder
    rw [List.isPrefixOf_iff_prefix]
    refine ⟨.folder front ends, fun covers => ?_⟩
    cases covers with
    | folder _ _ holds => exact holds
    | place noFolder => exact absurd ends (noFolder front)
    | name _ noSlash => exact absurd (by simp [ends]) noSlash
  next noFolder =>
  have noFolder : ∀ front, bare pattern ≠ front ++ ['/'] := fun front ends =>
    noFolder (folder.mpr ⟨front, ends⟩)
  split
  · next slash =>
    rw [List.contains_iff_mem] at slash
    rw [glob]
    refine ⟨.place noFolder slash, fun covers => ?_⟩
    cases covers with
    | folder front isFolder => exact absurd isFolder (noFolder front)
    | place _ _ spells => exact spells
    | name _ noSlash => exact absurd slash noSlash
  · next noSlash =>
    rw [List.contains_iff_mem] at noSlash
    rw [Bool.or_eq_true, glob, glob]
    refine ⟨.name (fun none => some (by rw [none]; rfl)) noSlash, fun covers => ?_⟩
    cases covers with
    | folder front isFolder => exact absurd isFolder (noFolder front)
    | place _ slash => exact absurd slash noSlash
    | name _ _ spells => exact spells

/-- Some pattern covers the path, which leads to the root or to a place below it. -/
def Ignores (root : Path) (patterns : List String) (path : Path) : Prop :=
  ∃ inside, Path.SeenFrom root path inside ∧ ∃ pattern ∈ patterns, Covers pattern inside

/-- Where the names are ones that a file can have, a path is seen from the root by its place. -/
theorem relativeTo?_eq_some_iff (root path inside : Path) (rootNamed : root.hasNull = false)
    (named : path.hasNull = false) :
    path.seat.relativeTo? root.seat = some inside ↔ Path.SeenFrom root path inside := by
  rw [Path.relativeTo?_seat_eq_some_iff]
  constructor
  · rintro ⟨relative, below⟩
    exact ⟨rootNamed, named, relative, below⟩
  · exact fun seen => ⟨seen.relative, seen.below⟩

/-- On a file system without links names alone tell what is ignored. -/
theorem isIgnored_iff (tree : FileTree) (plain : tree.root.IsPlain) (root : Path)
    (patterns : List String) (path : Path) :
    isIgnored tree.resolve root patterns path = true ↔ Ignores root patterns path := by
  rw [isIgnored, tree.resolve_eq plain, tree.resolve_eq plain, Ignores]
  cases null : path.hasNull with
  | true =>
    rw [if_pos rfl]
    refine ⟨fun holds => absurd holds Bool.false_ne_true, ?_⟩
    rintro ⟨inside, seen, -⟩
    exact absurd (null.symm.trans seen.named) (by decide)
  | false =>
  cases rootNull : root.hasNull with
  | true =>
    rw [if_pos rfl]
    refine ⟨fun holds => absurd holds Bool.false_ne_true, ?_⟩
    rintro ⟨inside, seen, -⟩
    exact absurd (rootNull.symm.trans seen.rootNamed) (by decide)
  | false =>
  rw [if_neg Bool.false_ne_true, if_neg Bool.false_ne_true]
  dsimp only
  have seen (inside : Path) := relativeTo?_eq_some_iff root path inside rootNull null
  split
  · next inside relative =>
    simp only [List.any_eq_true, patternMatches_iff]
    constructor
    · exact fun covered => ⟨inside, (seen inside).mp relative, covered⟩
    · rintro ⟨other, isSeen, covered⟩
      rw [(seen other).mpr isSeen] at relative
      cases relative
      exact covered
  · next outside =>
    refine ⟨fun holds => absurd holds Bool.false_ne_true, ?_⟩
    rintro ⟨inside, isSeen, -⟩
    rw [(seen inside).mpr isSeen] at outside
    cases outside

/-- What is ignored of the paths below the root. -/
theorem ignores_below_iff (root : Path) (patterns : List String) (path : Path) (names : List String)
    (rootNamed : root.hasNull = false) (named : path.hasNull = false)
    (below : path.seat.parts = root.seat.parts ++ names) :
    Ignores root patterns path ↔
      (patterns.any fun pattern => patternMatches pattern ⟨0, names⟩) = true := by
  simp only [List.any_eq_true, patternMatches_iff]
  constructor
  · rintro ⟨inside, seen, covered⟩
    have same : inside = ⟨0, names⟩ := by
      have parts := List.append_cancel_left (seen.below.symm.trans below)
      cases inside
      cases parts
      cases seen.relative
      rfl
    exact same ▸ covered
  · exact fun covered => ⟨⟨0, names⟩, ⟨rootNamed, named, rfl, below⟩, covered⟩

/-- A list of patterns ignores what one of its parts ignores. -/
theorem ignores_append (root : Path) (front back : List String) (path : Path) :
    Ignores root (front ++ back) path ↔ Ignores root front path ∨ Ignores root back path := by
  constructor
  · rintro ⟨inside, seen, pattern, listed, covers⟩
    rcases List.mem_append.mp listed with first | second
    · exact .inl ⟨inside, seen, pattern, first, covers⟩
    · exact .inr ⟨inside, seen, pattern, second, covers⟩
  · rintro (⟨inside, seen, pattern, listed, covers⟩ | ⟨inside, seen, pattern, listed, covers⟩)
    · exact ⟨inside, seen, pattern, List.mem_append_left back listed, covers⟩
    · exact ⟨inside, seen, pattern, List.mem_append_right front listed, covers⟩

end RustLint.Config
