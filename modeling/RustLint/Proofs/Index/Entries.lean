import RustLint.CrateIndex
import RustLint.Proofs.Traversal
import Mathlib.Data.List.Induction

set_option autoImplicit false

namespace RustLint.CrateIndex

/-- The index of the files, added in order. -/
def indexed (extra : List String) (files : List (Crate × Option Source)) : CrateIndex :=
  (ofCrates extra files).value

def typesIn (c : Crate) : List TypeDef := (Node.crate c).items.filterMap typeDef?

def traitsIn (c : Crate) : List String := (Node.crate c).items.filterMap traitName?

def writtenIn (c : Crate) : List (String × String) := (Node.crate c).items.filterMap written?

/-- The name of a trait without the path in front of it. -/
def bareName (written : String) : String := Text.lastSegment (Text.normalizePath written)

/-- The path of the trait with the bare name when these traits are known. -/
def traitPath (traits : List String) (x : String) : String :=
  if traits.contains x then "crate::" ++ x
  else (StdLibrary.preludeTrait? x).getD ("crate::" ++ x)

/-- The crate defines a trait of the name. -/
def Defines (c : Crate) (x : String) : Prop := x ∈ traitsIn c

instance (c : Crate) (x : String) : Decidable (Defines c x) :=
  inferInstanceAs (Decidable (x ∈ traitsIn c))

/-- A definition of the type in the crate derives the trait. -/
def Derives (c : Crate) (x n : String) : Prop :=
  ∃ d ∈ typesIn c, d.name = n ∧ ∃ written ∈ d.derives, bareName written = x

/-- The crate implements the trait for the type in an `impl`. -/
def Writes (c : Crate) (x n : String) : Prop := ∃ written, (written, n) ∈ writtenIn c ∧
  bareName written = x

/-- The crate implements the trait for the type, in one way or the other. -/
def Uses (c : Crate) (x n : String) : Prop := Derives c x n ∨ Writes c x n

/-! The paths of the prelude are distinct, and none lies below `crate`. -/

theorem mem_preludeTraits (x p : String) (known : StdLibrary.preludeTrait? x = some p) :
    (x, p) ∈ StdLibrary.preludeTraits := by
  obtain ⟨front, behind, split, -⟩ := List.lookup_eq_some_iff.mp known
  rw [split]
  exact List.mem_append_right _ List.mem_cons_self

theorem preludeTrait?_injective (x y p : String) (left : StdLibrary.preludeTrait? x = some p)
    (right : StdLibrary.preludeTrait? y = some p) : x = y := by
  have distinct : ∀ a ∈ StdLibrary.preludeTraits, ∀ b ∈ StdLibrary.preludeTraits,
      a.2 = b.2 → a.1 = b.1 := by decide
  exact distinct _ (mem_preludeTraits x p left) _ (mem_preludeTraits y p right) rfl

theorem preludeTrait?_ne_crate (x y : String) :
    StdLibrary.preludeTrait? x ≠ some ("crate::" ++ y) := by
  intro known
  have below : ∀ a ∈ StdLibrary.preludeTraits, a.2.toList.take 7 ≠ "crate::".toList := by decide
  refine below _ (mem_preludeTraits x _ known) ?_
  rw [String.toList_append]
  exact List.take_left' (by decide)

theorem traitPath_eq_prelude (traits : List String) (x y p : String)
    (known : StdLibrary.preludeTrait? x = some p) :
    traitPath traits y = p ↔ y = x ∧ x ∉ traits := by
  have noCrate : ∀ z, p ≠ "crate::" ++ z := by
    intro z same
    exact preludeTrait?_ne_crate x z (same ▸ known)
  unfold traitPath
  constructor
  · intro path
    split at path
    · exact (noCrate y path.symm).elim
    · next unknown =>
      cases found : StdLibrary.preludeTrait? y with
      | none =>
        rw [found] at path
        exact (noCrate y path.symm).elim
      | some q =>
        rw [found, Option.getD_some] at path
        have same := preludeTrait?_injective y x p (path ▸ found) known
        subst same
        exact ⟨rfl, by simpa using unknown⟩
  · rintro ⟨rfl, unknown⟩
    rw [if_neg (by simpa using unknown), known, Option.getD_some]

theorem traitPath_eq_crate (traits : List String) (x y : String) :
    traitPath traits y = "crate::" ++ x ↔
      y = x ∧ (x ∈ traits ∨ StdLibrary.preludeTrait? x = none) := by
  unfold traitPath
  constructor
  · intro path
    split at path
    · next known =>
      have same := (String.append_right_inj "crate::").mp path
      exact ⟨same, .inl (same ▸ by simpa using known)⟩
    · cases found : StdLibrary.preludeTrait? y with
      | none =>
        rw [found] at path
        have same := (String.append_right_inj "crate::").mp path
        exact ⟨same, .inr (same ▸ found)⟩
      | some q =>
        rw [found, Option.getD_some] at path
        exact (preludeTrait?_ne_crate y x (path ▸ found)).elim
  · rintro ⟨rfl, known | unknown⟩
    · rw [if_pos (by simpa using known)]
    · rw [unknown, Option.getD_none, ite_self]

/-- A type that the files define once implements what there is an entry for. -/
theorem implements_of_definitionOf? (index : CrateIndex) (trait : TraitId) (ty : Ty)
    (d : TypeDef) (defined : index.definitionOf? ty = some d) :
    index.implements trait ty = index.impls.contains (trait.path, ty.name) := by
  obtain ⟨kind, name, span, args, text⟩ := ty
  unfold definitionOf? unique? at defined
  split at defined
  · next path =>
    dsimp only at path defined
    subst path
    split at defined
    · next single => rw [implements, single]
    · cases defined
  · cases defined

theorem resolveTrait?_congr (i j : CrateIndex) (same : i.traits = j.traits) (path : String) :
    i.resolveTrait? path = j.resolveTrait? path := by
  simp only [resolveTrait?, same]

/-- Without extra types none counts as one. -/
theorem isExtra_eq_false (index : CrateIndex) (noExtra : index.extra = []) (name text : String) :
    index.isExtra name text = false := by
  rw [isExtra, noExtra, List.contains_nil, List.contains_nil, Bool.and_false, Bool.or_false]

/-! One more file. -/

variable (extra : List String) (files : List (Crate × Option Source)) (file : Crate × Option Source)

theorem indexed_append : indexed extra (files ++ [file]) =
    (indexed extra files).add file.1 file.2 := by
  rw [indexed, ofCrates, value_foldlM_addLogged, List.foldl_append, indexed, ofCrates,
    value_foldlM_addLogged]
  rfl

theorem types_indexed : (indexed extra files).types = files.flatMap fun file => typesIn file.1 := by
  induction files using List.reverseRecOn with
  | nil => rfl
  | append_singleton files file ih =>
    rw [indexed_append, List.flatMap_append, ← ih, List.flatMap_singleton]
    rfl

theorem traits_indexed : (indexed extra files).traits = files.flatMap fun file =>
    traitsIn file.1 := by
  induction files using List.reverseRecOn with
  | nil => rfl
  | append_singleton files file ih =>
    rw [indexed_append, List.flatMap_append, ← ih, List.flatMap_singleton]
    rfl

theorem extra_indexed : (indexed extra files).extra = extra.map Text.normalizePath := by
  induction files using List.reverseRecOn with
  | nil => rfl
  | append_singleton files file ih =>
    rw [indexed_append, ← ih]
    rfl

theorem mem_foldl_insert (entries impls : List (String × String)) (e : String × String) :
    e ∈ entries.foldl (fun impls entry => impls.insert entry) impls ↔ e ∈ impls ∨ e ∈ entries := by
  induction entries generalizing impls with
  | nil => simp
  | cons entry entries ih =>
    rw [List.foldl_cons, ih, List.mem_insert_iff, List.mem_cons]
    tauto

/-! The files that an entry goes back to. -/

theorem mem_of_mem_front {α : Type} {before after : List α} {a b : α} (early : b ∈ before ++ [a]) :
    b ∈ before ++ a :: after := by
  rw [List.append_cons]
  exact List.mem_append_left _ early

theorem mem_traits_indexed (x : String) :
    x ∈ (indexed extra files).traits ↔ ∃ g ∈ files, Defines g.1 x := by
  rw [traits_indexed, List.mem_flatMap]
  rfl

theorem mem_derivedBy_indexed (written n : String) :
    (written, n) ∈ derivedBy (indexed extra files).types ↔
      ∃ g ∈ files, ∃ d ∈ typesIn g.1, d.name = n ∧ written ∈ d.derives := by
  rw [types_indexed, derivedBy, List.mem_flatMap]
  simp only [List.mem_flatMap, List.mem_map, Prod.mk.injEq]
  constructor
  · rintro ⟨d, ⟨g, listed, inFile⟩, trait, derived, rfl, rfl⟩
    exact ⟨g, listed, d, inFile, rfl, derived⟩
  · rintro ⟨g, listed, d, inFile, rfl, derived⟩
    exact ⟨d, ⟨g, listed, inFile⟩, written, derived, rfl, rfl⟩

/-- The entries that one more file adds. -/
theorem mem_impls_append (p n : String) :
    (p, n) ∈ (indexed extra (files ++ [file])).impls ↔
      (p, n) ∈ (indexed extra files).impls ∨
        ∃ x, traitPath (indexed extra (files ++ [file])).traits x = p ∧
          ((∃ g ∈ files ++ [file], Derives g.1 x n) ∨ Writes file.1 x n) := by
  have step : (indexed extra (files ++ [file])).impls =
      ((derivedBy (indexed extra (files ++ [file])).types ++ writtenIn file.1).map
        fun use => (canonicalTrait (indexed extra (files ++ [file])).traits use.1, use.2)).foldl
          (fun impls entry => impls.insert entry) (indexed extra files).impls := by
    rw [indexed_append]
    rfl
  rw [step, mem_foldl_insert, List.mem_map]
  refine or_congr_right ?_
  constructor
  · rintro ⟨⟨written, m⟩, source, same⟩
    obtain ⟨path, rfl⟩ := Prod.mk.injEq _ _ _ _ ▸ same
    refine ⟨bareName written, path, ?_⟩
    rcases List.mem_append.mp source with derived | inFile
    · obtain ⟨g, listed, d, inFile, name, derived⟩ :=
        (mem_derivedBy_indexed extra (files ++ [file]) written m).mp derived
      exact .inl ⟨g, listed, d, inFile, name, written, derived, rfl⟩
    · exact .inr ⟨written, inFile, rfl⟩
  · rintro ⟨x, path, ⟨g, listed, d, inFile, name, written, derived, rfl⟩ |
      ⟨written, inFile, rfl⟩⟩
    · refine ⟨(written, n), List.mem_append_left _ ?_, congrArg (·, n) path⟩
      exact (mem_derivedBy_indexed extra (files ++ [file]) written n).mpr
        ⟨g, listed, d, inFile, name, derived⟩
    · exact ⟨(written, n), List.mem_append_right _ inFile, congrArg (·, n) path⟩

/-- An entry is due to one file: it stands in an `impl` of the file, or in a `derive` of the file or
of an earlier one, and the traits known by then settle its path. -/
theorem mem_impls_indexed (p n : String) :
    (p, n) ∈ (indexed extra files).impls ↔
      ∃ before file after x, files = before ++ file :: after ∧
        traitPath (indexed extra (before ++ [file])).traits x = p ∧
        ((∃ g ∈ before ++ [file], Derives g.1 x n) ∨ Writes file.1 x n) := by
  induction files using List.reverseRecOn with
  | nil =>
    constructor
    · intro listed
      cases listed
    · rintro ⟨before, file, after, x, split, -⟩
      simp at split
  | append_singleton files last ih =>
    rw [mem_impls_append, ih]
    constructor
    · rintro (⟨before, file, after, x, rfl, rest⟩ | ⟨x, rest⟩)
      · exact ⟨before, file, after ++ [last], x, by simp, rest⟩
      · exact ⟨files, last, [], x, rfl, rest⟩
    · rintro ⟨before, file, after, x, split, rest⟩
      rcases List.eq_nil_or_concat after with rfl | ⟨middle, final, rfl⟩
      · obtain ⟨rfl, same⟩ := List.append_inj' split rfl
        cases same
        exact .inr ⟨x, rest⟩
      · have split' : files ++ [last] = (before ++ file :: middle) ++ [final] := by
          rw [split]
          simp
        obtain ⟨rfl, -⟩ := List.append_inj' split' rfl
        exact .inl ⟨before, file, middle, x, rfl, rest⟩

/-- Under the path of the prelude: some file implements the trait, and neither it nor a file before
it defines a trait of that name. -/
theorem mem_impls_prelude (x p n : String) (known : StdLibrary.preludeTrait? x = some p) :
    (p, n) ∈ (indexed extra files).impls ↔
      ∃ before file after, files = before ++ file :: after ∧ Uses file.1 x n ∧
        ∀ g ∈ before ++ [file], ¬Defines g.1 x := by
  rw [mem_impls_indexed]
  simp only [traitPath_eq_prelude _ x _ p known, mem_traits_indexed]
  constructor
  · rintro ⟨before, file, after, y, rfl, ⟨rfl, undefined⟩, source⟩
    have noTrait : ∀ g ∈ before ++ [file], ¬Defines g.1 y := by
      intro g listed defines
      exact undefined ⟨g, listed, defines⟩
    rcases source with ⟨g, listed, derives⟩ | writes
    · -- The file of the `derive` may be an earlier one; then no trait was known there either.
      obtain ⟨front, behind, split⟩ := List.append_of_mem listed
      have whole : before ++ file :: after = front ++ g :: (behind ++ after) := by
        rw [List.append_cons, split]
        simp
      refine ⟨front, g, behind ++ after, whole, .inl derives, ?_⟩
      intro other early
      apply noTrait other
      rw [split]
      rcases List.mem_append.mp early with inFront | last
      · exact List.mem_append_left _ inFront
      · rw [List.mem_singleton.mp last]
        exact List.mem_append_right _ List.mem_cons_self
    · exact ⟨before, file, after, rfl, .inr writes, noTrait⟩
  · rintro ⟨before, file, after, rfl, uses, noTrait⟩
    refine ⟨before, file, after, x, rfl, ⟨rfl, ?_⟩, ?_⟩
    · rintro ⟨g, listed, defines⟩
      exact noTrait g listed defines
    · rcases uses with derives | writes
      · exact .inl ⟨file, by simp, derives⟩
      · exact .inr writes

/-- Below `crate`, for a name of the prelude: some file derives the trait and some file defines one
of that name, or some file writes an `impl` and it or a file before it defines the trait. -/
theorem mem_impls_crate (x p n : String) (known : StdLibrary.preludeTrait? x = some p) :
    ("crate::" ++ x, n) ∈ (indexed extra files).impls ↔
      ((∃ g ∈ files, Derives g.1 x n) ∧ ∃ g ∈ files, Defines g.1 x) ∨
        ∃ before file after, files = before ++ file :: after ∧ Writes file.1 x n ∧
          ∃ g ∈ before ++ [file], Defines g.1 x := by
  rw [mem_impls_indexed]
  simp only [traitPath_eq_crate, known, reduceCtorEq, or_false, mem_traits_indexed]
  constructor
  · rintro ⟨before, file, after, y, rfl, ⟨rfl, g, listed, defines⟩, source⟩
    rcases source with ⟨h, inFront, derives⟩ | writes
    · exact .inl ⟨⟨h, mem_of_mem_front inFront, derives⟩, g, mem_of_mem_front listed, defines⟩
    · exact .inr ⟨before, file, after, rfl, writes, g, listed, defines⟩
  · rintro (⟨⟨g, derivesIn, derives⟩, h, definesIn, defines⟩ |
      ⟨before, file, after, rfl, writes, g, listed, defines⟩)
    · -- At the last file all are known.
      rcases List.eq_nil_or_concat files with rfl | ⟨before, last, rfl⟩
      · cases derivesIn
      · rw [List.concat_eq_append] at derivesIn definesIn
        exact ⟨before, last, [], x, by simp, ⟨rfl, h, definesIn, defines⟩,
          .inl ⟨g, derivesIn, derives⟩⟩
    · exact ⟨before, file, after, x, rfl, ⟨rfl, g, listed, defines⟩, .inr writes⟩

/-- A name that is not of the prelude always stands for a trait of the crate. -/
theorem mem_impls_other (x n : String) (unknown : StdLibrary.preludeTrait? x = none) :
    ("crate::" ++ x, n) ∈ (indexed extra files).impls ↔ ∃ g ∈ files, Uses g.1 x n := by
  rw [mem_impls_indexed]
  simp only [traitPath_eq_crate, unknown, or_true, and_true]
  constructor
  · rintro ⟨before, file, after, y, rfl, rfl, ⟨g, listed, derives⟩ | writes⟩
    · exact ⟨g, mem_of_mem_front listed, .inl derives⟩
    · exact ⟨file, by simp, .inr writes⟩
  · rintro ⟨g, listed, uses⟩
    obtain ⟨before, after, rfl⟩ := List.append_of_mem listed
    refine ⟨before, g, after, x, rfl, rfl, ?_⟩
    rcases uses with derives | writes
    · exact .inl ⟨g, by simp, derives⟩
    · exact .inr writes

/-- Every entry stands under the path of a prelude trait or below `crate`. -/
theorem path_of_mem_impls (p n : String) (listed : (p, n) ∈ (indexed extra files).impls) :
    ∃ x, StdLibrary.preludeTrait? x = some p ∨ p = "crate::" ++ x := by
  obtain ⟨before, file, after, x, -, path, -⟩ := (mem_impls_indexed extra files p n).mp listed
  refine ⟨x, ?_⟩
  unfold traitPath at path
  split at path
  · exact .inr path.symm
  · cases known : StdLibrary.preludeTrait? x with
    | none =>
      rw [known] at path
      exact .inr path.symm
    | some q =>
      rw [known] at path
      exact .inl (congrArg some path)

end RustLint.CrateIndex
