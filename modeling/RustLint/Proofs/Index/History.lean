import RustLint.Proofs.Index.Definitions

set_option autoImplicit false

namespace RustLint.CrateIndex

/-- The trait is defined in one of the crates. -/
def Known (crates : List (Crate × Option Source)) (x : String) : Prop :=
  ∃ g ∈ crates, ∃ t : TraitDef, Within g.1 (.traitDef t) ∧ t.name = x

/-- The path under which a trait of the name is entered when these crates are known: below `crate`
where one of them defines such a trait or the prelude has none, else the path in the prelude. -/
inductive EnteredAs (crates : List (Crate × Option Source)) (x : String) : String → Prop
  | belowCrate (own : Known crates x ∨ StdLibrary.preludeTrait? x = none) :
      EnteredAs crates x ("crate::" ++ x)
  | prelude (path : String) (foreign : ¬Known crates x)
      (known : StdLibrary.preludeTrait? x = some path) : EnteredAs crates x path

/-- A definition of the type anywhere in the crates derives the trait as it is written. -/
def DerivedIn (crates : List (Crate × Option Source)) (written n : String) : Prop :=
  ∃ g ∈ crates, ∃ d : TypeDef, Within g.1 (.typeDef d) ∧ d.name = n ∧ written ∈ d.derives

/-- An `impl` anywhere in the crate is one of the trait as it is written, for the type. -/
def WrittenIn (c : Crate) (written n : String) : Prop :=
  ∃ (i : ImplBlock) (trait : Ty), Within c (.impl i) ∧ i.trait = some trait ∧
    trait.name = written ∧ i.selfTy.name = n

theorem mem_traitsIn_iff (c : Crate) (x : String) :
    x ∈ traitsIn c ↔ ∃ t : TraitDef, Within c (.traitDef t) ∧ t.name = x := by
  rw [traitsIn, List.mem_filterMap]
  constructor
  · rintro ⟨i, listed, isTrait⟩
    cases i with
    | traitDef t => exact ⟨t, (mem_items_iff c _).mp listed, Option.some.inj isTrait⟩
    | typeDef | fn | impl | mod | other => cases isTrait
  · rintro ⟨t, within, rfl⟩
    exact ⟨.traitDef t, (mem_items_iff c _).mpr within, rfl⟩

theorem mem_writtenIn_iff (c : Crate) (written n : String) :
    (written, n) ∈ writtenIn c ↔ WrittenIn c written n := by
  rw [writtenIn, List.mem_filterMap]
  constructor
  · rintro ⟨i, listed, isWritten⟩
    cases i with
    | impl i =>
      obtain ⟨trait, hasTrait, same⟩ := Option.map_eq_some_iff.mp isWritten
      cases same
      exact ⟨i, trait, (mem_items_iff c _).mp listed, hasTrait, rfl, rfl⟩
    | typeDef | traitDef | fn | mod | other => cases isWritten
  · rintro ⟨i, trait, within, hasTrait, rfl, rfl⟩
    exact ⟨.impl i, (mem_items_iff c _).mpr within, by rw [written?, hasTrait, Option.map_some]⟩

variable (extra : List String) (crates : List (Crate × Option Source))

theorem known_iff (x : String) : Known crates x ↔ x ∈ (indexed extra crates).traits := by
  rw [mem_traits_indexed]
  simp only [Known, Defines, mem_traitsIn_iff]

theorem enteredAs_iff (x q : String) :
    EnteredAs crates x q ↔ traitPath (indexed extra crates).traits x = q := by
  constructor
  · rintro (own | ⟨_, foreign, known⟩)
    · rw [known_iff extra] at own
      exact (traitPath_eq_crate _ x x).mpr ⟨rfl, own⟩
    · rw [known_iff extra] at foreign
      exact (traitPath_eq_prelude _ x x _ known).mpr ⟨rfl, foreign⟩
  · rintro rfl
    by_cases own : Known crates x ∨ StdLibrary.preludeTrait? x = none
    · rw [(traitPath_eq_crate _ x x).mpr ⟨rfl, own.imp_left (known_iff extra crates x).mp⟩]
      exact .belowCrate own
    · obtain ⟨foreign, hasPath⟩ := not_or.mp own
      obtain ⟨path, known⟩ := Option.ne_none_iff_exists'.mp hasPath
      rw [(traitPath_eq_prelude _ x x path known).mpr
        ⟨rfl, fun listed => foreign ((known_iff extra crates x).mpr listed)⟩]
      exact .prelude path foreign known

theorem derivedIn_iff (written n : String) : DerivedIn crates written n ↔
    ∃ g ∈ crates, ∃ d ∈ typesIn g.1, d.name = n ∧ written ∈ d.derives := by
  simp only [DerivedIn, mem_typesIn_iff]

theorem mem_implementors (index : CrateIndex) (q n : String) :
    n ∈ index.implementors q ↔ (q, n) ∈ index.impls := by
  simp only [implementors, List.mem_map, List.mem_filter, beq_iff_eq]
  constructor
  · rintro ⟨⟨p, m⟩, ⟨listed, rfl⟩, rfl⟩
    exact listed
  · intro listed
    exact ⟨(q, n), ⟨listed, rfl⟩, rfl⟩

/-- No crate takes an entry back. -/
theorem impls_subset_add (index : CrateIndex) (c : Crate) (home : Option Source) :
    index.impls ⊆ (index.add c home).impls := by
  intro entry listed
  exact (mem_foldl_insert _ _ entry).mpr (.inl listed)

theorem exists_derives_iff (x n : String) : (∃ g ∈ crates, Derives g.1 x n) ↔
    ∃ written, DerivedIn crates written n ∧ bareName written = x := by
  simp only [derivedIn_iff]
  constructor
  · rintro ⟨g, listed, d, inFile, name, written, derived, bare⟩
    exact ⟨written, ⟨g, listed, d, inFile, name, derived⟩, bare⟩
  · rintro ⟨written, ⟨g, listed, d, inFile, name, derived⟩, bare⟩
    exact ⟨g, listed, d, inFile, name, written, derived, bare⟩

theorem writes_iff (c : Crate) (x n : String) :
    Writes c x n ↔ ∃ written, WrittenIn c written n ∧ bareName written = x := by
  simp only [Writes, mem_writtenIn_iff]

/-- A type is entered under a path exactly when one of the crates, at its turn, entered it: it was
derived for the type up to then, or is implemented for it in that crate, by a name that stood for
the path at that time. Later crates leave the entry where it is. -/
theorem mem_implementors_indexed (q n : String) :
    (n ∈ (indexed extra crates).implementors q ↔
      ∃ before added after written, crates = before ++ added :: after ∧
        (DerivedIn (before ++ [added]) written n ∨ WrittenIn added.1 written n) ∧
        EnteredAs (before ++ [added]) (bareName written) q) ∧
    ∀ (index : CrateIndex) (c : Crate) (home : Option Source),
      index.impls ⊆ (index.add c home).impls := by
  refine ⟨?_, impls_subset_add⟩
  rw [mem_implementors, mem_impls_indexed]
  constructor
  · rintro ⟨before, added, after, x, split, path, source⟩
    rw [exists_derives_iff, writes_iff, ← exists_or] at source
    obtain ⟨written, ⟨derived, rfl⟩ | ⟨inCrate, rfl⟩⟩ := source
    · exact ⟨before, added, after, written, split, .inl derived, (enteredAs_iff extra _ _ q).mpr path⟩
    · exact ⟨before, added, after, written, split, .inr inCrate,
        (enteredAs_iff extra _ _ q).mpr path⟩
  · rintro ⟨before, added, after, written, split, source, entered⟩
    refine ⟨before, added, after, bareName written, split, (enteredAs_iff extra _ _ q).mp entered, ?_⟩
    rw [exists_derives_iff, writes_iff]
    exact source.imp (fun derived => ⟨written, derived, rfl⟩) fun inCrate => ⟨written, inCrate, rfl⟩

end RustLint.CrateIndex
