import RustLint.Proofs.Index.FileOrder
import RustLint.Proofs.Index.Names

set_option autoImplicit false

namespace RustLint.CrateIndex

/-! The segments of a path are bare names. -/

theorem cons_of_splitAtColons (cs segment : List Char) (segments : List (List Char)) (c : Char)
    (split : Text.splitAtColons cs = (c :: segment) :: segments) : ∃ rest, cs = c :: rest := by
  induction cs using Text.splitAtColons.induct with
  | case1 => simp [Text.splitAtColons] at split
  | case2 rest => simp [Text.splitAtColons] at split
  | case3 d rest overlap nothing =>
    rw [Text.splitAtColons.eq_3 _ _ overlap, nothing] at split
    cases split
    exact ⟨rest, rfl⟩
  | case4 d rest overlap first others inner =>
    rw [Text.splitAtColons.eq_3 _ _ overlap, inner] at split
    cases split
    exact ⟨rest, rfl⟩

/-- Cut at the double colons from the left, a path has no double colon left in a segment. -/
theorem afterLastColons?_segment (cs : List Char) (segment : List Char)
    (part : segment ∈ Text.splitAtColons cs) : Text.afterLastColons? segment = none := by
  induction cs using Text.splitAtColons.induct generalizing segment with
  | case1 =>
    cases List.mem_singleton.mp part
    rfl
  | case2 rest ih =>
    rw [Text.splitAtColons] at part
    rcases List.mem_cons.mp part with rfl | later
    · rfl
    · exact ih segment later
  | case3 d rest overlap nothing =>
    rw [Text.splitAtColons.eq_3 _ _ overlap, nothing] at part
    cases List.mem_singleton.mp part
    simp [Text.afterLastColons?]
  | case4 d rest overlap first others inner ih =>
    rw [Text.splitAtColons.eq_3 _ _ overlap, inner] at part
    rw [inner] at ih
    rcases List.mem_cons.mp part with rfl | later
    · rw [afterLastColons?_cons, ih first List.mem_cons_self, Option.none_or]
      split
      · next tail =>
        obtain ⟨behind, rfl⟩ := cons_of_splitAtColons rest tail others ':' inner
        exact (overlap behind rfl rfl).elim
      · rfl
    · exact ih segment (List.mem_cons_of_mem _ later)

theorem mem_of_mem_splitAtColons (cs segment : List Char)
    (part : segment ∈ Text.splitAtColons cs) (c : Char) (inside : c ∈ segment) : c ∈ cs := by
  induction cs using Text.splitAtColons.induct generalizing segment with
  | case1 =>
    cases List.mem_singleton.mp part
    cases inside
  | case2 rest ih =>
    rw [Text.splitAtColons] at part
    rcases List.mem_cons.mp part with rfl | later
    · cases inside
    · exact List.mem_cons_of_mem _ (List.mem_cons_of_mem _ (ih segment later inside))
  | case3 d rest overlap nothing =>
    rw [Text.splitAtColons.eq_3 _ _ overlap, nothing] at part
    cases List.mem_singleton.mp part
    rw [List.mem_singleton.mp inside]
    exact List.mem_cons_self
  | case4 d rest overlap first others inner ih =>
    rw [Text.splitAtColons.eq_3 _ _ overlap, inner] at part
    rw [inner] at ih
    rcases List.mem_cons.mp part with rfl | later
    · rcases List.mem_cons.mp inside with rfl | behind
      · exact List.mem_cons_self
      · exact List.mem_cons_of_mem _ (ih first List.mem_cons_self behind)
    · exact List.mem_cons_of_mem _ (ih segment (List.mem_cons_of_mem _ later) inside)

theorem visible_normalizePath (path : String) (c : Char)
    (listed : c ∈ (Text.normalizePath path).toList) : Text.isBlank c = false := by
  have squashed : c ∈ (Text.squash path).toList := by
    rw [Text.normalizePath] at listed
    split at listed
    · next rest chars =>
      rw [String.toList_ofList] at listed
      rw [chars]
      exact List.mem_cons_of_mem _ (List.mem_cons_of_mem _ listed)
    · rwa [String.toList_ofList] at listed
  rw [Text.squash, String.toList_ofList, List.mem_filter] at squashed
  simpa using squashed.2

theorem bareName_of_mem_segments (path name : String)
    (listed : name ∈ Text.segments (Text.normalizePath path)) : bareName name = name := by
  obtain ⟨segment, part, rfl⟩ := List.mem_map.mp listed
  apply bareName_eq_self
  · intro c inside
    rw [String.toList_ofList] at inside
    exact visible_normalizePath path c (mem_of_mem_splitAtColons _ segment part c inside)
  · rw [String.toList_ofList]
    exact afterLastColons?_segment _ segment part

/-! What a path resolves to, by its last segment. -/

/-- A path into the standard library ends in the name of the trait. -/
theorem preludeTrait?_of_last (segments : List String) (p name : String)
    (found : StdLibrary.traitOfSegments? segments = some p)
    (last : segments.getLast? = some name) : StdLibrary.preludeTrait? name = some p := by
  unfold StdLibrary.traitOfSegments? at found
  split at found
  · cases found
  · next first rest =>
    split at found
    · cases found
    · next written inRest =>
      rw [List.getLast?_cons, inRest, Option.getD_some] at last
      cases last
      exact (Option.filter_eq_some_iff.mp found).1

/-- A path resolves to the trait of the crate that its last segment names, or to the one of the
prelude; the latter where the crate defines none, or by a path into the standard library. -/
theorem path_of_resolved (index : CrateIndex) (path name : String) (id : TraitId)
    (last : (Text.segments (Text.normalizePath path)).getLast? = some name)
    (resolved : index.resolveTrait? path = some id) :
    (id.path = "crate::" ++ name ∧ name ∈ index.traits) ∨
      StdLibrary.preludeTrait? name = some id.path := by
  unfold resolveTrait? at resolved
  dsimp only at resolved
  rw [last, Option.getD_some] at resolved
  split at resolved
  · cases resolved
  split at resolved
  · split at resolved
    · next once =>
      cases resolved
      refine .inl ⟨rfl, ?_⟩
      rw [← List.count_pos_iff]
      omega
    · split at resolved
      · obtain ⟨p, known, rfl⟩ := Option.map_eq_some_iff.mp resolved
        exact .inr known
      · cases resolved
  · obtain ⟨p, found, rfl⟩ := Option.map_eq_some_iff.mp resolved
    exact .inr (preludeTrait?_of_last _ p name found last)

/-! One crate on its own. -/

variable (extra : List String) (crate : Crate) (home : Option Source)

theorem traits_alone : (indexed extra [(crate, home)]).traits = traitsIn crate := by
  rw [traits_indexed, List.flatMap_singleton]

theorem mem_impls_alone (p n : String) :
    (p, n) ∈ (indexed extra [(crate, home)]).impls ↔
      ∃ x, traitPath (traitsIn crate) x = p ∧ Uses crate x n := by
  have step := mem_impls_append extra [] (crate, home) p n
  rw [List.nil_append, traits_alone] at step
  rw [step]
  constructor
  · rintro (listed | ⟨x, path, ⟨g, single, derives⟩ | writes⟩)
    · cases listed
    · cases List.mem_singleton.mp single
      exact ⟨x, path, .inl derives⟩
    · exact ⟨x, path, .inr writes⟩
  · rintro ⟨x, path, derives | writes⟩
    · exact .inr ⟨x, path, .inl ⟨_, List.mem_cons_self, derives⟩⟩
    · exact .inr ⟨x, path, .inr writes⟩

theorem implements_alone (id : TraitId) (self : Ty) (kind : self.kind = .path)
    (once : definitionCount [(crate, home)] self.name = 1) :
    (indexed extra [(crate, home)]).implements id self = true ↔
      ∃ x, traitPath (traitsIn crate) x = id.path ∧ Uses crate x self.name := by
  have count := length_definitionsOf extra [(crate, home)] self.name
  rw [once] at count
  obtain ⟨d, single⟩ := List.length_eq_one_iff.mp count
  have defined : (indexed extra [(crate, home)]).definitionOf? self = some d := by
    rw [definitionOf?, if_pos kind, unique?, single]
  rw [implements_of_definitionOf? _ id self d defined, List.contains_iff_mem, mem_impls_alone]

/-- Where the path of an `impl` resolves, its type implements the trait that it resolves to, unless
that is a trait of the standard library while the crate defines one of the same name. -/
theorem implements_iff_of_resolved (i : ImplBlock) (trait self : Ty) (id : TraitId)
    (listed : .impl i ∈ (Node.crate crate).items) (writes : i.trait = some trait)
    (last : (Text.segments (Text.normalizePath trait.text)).getLast? = some trait.name)
    (resolved : (indexed extra [(crate, home)]).resolveTrait? trait.text = some id)
    (kind : self.kind = .path) (name : self.name = i.selfTy.name)
    (once : definitionCount [(crate, home)] i.selfTy.name = 1) :
    (indexed extra [(crate, home)]).implements id self = true ↔
      (Defines crate trait.name → id.path = "crate::" ++ trait.name) := by
  have bare := bareName_of_mem_segments trait.text trait.name (List.mem_of_getLast? last)
  have uses : Uses crate trait.name self.name := by
    refine .inr ⟨trait.name, ?_, bare⟩
    rw [name]
    exact List.mem_filterMap.mpr ⟨.impl i, listed, by rw [written?, writes, Option.map_some]⟩
  rw [implements_alone extra crate home id self kind (name ▸ once)]
  rcases path_of_resolved _ trait.text trait.name id last resolved with ⟨path, known⟩ | prelude
  · rw [traits_alone] at known
    constructor
    · intro _ _
      exact path
    · intro _
      exact ⟨trait.name, (traitPath_eq_crate _ _ _).mpr ⟨rfl, .inl known⟩ |>.trans path.symm, uses⟩
  · constructor
    · rintro ⟨x, settled, -⟩ defines
      exact absurd defines ((traitPath_eq_prelude _ _ x _ prelude).mp settled).2
    · intro agree
      refine ⟨trait.name, (traitPath_eq_prelude _ _ _ _ prelude).mpr ⟨rfl, ?_⟩, uses⟩
      intro defines
      exact preludeTrait?_ne_crate trait.name trait.name (agree defines ▸ prelude)

/-! The crate `trait Default {} struct S; struct T;` with `impl core::default::Default for S {}` and
`impl crate::Default for T {}`. -/

/-- The trait `Default` as the path writes it. -/
def writtenDefault (path : String) : Ty := ⟨.path, "Default", ⟨0, 0, 0⟩, [], path⟩

def sampleUnit (name : String) : TypeDef where
  form := .struct .unit []
  name := name
  generics := {}
  derives := []
  vis := .hidden
  span := ⟨0, 0, 0⟩

def sampleImpl (path name : String) : ImplBlock where
  generics := {}
  trait := some (writtenDefault path)
  selfTy := bareType name
  items := []
  span := ⟨0, 0, 0⟩
  exported := true

def sampleTwoDefaults : Crate :=
  ⟨[.traitDef ⟨"Default", .hidden, ⟨0, 0, 0⟩⟩, .typeDef (sampleUnit "S"), .typeDef (sampleUnit "T"),
    .impl (sampleImpl "core::default::Default" "S"), .impl (sampleImpl "crate::Default" "T")],
    ⟨0, 0, 0⟩⟩

theorem items_sampleTwoDefaults :
    (Node.crate sampleTwoDefaults).items = sampleTwoDefaults.items := by
  rw [Node.items, Node.walk_eq_preorder]
  rfl

theorem resolveTrait?_sampleTwoDefaults (path : String) :
    (indexed [] [(sampleTwoDefaults, none)]).resolveTrait? path =
      ({ traits := ["Default"] } : CrateIndex).resolveTrait? path := by
  apply resolveTrait?_congr
  rw [traits_alone, traitsIn, items_sampleTwoDefaults]
  rfl

theorem definitionCount_sampleTwoDefaults (n : String) :
    definitionCount [(sampleTwoDefaults, none)] n =
      [sampleUnit "S", sampleUnit "T"].countP (·.name == n) := by
  rw [definitionCount, List.flatMap_singleton, typesIn, items_sampleTwoDefaults]
  rfl

/-- The crate's own trait is seen, the one of the standard library is not. -/
theorem implements_sampleTwoDefaults :
    (indexed [] [(sampleTwoDefaults, none)]).implements ⟨"crate::Default"⟩ (bareType "T") = true ∧
      (indexed [] [(sampleTwoDefaults, none)]).implements ⟨StdLibrary.defaultTrait⟩
        (bareType "S") = false := by
  have own : (indexed [] [(sampleTwoDefaults, none)]).resolveTrait? "crate::Default" =
      some ⟨"crate::Default"⟩ := by
    rw [resolveTrait?_sampleTwoDefaults]
    decide
  have standard : (indexed [] [(sampleTwoDefaults, none)]).resolveTrait?
      "core::default::Default" = some ⟨StdLibrary.defaultTrait⟩ := by
    rw [resolveTrait?_sampleTwoDefaults]
    decide
  have once (n : String) (listed : n = "T" ∨ n = "S") :
      definitionCount [(sampleTwoDefaults, none)] n = 1 := by
    rw [definitionCount_sampleTwoDefaults]
    rcases listed with rfl | rfl <;> decide
  constructor
  · refine (implements_iff_of_resolved [] sampleTwoDefaults none
      (sampleImpl "crate::Default" "T") (writtenDefault "crate::Default") (bareType "T") _ ?_ rfl
      (by decide) own rfl rfl (once "T" (.inl rfl))).mpr fun _ => rfl
    rw [items_sampleTwoDefaults]
    simp [sampleTwoDefaults]
  · rw [Bool.eq_false_iff]
    intro implements
    have defines : Defines sampleTwoDefaults "Default" := by
      rw [Defines, traitsIn, items_sampleTwoDefaults]
      exact List.mem_cons_self
    have path := (implements_iff_of_resolved [] sampleTwoDefaults none
      (sampleImpl "core::default::Default" "S") (writtenDefault "core::default::Default")
      (bareType "S") _ (by rw [items_sampleTwoDefaults]; simp [sampleTwoDefaults]) rfl (by decide)
      standard rfl rfl (once "S" (.inr rfl))).mp implements defines
    revert path
    decide

/-- An `impl` of the trait of the standard library goes under the trait of the crate. -/
theorem not_implements_of_resolved :
    ¬∀ (extra : List String) (crate : Crate) (home : Option Source) (i : ImplBlock)
        (trait self : Ty) (id : TraitId),
      .impl i ∈ (Node.crate crate).items → i.trait = some trait → trait.args = [] →
      (Text.segments (Text.normalizePath trait.text)).getLast? = some trait.name →
      i.selfTy.kind = .path → definitionCount [(crate, home)] i.selfTy.name = 1 →
      self.kind = .path → self.name = i.selfTy.name →
      (indexed extra [(crate, home)]).resolveTrait? trait.text = some id →
      (indexed extra [(crate, home)]).implements id self = true := by
  intro always
  have listed : Item.impl (sampleImpl "core::default::Default" "S") ∈
      (Node.crate sampleTwoDefaults).items := by
    rw [items_sampleTwoDefaults]
    simp [sampleTwoDefaults]
  have once : definitionCount [(sampleTwoDefaults, none)] "S" = 1 := by
    rw [definitionCount_sampleTwoDefaults]
    decide
  have resolved : (indexed [] [(sampleTwoDefaults, none)]).resolveTrait? "core::default::Default" =
      some ⟨StdLibrary.defaultTrait⟩ := by
    rw [resolveTrait?_sampleTwoDefaults]
    decide
  have implements := always [] sampleTwoDefaults none (sampleImpl "core::default::Default" "S")
    (writtenDefault "core::default::Default") (bareType "S") ⟨StdLibrary.defaultTrait⟩ listed rfl
    rfl (by decide) rfl once rfl rfl resolved
  obtain ⟨x, path, -⟩ := (implements_alone [] sampleTwoDefaults none _ _ rfl once).mp implements
  have undefined := ((traitPath_eq_prelude _ "Default" x _ (by decide)).mp path).2
  rw [traitsIn, items_sampleTwoDefaults] at undefined
  exact undefined List.mem_cons_self

end RustLint.CrateIndex
