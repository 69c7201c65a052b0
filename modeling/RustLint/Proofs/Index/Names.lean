import RustLint.Config
import RustLint.Proofs.Index.Entries
import RustLint.Proofs.Precedence.Token

set_option autoImplicit false

namespace RustLint.CrateIndex

/-! Identifiers are single segments. -/

theorem visible_of_isIdentifier (cs : List Char) (identifier : Config.isIdentifier cs = true)
    (c : Char) (listed : c ∈ cs) : c ≠ ':' ∧ Text.isBlank c = false := by
  have nameChar : (c.isAlphanum || c == '_') = true := by
    cases cs with
    | nil => cases listed
    | cons d ds =>
      obtain ⟨first, rest⟩ := Bool.and_eq_true_iff.mp identifier
      rcases List.mem_cons.mp listed with rfl | later
      · rw [Char.isAlphanum, Bool.or_right_comm, first, Bool.true_or]
      · exact List.all_eq_true.mp rest c later
  constructor
  · rintro rfl
    revert nameChar
    decide
  · cases blank : Text.isBlank c with
    | false => rfl
    | true =>
      have noName := Precedence.continuesName_of_isBlank c blank
      simp only [Precedence.continuesName, Precedence.startsName, Bool.or_eq_false_iff] at noName
      simp only [Char.isAlphanum, noName, Bool.or_self, Bool.false_eq_true] at nameChar

theorem squash_eq_self (s : String) (visible : ∀ c ∈ s.toList, Text.isBlank c = false) :
    Text.squash s = s := by
  have all : s.toList.filter (fun c => !Text.isBlank c) = s.toList := by
    rw [List.filter_eq_self]
    intro c listed
    rw [visible c listed]
    rfl
  rw [Text.squash, all, String.ofList_toList]

theorem afterLastColons?_cons (c : Char) (cs : List Char) : Text.afterLastColons? (c :: cs) =
    (Text.afterLastColons? cs).or
      (match c, cs with
        | ':', ':' :: segment => some segment
        | _, _ => none) := by
  rw [Text.afterLastColons?.eq_def]
  dsimp only
  cases Text.afterLastColons? cs <;> rfl

theorem afterLastColons?_eq_none (cs : List Char) (noColon : ':' ∉ cs) :
    Text.afterLastColons? cs = none := by
  induction cs with
  | nil => rfl
  | cons c cs ih =>
    rw [List.mem_cons, not_or] at noColon
    rw [afterLastColons?_cons, ih noColon.2]
    split
    · exact absurd rfl noColon.1
    · rfl

theorem afterLastColons?_append (front cs segment : List Char)
    (found : Text.afterLastColons? cs = some segment) :
    Text.afterLastColons? (front ++ cs) = some segment := by
  induction front with
  | nil => exact found
  | cons c front ih => rw [List.cons_append, afterLastColons?_cons, ih, Option.some_or]

/-- The name behind a path is its last segment. -/
theorem lastSegment_append (path name : String) (noColon : ':' ∉ name.toList) :
    Text.lastSegment (path ++ "::" ++ name) = name := by
  have chars : (path ++ "::" ++ name).toList = path.toList ++ (':' :: ':' :: name.toList) := by simp
  have behind : Text.afterLastColons? (':' :: ':' :: name.toList) = some name.toList := by
    have noPair : Text.afterLastColons? (':' :: name.toList) = none := by
      rw [afterLastColons?_cons, afterLastColons?_eq_none _ noColon, Option.none_or]
      split
      · next here => exact absurd (here ▸ List.mem_cons_self) noColon
      · rfl
    rw [afterLastColons?_cons, noPair, Option.none_or]
    rfl
  rw [Text.lastSegment, chars, afterLastColons?_append _ _ _ behind]
  exact String.ofList_toList

/-- A name without a blank and without a double colon is bare. -/
theorem bareName_eq_self (name : String) (visible : ∀ c ∈ name.toList, Text.isBlank c = false)
    (single : Text.afterLastColons? name.toList = none) : bareName name = name := by
  have normal : Text.normalizePath name = name := by
    rw [Text.normalizePath, squash_eq_self name visible]
    split
    · next rest chars =>
      rw [chars, afterLastColons?_cons, Option.or_eq_none_iff] at single
      cases single.2
    · exact String.ofList_toList
  rw [bareName, normal, Text.lastSegment, single]

theorem bareName_of_isIdentifier (name : String)
    (identifier : Config.isIdentifier name.toList = true) : bareName name = name := by
  have visible := visible_of_isIdentifier name.toList identifier
  apply bareName_eq_self name fun c listed => (visible c listed).2
  apply afterLastColons?_eq_none
  intro listed
  exact (visible ':' listed).1 rfl

/-! Segments of configured paths. -/

theorem mem_splitAtColons (cs : List Char) (c : Char) (listed : c ∈ cs) :
    c = ':' ∨ ∃ segment ∈ Text.splitAtColons cs, c ∈ segment := by
  induction cs using Text.splitAtColons.induct with
  | case1 => cases listed
  | case2 rest ih =>
    rw [Text.splitAtColons]
    simp only [List.mem_cons] at listed
    rcases listed with colon | colon | later
    · exact .inl colon
    · exact .inl colon
    · rcases ih later with colon | ⟨segment, part, inside⟩
      · exact .inl colon
      · exact .inr ⟨segment, List.mem_cons_of_mem _ part, inside⟩
  | case3 d rest overlap nothing ih =>
    rw [Text.splitAtColons.eq_3 _ _ overlap, nothing]
    rcases List.mem_cons.mp listed with rfl | later
    · exact .inr ⟨[c], List.mem_cons_self, List.mem_cons_self⟩
    · rw [nothing] at ih
      rcases ih later with colon | ⟨segment, part, -⟩
      · exact .inl colon
      · cases part
  | case4 d rest overlap segment segments split ih =>
    rw [Text.splitAtColons.eq_3 _ _ overlap, split]
    rcases List.mem_cons.mp listed with rfl | later
    · exact .inr ⟨c :: segment, List.mem_cons_self, List.mem_cons_self⟩
    · rw [split] at ih
      rcases ih later with colon | ⟨other, part, inside⟩
      · exact .inl colon
      · rcases List.mem_cons.mp part with rfl | behind
        · exact .inr ⟨d :: other, List.mem_cons_self, List.mem_cons_of_mem _ inside⟩
        · exact .inr ⟨other, List.mem_cons_of_mem _ behind, inside⟩

/-- A path of identifiers has no blank. -/
theorem visible_of_identifiers (cs : List Char)
    (identifiers : (Text.splitAtColons cs).all Config.isIdentifier = true) (c : Char)
    (listed : c ∈ cs) : Text.isBlank c = false := by
  rcases mem_splitAtColons cs c listed with rfl | ⟨segment, part, inside⟩
  · decide
  · have identifier := List.all_eq_true.mp identifiers segment part
    exact (visible_of_isIdentifier segment identifier c inside).2

/-- The path without the double colon that may stand in front. -/
theorem exists_identifiers (path : String) (loadable : Config.isTraitPath path = true) :
    ∃ cs, Text.normalizePath path = String.ofList cs ∧
      (Text.splitAtColons cs).all Config.isIdentifier = true := by
  rw [Config.isTraitPath] at loadable
  have squashed (visible : ∀ c ∈ path.toList, Text.isBlank c = false) :
      (Text.squash path).toList = path.toList := by rw [squash_eq_self path visible]
  split at loadable
  · next rest chars =>
    refine ⟨rest, ?_, loadable⟩
    have visible : ∀ c ∈ path.toList, Text.isBlank c = false := by
      intro c listed
      rw [chars] at listed
      simp only [List.mem_cons] at listed
      rcases listed with rfl | rfl | later
      · decide
      · decide
      · exact visible_of_identifiers rest loadable c later
    rw [Text.normalizePath, squashed visible, chars]
    rfl
  · next noColons =>
    refine ⟨path.toList, ?_, loadable⟩
    rw [Text.normalizePath, squashed (visible_of_identifiers path.toList loadable)]
    split
    · next rest chars => exact absurd chars (noColons rest)
    · rfl

theorem isIdentifier_of_mem_segments (path : String) (loadable : Config.isTraitPath path = true)
    (name : String) (listed : name ∈ Text.segments (Text.normalizePath path)) :
    Config.isIdentifier name.toList = true := by
  obtain ⟨cs, normal, identifiers⟩ := exists_identifiers path loadable
  rw [normal, Text.segments, String.toList_ofList, List.mem_map] at listed
  obtain ⟨segment, part, rfl⟩ := listed
  rw [String.toList_ofList]
  exact List.all_eq_true.mp identifiers segment part

/-! The name of a resolved trait stands for it. -/

theorem traitPath_of_prelude (x p : String) (known : StdLibrary.preludeTrait? x = some p) :
    traitPath [] (bareName (Text.lastSegment p)) = p := by
  have each : ∀ a ∈ StdLibrary.preludeTraits,
      traitPath [] (bareName (Text.lastSegment a.2)) = a.2 := by decide +kernel
  have here := each (x, p) (mem_preludeTraits x p known)
  dsimp only at here
  exact here

theorem preludeTrait?_of_traitOfSegments? (segments : List String) (p : String)
    (found : StdLibrary.traitOfSegments? segments = some p) :
    ∃ x, StdLibrary.preludeTrait? x = some p := by
  unfold StdLibrary.traitOfSegments? at found
  split at found
  · cases found
  · split at found
    · cases found
    · next name _ => exact ⟨name, (Option.filter_eq_some_iff.mp found).1⟩

theorem traitPath_of_crate (name : String) (identifier : Config.isIdentifier name.toList = true)
    (noPrelude : StdLibrary.preludeTrait? name = none) :
    traitPath [] (bareName (TraitId.mk ("crate::" ++ name)).name) = "crate::" ++ name := by
  have noColon : ':' ∉ name.toList := by
    intro listed
    exact (visible_of_isIdentifier name.toList identifier ':' listed).1 rfl
  have split : "crate::" ++ name = "crate" ++ "::" ++ name := congrArg (· ++ name) (by decide)
  have same : (TraitId.mk ("crate::" ++ name)).name = name := by
    rw [TraitId.name, split, lastSegment_append "crate" name noColon]
  rw [same, bareName_of_isIdentifier name identifier, traitPath, noPrelude, Option.getD_none,
    ite_self]

/-- Where no trait of the files is named like one of the prelude, the name of the trait that a
configured path resolves to stands for that trait. -/
theorem traitPath_of_resolved (index : CrateIndex) (path : String) (t : TraitId)
    (loadable : Config.isTraitPath path = true)
    (noPrelude : ∀ x ∈ index.traits, StdLibrary.preludeTrait? x = none)
    (resolved : index.resolveTrait? path = some t) :
    traitPath [] (bareName t.name) = t.path := by
  have ofPrelude (x p : String) (known : StdLibrary.preludeTrait? x = some p) :
      traitPath [] (bareName (TraitId.mk p).name) = (TraitId.mk p).path :=
    traitPath_of_prelude x p known
  unfold resolveTrait? at resolved
  dsimp only at resolved
  generalize parts : Text.segments (Text.normalizePath path) = segments at resolved
  split at resolved
  · cases resolved
  next named =>
  split at resolved
  · split at resolved
    · next once =>
      cases resolved
      cases last : segments.getLast? with
      | none =>
        rw [last] at named
        exact absurd rfl named
      | some name =>
        rw [last, Option.getD_some] at once
        have identifier : Config.isIdentifier name.toList = true := by
          apply isIdentifier_of_mem_segments path loadable
          rw [parts]
          exact List.mem_of_getLast? last
        have listed : name ∈ index.traits := by
          rw [← List.count_pos_iff]
          omega
        exact traitPath_of_crate name identifier (noPrelude name listed)
    · split at resolved
      · obtain ⟨p, known, rfl⟩ := Option.map_eq_some_iff.mp resolved
        exact ofPrelude _ p known
      · cases resolved
  · obtain ⟨p, found, rfl⟩ := Option.map_eq_some_iff.mp resolved
    obtain ⟨x, known⟩ := preludeTrait?_of_traitOfSegments? segments p found
    exact ofPrelude x p known

/-! Entries without the order of the files. -/

/-- Where no trait of the files is named like one of the prelude, an entry says that some file
implements a trait that stands for the path. -/
theorem mem_impls_of_noPrelude (extra : List String) (files : List (Crate × Option Source))
    (noPrelude : ∀ g ∈ files, ∀ x, Defines g.1 x → StdLibrary.preludeTrait? x = none)
    (p n : String) : (p, n) ∈ (indexed extra files).impls ↔
      ∃ x, traitPath [] x = p ∧ ∃ g ∈ files, Uses g.1 x n := by
  have settled (front : List (Crate × Option Source)) (inFiles : ∀ g ∈ front, g ∈ files)
      (x : String) : traitPath (indexed extra front).traits x = traitPath [] x := by
    unfold traitPath
    split
    · next known =>
      obtain ⟨g, listed, defines⟩ := (mem_traits_indexed extra front x).mp (by simpa using known)
      rw [noPrelude g (inFiles g listed) x defines, Option.getD_none, ite_self]
    · rfl
  rw [mem_impls_indexed]
  constructor
  · rintro ⟨before, file, after, x, rfl, path, source⟩
    have early (g : Crate × Option Source) (listed : g ∈ before ++ [file]) :
        g ∈ before ++ file :: after := mem_of_mem_front listed
    rw [settled _ early] at path
    refine ⟨x, path, ?_⟩
    rcases source with ⟨g, listed, derives⟩ | writes
    · exact ⟨g, early g listed, .inl derives⟩
    · exact ⟨file, early file (by simp), .inr writes⟩
  · rintro ⟨x, path, g, listed, uses⟩
    obtain ⟨before, after, rfl⟩ := List.append_of_mem listed
    refine ⟨before, g, after, x, rfl, ?_, ?_⟩
    · rw [settled _ fun h early => mem_of_mem_front early, path]
    · rcases uses with derives | writes
      · exact .inl ⟨g, by simp, derives⟩
      · exact .inr writes

end RustLint.CrateIndex
