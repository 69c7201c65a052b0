import RustLint.Proofs.Index.Entries

set_option autoImplicit false

namespace RustLint.CrateIndex

/-- A file that does not define the trait itself implements it for the type, another file defines
it, and the prelude knows a trait of the name as well. -/
structure Contested (files : List (Crate × Option Source)) (x n : String) : Prop where
  prelude : (StdLibrary.preludeTrait? x).isSome
  defined : ∃ g ∈ files, Defines g.1 x
  used : ∃ g ∈ files, Uses g.1 x n ∧ ¬Defines g.1 x

/-- The definitions of the type name in the files. -/
def definitionCount (files : List (Crate × Option Source)) (n : String) : Nat :=
  (files.flatMap fun file => typesIn file.1).countP (·.name == n)

/-- The type is known to be `Default` when no file defines it. -/
def KnownDefault (extra : List String) (n : String) : Prop :=
  n ∈ extra.map Text.normalizePath ∨ n ∈ StdLibrary.defaultTypes

/-- The answers about the type do not show how its entries came about. -/
def Masked (extra : List String) (files : List (Crate × Option Source)) (x n : String) : Prop :=
  2 ≤ definitionCount files n ∨
    (x = "Default" ∧ definitionCount files n = 0 ∧ KnownDefault extra n ∧
      ∃ g ∈ files, Defines g.1 x ∧ Writes g.1 x n)

variable (extra : List String) (files : List (Crate × Option Source))

theorem length_definitionsOf (n : String) :
    ((indexed extra files).definitionsOf n).length = definitionCount files n := by
  rw [definitionsOf, ← List.countP_eq_length_filter, types_indexed, definitionCount]

theorem definitionCount_perm (files' : List (Crate × Option Source)) (perm : files.Perm files')
    (n : String) : definitionCount files n = definitionCount files' n :=
  (perm.flatMap_right _).countP_eq _

theorem not_derives_of_undefined (x n : String) (undefined : definitionCount files n = 0)
    (g : Crate × Option Source) (listed : g ∈ files) : ¬Derives g.1 x n := by
  rintro ⟨d, inFile, name, -⟩
  have none := List.countP_eq_zero.mp undefined d (List.mem_flatMap.mpr ⟨g, listed, inFile⟩)
  exact none (by simpa using name)

/-! Entries that no order changes. -/

/-- Where nothing is contested, an entry for the prelude says that the trait is used and that no
file defines it. -/
theorem mem_impls_prelude_of_uncontested (x p n : String)
    (known : StdLibrary.preludeTrait? x = some p) (uncontested : ¬Contested files x n) :
    (p, n) ∈ (indexed extra files).impls ↔
      (∃ g ∈ files, Uses g.1 x n) ∧ ∀ g ∈ files, ¬Defines g.1 x := by
  rw [mem_impls_prelude extra files x p n known]
  constructor
  · rintro ⟨before, file, after, rfl, uses, noTrait⟩
    have listed : file ∈ before ++ file :: after := by simp
    refine ⟨⟨file, listed, uses⟩, ?_⟩
    intro g inFiles defines
    apply uncontested
    exact ⟨by rw [known]; rfl, ⟨g, inFiles, defines⟩, file, listed, uses, noTrait file (by simp)⟩
  · rintro ⟨⟨g, listed, uses⟩, noTrait⟩
    obtain ⟨before, after, rfl⟩ := List.append_of_mem listed
    exact ⟨before, g, after, rfl, uses, fun h early => noTrait h (mem_of_mem_front early)⟩

/-- Where nothing is contested, or where a file that defines the trait writes an `impl` of it, an
entry for the trait of the crate says that the trait is used and defined. -/
theorem mem_impls_crate_of_settled (x p n : String) (known : StdLibrary.preludeTrait? x = some p)
    (settled : ¬Contested files x n ∨ ∃ g ∈ files, Defines g.1 x ∧ Writes g.1 x n) :
    ("crate::" ++ x, n) ∈ (indexed extra files).impls ↔
      (∃ g ∈ files, Uses g.1 x n) ∧ ∃ g ∈ files, Defines g.1 x := by
  rw [mem_impls_crate extra files x p n known]
  have together : (∃ g ∈ files, Defines g.1 x ∧ Writes g.1 x n) →
      ∃ before file after, files = before ++ file :: after ∧ Writes file.1 x n ∧
        ∃ g ∈ before ++ [file], Defines g.1 x := by
    rintro ⟨g, listed, defines, writes⟩
    obtain ⟨before, after, rfl⟩ := List.append_of_mem listed
    exact ⟨before, g, after, rfl, writes, g, by simp, defines⟩
  constructor
  · rintro (⟨⟨g, listed, derives⟩, defined⟩ | ⟨before, file, after, rfl, writes, g, early, defines⟩)
    · exact ⟨⟨g, listed, .inl derives⟩, defined⟩
    · exact ⟨⟨file, by simp, .inr writes⟩, g, mem_of_mem_front early, defines⟩
  · rintro ⟨⟨g, listed, uses⟩, defined⟩
    rcases settled with uncontested | written
    · have defines : Defines g.1 x := by
        by_contra undefined
        exact uncontested ⟨by rw [known]; rfl, defined, g, listed, uses, undefined⟩
      rcases uses with derives | writes
      · exact .inl ⟨⟨g, listed, derives⟩, defined⟩
      · exact .inr (together ⟨g, listed, defines, writes⟩)
    · exact .inr (together written)

/-! Indexes that answer alike. -/

/-- The indexes have the same entries wherever an answer depends on one. -/
structure Agree (i j : CrateIndex) : Prop where
  counts : ∀ n, (i.definitionsOf n).length = (j.definitionsOf n).length
  extra : i.extra = j.extra
  entries : ∀ p n, (i.definitionsOf n).length ≤ 1 → ((p, n) ∈ i.impls ↔ (p, n) ∈ j.impls) ∨
    (p = StdLibrary.defaultTrait ∧ (i.definitionsOf n).length = 0 ∧
      (i.extra.contains n || StdLibrary.defaultTypes.contains n) = true)

/-- The answer about a path type, with the answers about its arguments at hand. -/
def implementsPath (index : CrateIndex) (p n text : String) (hasArgs answers : Bool) : Bool :=
  match index.definitionsOf n with
  | [] =>
    index.impls.contains (p, n) ||
      (p == StdLibrary.defaultTrait &&
        (index.isExtra n text || StdLibrary.defaultTypes.contains n ||
          (StdLibrary.wrapperTypes.contains n && hasArgs && answers)))
  | [_] => index.impls.contains (p, n)
  | _ => false

/-- A type that no file defines and that is known to be `Default` is, whatever the entries are. -/
theorem implementsPath_of_known (index : CrateIndex) (n text : String) (hasArgs answers : Bool)
    (undefined : index.definitionsOf n = [])
    (known : (index.extra.contains n || StdLibrary.defaultTypes.contains n) = true) :
    index.implementsPath StdLibrary.defaultTrait n text hasArgs answers = true := by
  simp only [implementsPath, undefined, isExtra, beq_self_eq_true, Bool.true_and]
  rcases Bool.or_eq_true_iff.mp known with listed | listed
  · rw [listed, Bool.or_true, Bool.true_or, Bool.true_or, Bool.or_true]
  · rw [listed, Bool.or_true, Bool.true_or, Bool.or_true]

/-- A type that is defined twice implements nothing. -/
theorem implementsPath_of_many (index : CrateIndex) (p n text : String) (hasArgs answers : Bool)
    (many : 2 ≤ (index.definitionsOf n).length) :
    index.implementsPath p n text hasArgs answers = false := by
  unfold implementsPath
  split
  · next none =>
    rw [none] at many
    cases many
  · next one =>
    rw [one, List.length_singleton] at many
    omega
  · rfl

theorem implementsPath_of_agree (i j : CrateIndex) (agree : Agree i j) (p n text : String)
    (hasArgs answers : Bool) :
    i.implementsPath p n text hasArgs answers = j.implementsPath p n text hasArgs answers := by
  have counts := agree.counts n
  have contains (same : (p, n) ∈ i.impls ↔ (p, n) ∈ j.impls) :
      i.impls.contains (p, n) = j.impls.contains (p, n) := by
    rw [Bool.eq_iff_iff, List.contains_iff_mem, List.contains_iff_mem, same]
  rcases Nat.lt_or_ge (i.definitionsOf n).length 2 with few | many
  · rcases agree.entries p n (by omega) with same | ⟨rfl, none, masked⟩
    · cases inI : i.definitionsOf n with
      | nil =>
        have inJ : j.definitionsOf n = [] :=
          List.length_eq_zero_iff.mp (by rw [← counts, inI, List.length_nil])
        simp only [implementsPath, inI, inJ, contains same, isExtra, agree.extra]
      | cons d rest =>
        rw [inI, List.length_cons] at few counts
        obtain rfl : rest = [] := List.length_eq_zero_iff.mp (by omega)
        obtain ⟨d', inJ⟩ := List.length_eq_one_iff.mp counts.symm
        simp only [implementsPath, inI, inJ, contains same]
    · rw [implementsPath_of_known i n text hasArgs answers (List.length_eq_zero_iff.mp none) masked,
        implementsPath_of_known j n text hasArgs answers
          (List.length_eq_zero_iff.mp (counts ▸ none)) (agree.extra ▸ masked)]
  · rw [implementsPath_of_many i p n text hasArgs answers many,
      implementsPath_of_many j p n text hasArgs answers (counts ▸ many)]

mutual

theorem implements_of_agree (i j : CrateIndex) (agree : Agree i j) (trait : TraitId) :
    (ty : Ty) → i.implements trait ty = j.implements trait ty
  | ⟨kind, name, _, args, text⟩ => by
    have answers := implementsEach_of_agree i j agree trait args
    cases kind with
    | path =>
      have whole := implementsPath_of_agree i j agree trait.path name text (!args.isEmpty)
        ((implementsEach i trait args).all id)
      rw [implements, implements, ← answers]
      exact whole
    | tuple | array | ref => simp only [implements, answers]
    | self | slice | never | other => rfl

theorem implementsEach_of_agree (i j : CrateIndex) (agree : Agree i j) (trait : TraitId) :
    (tys : List Ty) → i.implementsEach trait tys = j.implementsEach trait tys
  | [] => rfl
  | ty :: tys => by
    rw [implementsEach, implementsEach, implements_of_agree i j agree trait ty,
      implementsEach_of_agree i j agree trait tys]

end

/-! What is the same for every order of the files. -/

theorem Contested.perm {files files' : List (Crate × Option Source)} {x n : String}
    (contested : Contested files x n) (perm : files.Perm files') : Contested files' x n := by
  obtain ⟨prelude, ⟨g, inG, defines⟩, h, inH, uses⟩ := contested
  exact ⟨prelude, ⟨g, perm.mem_iff.mp inG, defines⟩, h, perm.mem_iff.mp inH, uses⟩

theorem exists_perm {files files' : List (Crate × Option Source)} (perm : files.Perm files')
    (P : Crate × Option Source → Prop) : (∃ g ∈ files, P g) ↔ ∃ g ∈ files', P g :=
  ⟨fun ⟨g, listed, holds⟩ => ⟨g, perm.mem_iff.mp listed, holds⟩,
    fun ⟨g, listed, holds⟩ => ⟨g, perm.mem_iff.mpr listed, holds⟩⟩

theorem forall_perm {files files' : List (Crate × Option Source)} (perm : files.Perm files')
    (P : Crate × Option Source → Prop) : (∀ g ∈ files, P g) ↔ ∀ g ∈ files', P g :=
  ⟨fun all g listed => all g (perm.mem_iff.mpr listed),
    fun all g listed => all g (perm.mem_iff.mp listed)⟩

/-- Every file can be read first. -/
theorem exists_perm_cons (g : Crate × Option Source) (listed : g ∈ files) :
    ∃ rest, files.Perm (g :: rest) := by
  obtain ⟨before, after, rfl⟩ := List.append_of_mem listed
  exact ⟨before ++ after, List.perm_middle⟩

theorem preludeTrait?_default :
    StdLibrary.preludeTrait? "Default" = some StdLibrary.defaultTrait := by decide

section Masked

variable (masked : ∀ x n, Contested files x n → Masked extra files x n)
  (files' : List (Crate × Option Source)) (perm : files.Perm files')

include masked perm

/-- The entries for the prelude, unless the type is known to be `Default` without them. -/
theorem mem_impls_prelude_perm (x p n : String) (known : StdLibrary.preludeTrait? x = some p)
    (few : definitionCount files n ≤ 1) :
    ((p, n) ∈ (indexed extra files).impls ↔ (p, n) ∈ (indexed extra files').impls) ∨
      (p = StdLibrary.defaultTrait ∧ definitionCount files n = 0 ∧ KnownDefault extra n) := by
  by_cases contested : Contested files x n
  · rcases masked x n contested with many | ⟨rfl, undefined, knownDefault, -⟩
    · omega
    · rw [preludeTrait?_default] at known
      exact .inr ⟨(Option.some.inj known).symm, undefined, knownDefault⟩
  · have uncontested' : ¬Contested files' x n := by
      intro other
      exact contested (other.perm perm.symm)
    rw [mem_impls_prelude_of_uncontested extra files x p n known contested,
      mem_impls_prelude_of_uncontested extra files' x p n known uncontested',
      exists_perm perm, forall_perm perm]
    exact .inl Iff.rfl

/-- The entries below `crate`. -/
theorem mem_impls_crate_perm (x n : String) (few : definitionCount files n ≤ 1) :
    ("crate::" ++ x, n) ∈ (indexed extra files).impls ↔
      ("crate::" ++ x, n) ∈ (indexed extra files').impls := by
  cases known : StdLibrary.preludeTrait? x with
  | none =>
    rw [mem_impls_other extra files x n known, mem_impls_other extra files' x n known,
      exists_perm perm]
  | some q =>
    have settled : ¬Contested files x n ∨ ∃ g ∈ files, Defines g.1 x ∧ Writes g.1 x n := by
      by_cases contested : Contested files x n
      · rcases masked x n contested with many | ⟨-, -, -, written⟩
        · omega
        · exact .inr written
      · exact .inl contested
    have settled' : ¬Contested files' x n ∨ ∃ g ∈ files', Defines g.1 x ∧ Writes g.1 x n := by
      rw [← exists_perm perm]
      exact settled.imp_left fun uncontested other => uncontested (other.perm perm.symm)
    rw [mem_impls_crate_of_settled extra files x q n known settled,
      mem_impls_crate_of_settled extra files' x q n known settled', exists_perm perm,
      exists_perm perm]

/-- Where all that is contested is masked, every order gives the same entries. -/
theorem agree_of_masked : Agree (indexed extra files) (indexed extra files') := by
  refine ⟨?_, ?_, ?_⟩
  · intro n
    rw [length_definitionsOf, length_definitionsOf, definitionCount_perm files files' perm]
  · rw [extra_indexed, extra_indexed]
  intro p n few
  rw [length_definitionsOf] at few ⊢
  rw [extra_indexed, Bool.or_eq_true, List.contains_iff_mem, List.contains_iff_mem]
  by_cases ofPrelude : ∃ x, StdLibrary.preludeTrait? x = some p
  · obtain ⟨x, known⟩ := ofPrelude
    exact mem_impls_prelude_perm extra files masked files' perm x p n known few
  by_cases ofCrate : ∃ x, p = "crate::" ++ x
  · obtain ⟨x, rfl⟩ := ofCrate
    exact .inl (mem_impls_crate_perm extra files masked files' perm x n few)
  · have noEntry (files : List (Crate × Option Source)) : (p, n) ∉ (indexed extra files).impls := by
      intro listed
      obtain ⟨x, known | below⟩ := path_of_mem_impls extra files p n listed
      · exact ofPrelude ⟨x, known⟩
      · exact ofCrate ⟨x, below⟩
    exact .inl (iff_of_false (noEntry files) (noEntry files'))

end Masked

/-! Orders that tell. -/

/-- The type of the name, without arguments and without source. -/
def bareType (n : String) : Ty := ⟨.path, n, ⟨0, 0, 0⟩, [], ""⟩

/-- The answer about a bare type shows whether there is an entry, unless the type is defined twice
or known to be `Default`. -/
theorem implements_bareType (p n : String) (few : definitionCount files n ≤ 1)
    (shows : ¬(p = StdLibrary.defaultTrait ∧ definitionCount files n = 0 ∧ KnownDefault extra n)) :
    (indexed extra files).implements ⟨p⟩ (bareType n) = true ↔
      (p, n) ∈ (indexed extra files).impls := by
  have unfolded : (indexed extra files).implements ⟨p⟩ (bareType n) =
      (indexed extra files).implementsPath p n "" false true := by
    rw [bareType, implements]
    rfl
  have count := length_definitionsOf extra files n
  rw [unfolded]
  cases defs : (indexed extra files).definitionsOf n with
  | nil =>
    rw [defs, List.length_nil] at count
    have plain : (p == StdLibrary.defaultTrait && ((indexed extra files).isExtra n "" ||
        StdLibrary.defaultTypes.contains n)) = false := by
      rw [Bool.eq_false_iff]
      intro holds
      obtain ⟨path, known⟩ := Bool.and_eq_true_iff.mp holds
      apply shows
      refine ⟨beq_iff_eq.mp path, count.symm, ?_⟩
      simp only [isExtra, bne_self_eq_false, Bool.false_and, Bool.false_or, extra_indexed,
        Bool.or_eq_true, List.contains_iff_mem] at known
      exact known
    simp only [implementsPath, defs, Bool.and_false, Bool.false_and, Bool.or_false, plain,
      List.contains_iff_mem]
  | cons d rest =>
    rw [defs, List.length_cons] at count
    have single : rest = [] := List.length_eq_zero_iff.mp (by omega)
    subst single
    simp only [implementsPath, defs, List.contains_iff_mem]

/-- Read first, the file that uses the name without the trait makes an entry for the prelude. -/
theorem mem_impls_user_first (x p n : String) (known : StdLibrary.preludeTrait? x = some p)
    (file : Crate × Option Source) (uses : Uses file.1 x n) (undefined : ¬Defines file.1 x) :
    (p, n) ∈ (indexed extra (file :: files)).impls := by
  refine (mem_impls_prelude extra _ x p n known).mpr ⟨[], file, files, rfl, uses, ?_⟩
  intro g listed
  rw [List.mem_singleton.mp listed]
  exact undefined

/-- When the file that defines the trait is read first, there is no entry for the prelude. -/
theorem not_mem_impls_definer_first (x p n : String) (known : StdLibrary.preludeTrait? x = some p)
    (file : Crate × Option Source) (defines : Defines file.1 x) :
    (p, n) ∉ (indexed extra (file :: files)).impls := by
  rw [mem_impls_prelude extra _ x p n known]
  rintro ⟨before, g, after, split, -, noTrait⟩
  suffices first : file ∈ before ++ [g] from noTrait file first defines
  cases before with
  | nil =>
    cases split
    exact List.mem_cons_self
  | cons first rest =>
    cases split
    exact List.mem_cons_self

/-- Read behind the file that defines the trait, an `impl` makes an entry for the trait of the
crate. -/
theorem mem_impls_definer_first (x p n : String) (known : StdLibrary.preludeTrait? x = some p)
    (file user : Crate × Option Source) (defines : Defines file.1 x) (listed : user ∈ files)
    (writes : Writes user.1 x n) :
    ("crate::" ++ x, n) ∈ (indexed extra (file :: files)).impls := by
  obtain ⟨before, after, rfl⟩ := List.append_of_mem listed
  refine (mem_impls_crate extra _ x p n known).mpr (.inr ?_)
  exact ⟨file :: before, user, after, rfl, writes, file, List.mem_cons_self, defines⟩

/-- When the files that define the trait are the last, and none of them writes an `impl` of it,
there is no entry for the trait of the crate. -/
theorem not_mem_impls_definers_last (x p n : String) (known : StdLibrary.preludeTrait? x = some p)
    (sorted : files.Pairwise fun g h => Defines g.1 x → Defines h.1 x)
    (underived : ∀ g ∈ files, ¬Derives g.1 x n)
    (separate : ∀ g ∈ files, Defines g.1 x → ¬Writes g.1 x n) :
    ("crate::" ++ x, n) ∉ (indexed extra files).impls := by
  rw [mem_impls_crate extra _ x p n known]
  rintro (⟨⟨g, listed, derives⟩, -⟩ | ⟨before, user, after, rfl, writes, g, early, defines⟩)
  · exact underived g listed derives
  · have userDefines : Defines user.1 x := by
      rcases List.mem_append.mp early with inFront | last
      · exact (List.pairwise_append.mp sorted).2.2 g inFront user List.mem_cons_self defines
      · rw [← List.mem_singleton.mp last]
        exact defines
    exact separate user (by simp) userDefines writes

/-- The files in the order in which those that define the trait are the last. -/
def definersLast (x : String) : List (Crate × Option Source) :=
  (files.filter fun g => !decide (Defines g.1 x)) ++
    files.filter fun g => !!decide (Defines g.1 x)

theorem perm_definersLast (x : String) : files.Perm (definersLast files x) :=
  (List.filter_append_perm (fun g : Crate × Option Source => !decide (Defines g.1 x)) files).symm

theorem pairwise_definersLast (x : String) :
    (definersLast files x).Pairwise fun g h => Defines g.1 x → Defines h.1 x := by
  rw [definersLast, List.pairwise_append]
  refine ⟨?_, ?_, ?_⟩
  · apply List.pairwise_of_forall_mem_list
    intro g inFront h _ defines
    have undefined := (List.mem_filter.mp inFront).2
    simp [defines] at undefined
  · apply List.pairwise_of_forall_mem_list
    intro g _ h inBack _
    simpa using (List.mem_filter.mp inBack).2
  · intro g _ h inBack _
    simpa using (List.mem_filter.mp inBack).2

section Tells

variable (same : ∀ files' : List (Crate × Option Source), files.Perm files' →
  ∀ (ty : Ty) (trait : TraitId),
    (indexed extra files').implements trait ty = (indexed extra files).implements trait ty)

include same

/-- Where the answers do not depend on the order, neither do the entries that they show. -/
theorem mem_impls_of_same (files' : List (Crate × Option Source)) (perm : files.Perm files')
    (p n : String) (few : definitionCount files n ≤ 1)
    (shows : ¬(p = StdLibrary.defaultTrait ∧ definitionCount files n = 0 ∧
      KnownDefault extra n)) :
    (p, n) ∈ (indexed extra files').impls ↔ (p, n) ∈ (indexed extra files).impls := by
  have count := definitionCount_perm files files' perm n
  rw [← implements_bareType extra files p n few shows, ← same files' perm]
  rw [count] at few shows
  exact (implements_bareType extra files' p n few shows).symm

/-- The entry for the prelude tells which of the two files of a contested use was read first. -/
theorem knownDefault_of_contested (x p n : String) (known : StdLibrary.preludeTrait? x = some p)
    (contested : Contested files x n) (few : definitionCount files n ≤ 1) :
    p = StdLibrary.defaultTrait ∧ definitionCount files n = 0 ∧ KnownDefault extra n := by
  obtain ⟨-, ⟨definer, inFiles, defines⟩, user, userInFiles, uses, undefined⟩ := contested
  obtain ⟨rest, userFirst⟩ := exists_perm_cons files user userInFiles
  obtain ⟨others, definerFirst⟩ := exists_perm_cons files definer inFiles
  by_contra shows
  have entry : (p, n) ∈ (indexed extra files).impls :=
    (mem_impls_of_same extra files same _ userFirst p n few shows).mp
      (mem_impls_user_first extra rest x p n known user uses undefined)
  have noEntry : (p, n) ∉ (indexed extra (definer :: others)).impls :=
    not_mem_impls_definer_first extra others x p n known definer defines
  exact noEntry ((mem_impls_of_same extra files same _ definerFirst p n few shows).mpr entry)

/-- For a type without a definition the entry for the trait of the crate tells the order, unless a
file that defines the trait writes an `impl` of it. -/
theorem writes_of_contested (x p n : String) (known : StdLibrary.preludeTrait? x = some p)
    (contested : Contested files x n) (none : definitionCount files n = 0) :
    ∃ g ∈ files, Defines g.1 x ∧ Writes g.1 x n := by
  obtain ⟨-, ⟨definer, inFiles, defines⟩, user, userInFiles, uses, undefined⟩ := contested
  obtain ⟨others, definerFirst⟩ := exists_perm_cons files definer inFiles
  have underived := not_derives_of_undefined files x n none
  have writes : Writes user.1 x n := uses.resolve_left (underived user userInFiles)
  have userIsOther : user ∈ others := by
    rcases List.mem_cons.mp (definerFirst.mem_iff.mp userInFiles) with rfl | later
    · exact (undefined defines).elim
    · exact later
  have few : definitionCount files n ≤ 1 := by omega
  have shows : ¬("crate::" ++ x = StdLibrary.defaultTrait ∧ definitionCount files n = 0 ∧
      KnownDefault extra n) := by
    rintro ⟨path, -⟩
    exact preludeTrait?_ne_crate "Default" x (preludeTrait?_default.trans (congrArg some path.symm))
  have entry : ("crate::" ++ x, n) ∈ (indexed extra files).impls :=
    (mem_impls_of_same extra files same _ definerFirst _ n few shows).mp
      (mem_impls_definer_first extra others x p n known definer user defines userIsOther writes)
  have sortedPerm := perm_definersLast files x
  by_contra noneWrites
  have noEntry : ("crate::" ++ x, n) ∉ (indexed extra (definersLast files x)).impls := by
    apply not_mem_impls_definers_last extra (definersLast files x) x p n known
      (pairwise_definersLast files x)
    · intro g listed
      exact underived g (sortedPerm.mem_iff.mpr listed)
    · intro g listed defines writes
      exact noneWrites ⟨g, sortedPerm.mem_iff.mpr listed, defines, writes⟩
  exact noEntry ((mem_impls_of_same extra files same _ sortedPerm _ n few shows).mpr entry)

end Tells

/-- The answers are the same for every order of the files exactly where all that is contested is
masked. -/
theorem implements_perm_iff :
    (∀ files' : List (Crate × Option Source), files.Perm files' → ∀ (ty : Ty) (trait : TraitId),
      (indexed extra files').implements trait ty = (indexed extra files).implements trait ty) ↔
    ∀ x n, Contested files x n → Masked extra files x n := by
  constructor
  · intro same x n contested
    obtain ⟨p, known⟩ := Option.isSome_iff_exists.mp contested.prelude
    rcases Nat.lt_or_ge (definitionCount files n) 2 with few | many
    · obtain ⟨path, none, knownDefault⟩ :=
        knownDefault_of_contested extra files same x p n known contested (by omega)
      have name : x = "Default" :=
        preludeTrait?_injective x "Default" p known (path ▸ preludeTrait?_default)
      exact .inr ⟨name, none, knownDefault,
        writes_of_contested extra files same x p n known contested none⟩
    · exact .inl many
  · intro masked files' perm ty trait
    exact (implements_of_agree _ _ (agree_of_masked extra files masked files' perm) trait ty).symm

/-! The smallest project in which the order tells: `struct S; impl Default for S {}` in one file and
`trait Default {}` in another. -/

def sampleUser : Crate :=
  ⟨[.typeDef {
      form := .struct .unit [], name := "S", generics := {}, derives := [], vis := .hidden,
      span := ⟨0, 9, 0⟩ },
    .impl {
      generics := {}, trait := some (bareType "Default"), selfTy := bareType "S", items := [],
      span := ⟨10, 31, 0⟩, exported := true }], ⟨0, 31, 0⟩⟩

def sampleDefiner : Crate := ⟨[.traitDef ⟨"Default", .hidden, ⟨0, 16, 0⟩⟩], ⟨0, 16, 0⟩⟩

/-- The answers do depend on the order: whether `S` is `Default` turns on which of the two files is
read first. -/
theorem not_implements_perm :
    ¬∀ (extra : List String) (files files' : List (Crate × Option Source)), files.Perm files' →
      ∀ (ty : Ty) (trait : TraitId),
        (indexed extra files').implements trait ty = (indexed extra files).implements trait ty := by
  intro same
  have swapped := same [] [(sampleUser, none), (sampleDefiner, none)]
    [(sampleDefiner, none), (sampleUser, none)] (List.Perm.swap _ _ _) (bareType "S")
    ⟨StdLibrary.defaultTrait⟩
  have userItems : (Node.crate sampleUser).items = sampleUser.items := by
    rw [Node.items, Node.walk_eq_preorder]
    rfl
  have definerItems : (Node.crate sampleDefiner).items = sampleDefiner.items := by
    rw [Node.items, Node.walk_eq_preorder]
    rfl
  simp only [indexed, ofCrates, value_foldlM_addLogged, List.foldl_cons, List.foldl_nil, add,
    userItems, definerItems] at swapped
  revert swapped
  decide

end RustLint.CrateIndex
