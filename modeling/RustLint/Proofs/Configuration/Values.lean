import RustLint.Config
import RustLint.Proofs.Index.Names
import RustLint.Proofs.Text.Strip

set_option autoImplicit false

namespace RustLint

namespace Text

/-! Segments that are joined are the segments of the path. -/

theorem splitAtColons_ne_nil (cs : List Char) : splitAtColons cs ≠ [] := by
  fun_cases splitAtColons cs <;> simp

theorem intercalate_splitAtColons (cs : List Char) :
    [':', ':'].intercalate (splitAtColons cs) = cs := by
  induction cs using splitAtColons.induct with
  | case1 => rfl
  | case2 rest ih =>
    obtain ⟨segment, segments, split⟩ := List.exists_cons_of_ne_nil (splitAtColons_ne_nil rest)
    rw [split] at ih
    rw [splitAtColons, split, List.intercalate_cons_cons, ih]
    rfl
  | case3 c rest overlap nothing => exact absurd nothing (splitAtColons_ne_nil rest)
  | case4 c rest overlap segment segments split ih =>
    rw [split] at ih
    rw [splitAtColons.eq_3 _ _ overlap, split, ← ih]
    cases segments with
    | nil => simp [List.intercalate_singleton]
    | cons next segments => simp [List.intercalate_cons_cons]

theorem splitAtColons_of_no_colon (segment : List Char) (noColon : ':' ∉ segment) :
    splitAtColons segment = [segment] := by
  induction segment with
  | nil => rfl
  | cons c segment ih =>
    rw [List.mem_cons, not_or] at noColon
    rw [splitAtColons.eq_3 _ _ (fun _ colon _ => noColon.1 colon.symm), ih noColon.2]

theorem splitAtColons_append (segment behind : List Char) (noColon : ':' ∉ segment) :
    splitAtColons (segment ++ ':' :: ':' :: behind) = segment :: splitAtColons behind := by
  induction segment with
  | nil => rfl
  | cons c segment ih =>
    rw [List.mem_cons, not_or] at noColon
    rw [List.cons_append, splitAtColons.eq_3 _ _ (fun _ colon _ => noColon.1 colon.symm),
      ih noColon.2]

theorem splitAtColons_intercalate (segments : List (List Char)) (some : segments ≠ [])
    (noColon : ∀ segment ∈ segments, ':' ∉ segment) :
    splitAtColons ([':', ':'].intercalate segments) = segments := by
  induction segments with
  | nil => exact absurd rfl some
  | cons segment segments ih =>
    rw [List.forall_mem_cons] at noColon
    cases segments with
    | nil =>
      rw [List.intercalate_singleton]
      exact splitAtColons_of_no_colon segment noColon.1
    | cons next segments =>
      rw [List.intercalate_cons_cons, List.append_assoc]
      exact (splitAtColons_append segment _ noColon.1).trans
        (congrArg (segment :: ·) (ih (List.cons_ne_nil _ _) noColon.2))

end Text

namespace Config

/-- The texts of a list of texts; nothing at all stands for no texts. -/
inductive IsStrings : Setting → List String → Prop
  | absent : IsStrings .absent []
  | list (texts : List String) : IsStrings (.list (texts.map .text)) texts

/-- Identifiers with double colons between them, and perhaps one in front. -/
def IsPath (cs : List Char) : Prop :=
  ∃ front segments, (front = [] ∨ front = [':', ':']) ∧ segments ≠ [] ∧
    (∀ segment ∈ segments, isIdentifier segment = true) ∧
    cs = front ++ [':', ':'].intercalate segments

/-- The text is blank or names a lint or all lints, however that is written. -/
def NamesLint (written : String) : Prop :=
  Text.strip written = "" ∨ Lint.normalize written ∈ allowable

/-- What stands under the `paths` of the value: a table, or nothing at all for no paths. -/
inductive IsIgnoreTable : Setting → List String → Prop
  | absent : IsIgnoreTable .absent []
  | table (entries : Setting.Entries) (texts : List String)
      (paths : IsStrings ((entries.lookup "paths").getD (.list [])) texts) :
      IsIgnoreTable (.table entries) texts

/-! Lists of texts. -/

theorem texts?_cons_text (text : String) (items : List Setting) :
    texts? (.text text :: items) = (texts? items).map (text :: ·) := by
  rw [texts?]
  cases texts? items <;> rfl

theorem texts?_eq_some_iff (items : List Setting) (texts : List String) :
    texts? items = some texts ↔ items = texts.map .text := by
  induction items generalizing texts with
  | nil => cases texts <;> simp [texts?]
  | cons item items ih =>
    cases item with
    | text written =>
      rw [texts?_cons_text, Option.map_eq_some_iff]
      constructor
      · rintro ⟨rest, read, rfl⟩
        rw [(ih rest).mp read, List.map_cons]
      · intro same
        cases texts with
        | nil => cases same
        | cons text texts =>
          rw [List.map_cons] at same
          obtain ⟨first, rest⟩ := List.cons.inj same
          exact ⟨texts, (ih texts).mpr rest, by rw [Setting.text.inj first]⟩
    | absent | scalar | list | table => cases texts <;> exact iff_of_false nofun nofun

theorem isStrings_list_iff (items : List Setting) (texts : List String) :
    IsStrings (.list items) texts ↔ texts? items = some texts := by
  rw [texts?_eq_some_iff]
  constructor
  · rintro ⟨⟩
    rfl
  · rintro rfl
    exact .list texts

section

variable (key : String) (value : Setting)

theorem stringsOf_eq_ok_iff (strings : List String) : stringsOf key value = .ok strings ↔
    ∃ texts, IsStrings value texts ∧ strings = texts.map Text.strip := by
  cases value with
  | absent =>
    constructor
    · rintro ⟨⟩
      exact ⟨[], .absent, rfl⟩
    · rintro ⟨texts, ⟨⟩, rfl⟩
      rfl
  | list items =>
    simp only [isStrings_list_iff, stringsOf]
    cases texts? items with
    | none => simp
    | some texts => simp [eq_comm]
  | text | scalar | table => exact iff_of_false nofun nofun

theorem stringsOf_eq_error_iff (e : ConfigError) : stringsOf key value = .error e ↔
    (∀ texts, ¬IsStrings value texts) ∧ e = .notStrings key := by
  have refused : (Except.error (ConfigError.notStrings key) : Except ConfigError (List String)) =
      .error e ↔ e = .notStrings key := by rw [Except.error.injEq, eq_comm]
  cases value with
  | absent => exact iff_of_false nofun fun both => both.1 [] .absent
  | list items =>
    simp only [isStrings_list_iff, stringsOf]
    cases texts? items with
    | none => simpa using refused
    | some texts => simp
  | text | scalar | table =>
    rw [and_iff_right (fun _ => nofun)]
    exact refused

/-! Names of lints. -/

theorem normalize_strip (written : String) :
    Lint.normalize (Text.strip written) = Lint.normalize written := by
  rw [Lint.normalize, Lint.normalize, Text.strip_strip]

/-- The name of a lint is written as it is. -/
theorem of_mem_allowable (name : String) (listed : name ∈ allowable) :
    Text.strip name = name ∧ name ≠ "" ∧ Lint.normalize name = name := by
  have each : ∀ name ∈ allowable,
      Text.strip name = name ∧ name ≠ "" ∧ Lint.normalize name = name := by decide +kernel
  exact each name listed

instance (written : String) : Decidable (NamesLint written) := inferInstanceAs (Decidable (_ ∨ _))

/-- The names of the lints that a list of texts names, where they all name lints; else the first
that does not is complained about. -/
theorem lintsOf_map_strip (texts : List String) : lintsOf key (texts.map Text.strip) =
    match texts.find? fun written => ¬NamesLint written with
    | some written => .error (.unknownLint key (Text.strip written))
    | none => .ok ((texts.filter (Text.strip · ≠ "")).map Lint.normalize) := by
  induction texts with
  | nil => rfl
  | cons written texts ih =>
    have known : allowable.contains (Lint.normalize (Text.strip written)) =
        decide (Lint.normalize written ∈ allowable) := by
      rw [normalize_strip, List.contains_eq_mem]
    rw [List.map_cons, lintsOf, known]
    by_cases blank : Text.strip written = ""
    · have names : NamesLint written := .inl blank
      rw [if_pos blank, ih, List.find?_cons_of_neg (by simpa using names),
        List.filter_cons_of_neg (by simpa using blank)]
    rw [if_neg blank]
    by_cases lint : Lint.normalize written ∈ allowable
    · have names : NamesLint written := .inr lint
      rw [if_pos (decide_eq_true lint), ih, List.find?_cons_of_neg (by simpa using names),
        List.filter_cons_of_pos (by simpa using blank), normalize_strip]
      cases texts.find? fun written => ¬NamesLint written <;> rfl
    · have unknown : ¬NamesLint written := not_or.mpr ⟨blank, lint⟩
      rw [if_neg (by simpa using lint), List.find?_cons_of_pos (by simpa using unknown)]

end

/-! Paths of traits. -/

theorem isTraitPath_iff (path : String) : isTraitPath path = true ↔ IsPath path.toList := by
  constructor
  · intro loadable
    have joined (bare : List Char) (identifiers : (Text.splitAtColons bare).all isIdentifier = true)
        (front : List Char) (isFront : front = [] ∨ front = [':', ':']) : IsPath (front ++ bare) :=
      ⟨front, Text.splitAtColons bare, isFront, Text.splitAtColons_ne_nil bare,
        List.all_eq_true.mp identifiers, by rw [Text.intercalate_splitAtColons]⟩
    rw [isTraitPath] at loadable
    split at loadable
    · next rest chars =>
      rw [chars]
      exact joined rest loadable [':', ':'] (.inr rfl)
    · exact joined path.toList loadable [] (.inl rfl)
  · rintro ⟨front, segments, isFront, some, identifiers, chars⟩
    have noColon : ∀ segment ∈ segments, ':' ∉ segment := by
      intro segment listed colon
      have visible := CrateIndex.visible_of_isIdentifier segment (identifiers segment listed)
      exact (visible ':' colon).1 rfl
    have split :
        (Text.splitAtColons ([':', ':'].intercalate segments)).all isIdentifier = true := by
      rw [Text.splitAtColons_intercalate segments some noColon, List.all_eq_true]
      exact identifiers
    rw [isTraitPath, chars]
    rcases isFront with rfl | rfl
    · rw [List.nil_append]
      split
      · next rest colons =>
        -- An identifier stands in front, and it does not begin with a colon.
        rw [colons] at split
        cases split
      · exact split
    · exact split

section

variable (key : String) (value : Setting)

theorem traitOf_eq_ok_iff (path : String) : traitOf key value = .ok path ↔
    ∃ written, value = .text written ∧ IsPath (Text.strip written).toList ∧
      path = Text.strip written := by
  cases value with
  | text written =>
    simp only [traitOf, text?, ← isTraitPath_iff, Setting.text.injEq, exists_eq_left']
    split
    · next loadable => simp [loadable, eq_comm]
    · next refused => simp [refused]
  | absent | scalar | list | table => exact iff_of_false nofun nofun

theorem traitOf_eq_error_iff (e : ConfigError) : traitOf key value = .error e ↔
    (∀ written, value = .text written → ¬IsPath (Text.strip written).toList) ∧
      e = .notTraitPath key := by
  have refused : (Except.error (ConfigError.notTraitPath key) : Except ConfigError String) =
      .error e ↔ e = .notTraitPath key := by rw [Except.error.injEq, eq_comm]
  cases value with
  | text written =>
    simp only [traitOf, text?, ← isTraitPath_iff, Setting.text.injEq, forall_eq']
    split
    · next loadable => simp [loadable]
    · next wrong => rw [and_iff_right wrong, refused]
  | absent | scalar | list | table =>
    rw [and_iff_right (fun _ => nofun)]
    exact refused

/-! Tables of paths. -/

theorem isIgnoreTable_table_iff (entries : Setting.Entries) (texts : List String) :
    IsIgnoreTable (.table entries) texts ↔
      IsStrings ((entries.lookup "paths").getD (.list [])) texts := by
  constructor
  · rintro ⟨⟩
    assumption
  · exact .table entries texts

theorem ignoreOf_eq_ok_iff (paths : List String) : ignoreOf key value = .ok paths ↔
    ∃ texts, IsIgnoreTable value texts ∧ paths = texts.map Text.strip := by
  cases value with
  | absent =>
    constructor
    · rintro ⟨⟩
      exact ⟨[], .absent, rfl⟩
    · rintro ⟨texts, ⟨⟩, rfl⟩
      rfl
  | table entries => simp only [isIgnoreTable_table_iff, ignoreOf, stringsOf_eq_ok_iff]
  | text | scalar | list => exact iff_of_false nofun nofun

theorem ignoreOf_eq_error_iff (e : ConfigError) : ignoreOf key value = .error e ↔
    (value ≠ .absent ∧ (∀ entries, value ≠ .table entries) ∧ e = .notTable key) ∨
      ∃ entries, value = .table entries ∧
        (∀ texts, ¬IsStrings ((entries.lookup "paths").getD (.list [])) texts) ∧
          e = .notStrings (key ++ ".paths") := by
  cases value with
  | absent => simp [ignoreOf]
  | table entries => simp [ignoreOf, stringsOf_eq_error_iff]
  | text | scalar | list => simp [ignoreOf, eq_comm]

end

end Config

end RustLint
