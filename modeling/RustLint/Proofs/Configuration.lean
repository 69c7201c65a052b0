import RustLint.Proofs.Configuration.Values
import RustLint.Proofs.Lowering.Success

set_option autoImplicit false

namespace RustLint

open Lowering (bind_eq_ok pure_eq_ok)

/-- The error of a computation that ends with one. -/
def error? {ε α : Type} : Except ε α → Option ε
  | .ok _ => none
  | .error e => some e

theorem error?_eq_some_iff {ε α : Type} (x : Except ε α) (e : ε) :
    error? x = some e ↔ x = .error e := by
  cases x <;> simp [error?]

theorem error?_eq_none_iff {ε α : Type} (x : Except ε α) :
    error? x = none ↔ ∃ a, x = .ok a := by
  cases x <;> simp [error?]

/-- The first of the two errors. -/
theorem error?_bind {ε α β : Type} (x : Except ε α) (next : α → Except ε β) (later : Option ε)
    (same : ∀ a, error? (next a) = later) : error? (x >>= next) = (error? x).or later := by
  cases x with
  | error e => rfl
  | ok a => exact same a

namespace Config

/-- The keys of a configuration. -/
inductive Key where
  | allow
  | defaultTrait
  | defaultTypes
  | ignore
  deriving DecidableEq, Repr

namespace Key

/-- The keys in the order in which they are checked. -/
def all : List Key := [allow, defaultTrait, defaultTypes, ignore]

theorem mem_all (key : Key) : key ∈ all := by cases key <;> decide

def name : Key → String
  | allow => "allow"
  | defaultTrait => "default-trait"
  | defaultTypes => "default-types"
  | ignore => "ignore"

/-- What the table has under the key, or else under the same key with underscores; a key that it
does not have stands for the default. -/
def valueIn (entries : Setting.Entries) : Key → Setting
  | allow => (entries.lookup "allow").getD (.list [])
  | defaultTrait =>
    valueOf entries "default-trait" "default_trait" (.text StdLibrary.defaultTrait)
  | defaultTypes => valueOf entries "default-types" "default_types" (.list [])
  | ignore => (entries.lookup "ignore").getD (.table [])

/-- The key takes the value. -/
def Takes : Key → Setting → Prop
  | allow, value => ∃ texts, IsStrings value texts ∧ ∀ written ∈ texts, NamesLint written
  | defaultTrait, value => ∃ written, value = .text written ∧ IsPath (Text.strip written).toList
  | defaultTypes, value => ∃ texts, IsStrings value texts
  | ignore, value => ∃ texts, IsIgnoreTable value texts

/-- The error for a value that the key does not take, in a table whose keys are known by the place
in front of them. -/
inductive Refuses (place : String) : Key → Setting → ConfigError → Prop
  | noLints (value : Setting) (noStrings : ∀ texts, ¬IsStrings value texts) :
      Refuses place allow value (.notStrings (place ++ "allow"))
  | unknownLint (value : Setting) (before after : List String) (written : String)
      (listed : IsStrings value (before ++ written :: after))
      (known : ∀ other ∈ before, NamesLint other) (unknown : ¬NamesLint written) :
      Refuses place allow value (.unknownLint (place ++ "allow") (Text.strip written))
  | noTraitPath (value : Setting)
      (noPath : ∀ written, value = .text written → ¬IsPath (Text.strip written).toList) :
      Refuses place defaultTrait value (.notTraitPath (place ++ "default-trait"))
  | noTypes (value : Setting) (noStrings : ∀ texts, ¬IsStrings value texts) :
      Refuses place defaultTypes value (.notStrings (place ++ "default-types"))
  | noTable (value : Setting) (some : value ≠ .absent)
      (noTable : ∀ entries, value ≠ .table entries) :
      Refuses place ignore value (.notTable (place ++ "ignore"))
  | noPaths (entries : Setting.Entries)
      (noStrings : ∀ texts, ¬IsStrings ((entries.lookup "paths").getD (.list [])) texts) :
      Refuses place ignore (.table entries) (.notStrings (place ++ "ignore" ++ ".paths"))

/-- The error that reading the value of the key ends with. -/
def error? (place : String) : Key → Setting → Option ConfigError
  | allow, value => RustLint.error? (allowOf (place ++ "allow") value)
  | defaultTrait, value => RustLint.error? (traitOf (place ++ "default-trait") value)
  | defaultTypes, value => RustLint.error? (stringsOf (place ++ "default-types") value)
  | ignore, value => RustLint.error? (ignoreOf (place ++ "ignore") value)

end Key

/-! The lints that are switched off. -/

section

variable (key : String) (value : Setting)

/-- What becomes of a list of texts: the names of the lints that they name, in the order of all
lints, or an error about the first that names none. -/
theorem allowOf_of_isStrings (texts : List String) (strings : IsStrings value texts) :
    allowOf key value =
      match texts.find? fun written => ¬NamesLint written with
      | some written => .error (.unknownLint key (Text.strip written))
      | none => .ok (allowable.filter fun name =>
          ((texts.filter (Text.strip · ≠ "")).map Lint.normalize).contains name) := by
  have read : stringsOf key value = .ok (texts.map Text.strip) :=
    (stringsOf_eq_ok_iff key value _).mpr ⟨texts, strings, rfl⟩
  rw [allowOf, read]
  change (do let lints ← lintsOf key (texts.map Text.strip); _) = _
  rw [lintsOf_map_strip]
  cases texts.find? fun written => ¬NamesLint written <;> rfl

theorem allowOf_of_noStrings (noStrings : ∀ texts, ¬IsStrings value texts) :
    allowOf key value = .error (.notStrings key) := by
  have read : stringsOf key value = .error (.notStrings key) :=
    (stringsOf_eq_error_iff key value _).mpr ⟨noStrings, rfl⟩
  rw [allowOf, read]
  rfl

end

/-! One key. -/

namespace Key

variable (place : String) (key : Key) (value : Setting)

/-- What a key takes is read without an error. -/
theorem error?_of_takes (takes : key.Takes value) : key.error? place value = none := by
  cases key with
  | allow =>
    obtain ⟨texts, strings, known⟩ := takes
    rw [error?, allowOf_of_isStrings _ _ texts strings,
      List.find?_eq_none.mpr (by simpa using known)]
    rfl
  | defaultTrait =>
    obtain ⟨written, isText, path⟩ := takes
    exact (error?_eq_none_iff _).mpr ⟨_, (traitOf_eq_ok_iff _ _ _).mpr ⟨written, isText, path, rfl⟩⟩
  | defaultTypes =>
    obtain ⟨texts, strings⟩ := takes
    exact (error?_eq_none_iff _).mpr ⟨_, (stringsOf_eq_ok_iff _ _ _).mpr ⟨texts, strings, rfl⟩⟩
  | ignore =>
    obtain ⟨texts, paths⟩ := takes
    exact (error?_eq_none_iff _).mpr ⟨_, (ignoreOf_eq_ok_iff _ _ _).mpr ⟨texts, paths, rfl⟩⟩

theorem error?_of_refuses (e : ConfigError) (refuses : key.Refuses place value e) :
    key.error? place value = some e := by
  cases refuses with
  | noLints _ noStrings => rw [error?, allowOf_of_noStrings _ value noStrings]; rfl
  | unknownLint _ before after written listed known unknown =>
    have first : (before ++ written :: after).find? (fun other => ¬NamesLint other) =
        some written := by
      rw [List.find?_eq_some_iff_append]
      exact ⟨by simpa using unknown, before, after, rfl, by simpa using known⟩
    rw [error?, allowOf_of_isStrings _ value _ listed, first]
    rfl
  | noTraitPath _ noPath =>
    exact (error?_eq_some_iff _ _).mpr ((traitOf_eq_error_iff _ value _).mpr ⟨noPath, rfl⟩)
  | noTypes _ noStrings =>
    exact (error?_eq_some_iff _ _).mpr ((stringsOf_eq_error_iff _ value _).mpr ⟨noStrings, rfl⟩)
  | noTable _ some noTable =>
    exact (error?_eq_some_iff _ _).mpr
      ((ignoreOf_eq_error_iff _ value _).mpr (.inl ⟨some, noTable, rfl⟩))
  | noPaths entries noStrings =>
    exact (error?_eq_some_iff _ _).mpr
      ((ignoreOf_eq_error_iff _ _ _).mpr (.inr ⟨entries, rfl, noStrings, rfl⟩))

/-- Each value is taken or refused. -/
theorem takes_or_refuses : key.Takes value ∨ ∃ e, key.Refuses place value e := by
  cases key with
  | allow =>
    by_cases some : ∃ texts, IsStrings value texts
    · obtain ⟨texts, strings⟩ := some
      cases first : texts.find? fun written => ¬NamesLint written with
      | none => exact .inl ⟨texts, strings, by simpa using first⟩
      | some written =>
        obtain ⟨unknown, before, after, rfl, known⟩ := List.find?_eq_some_iff_append.mp first
        exact .inr ⟨_, .unknownLint value before after written strings (by simpa using known)
          (by simpa using unknown)⟩
    · exact .inr ⟨_, .noLints value (not_exists.mp some)⟩
  | defaultTrait =>
    by_cases takes : Takes defaultTrait value
    · exact .inl takes
    · refine .inr ⟨_, .noTraitPath value fun written isText path => ?_⟩
      exact takes ⟨written, isText, path⟩
  | defaultTypes =>
    by_cases some : ∃ texts, IsStrings value texts
    · exact .inl some
    · exact .inr ⟨_, .noTypes value (not_exists.mp some)⟩
  | ignore =>
    cases value with
    | absent => exact .inl ⟨[], .absent⟩
    | table entries =>
      by_cases some : ∃ texts, IsStrings ((entries.lookup "paths").getD (.list [])) texts
      · obtain ⟨texts, paths⟩ := some
        exact .inl ⟨texts, .table entries texts paths⟩
      · exact .inr ⟨_, .noPaths entries (not_exists.mp some)⟩
    | text | scalar | list => exact .inr ⟨_, .noTable _ nofun nofun⟩

theorem error?_eq_none_iff_takes : key.error? place value = none ↔ key.Takes value := by
  refine ⟨fun none => ?_, error?_of_takes place key value⟩
  rcases takes_or_refuses place key value with takes | ⟨e, refuses⟩
  · exact takes
  · rw [error?_of_refuses place key value e refuses] at none
    cases none

theorem error?_eq_some_iff_refuses (e : ConfigError) :
    key.error? place value = some e ↔ key.Refuses place value e := by
  refine ⟨fun found => ?_, error?_of_refuses place key value e⟩
  rcases takes_or_refuses place key value with takes | ⟨e', refuses⟩
  · rw [error?_of_takes place key value takes] at found
    cases found
  · rw [error?_of_refuses place key value e' refuses] at found
    exact Option.some.inj found ▸ refuses

end Key

/-- The table is read key by key, up to the first error. -/
theorem error?_ofTable (place : String) (entries : Setting.Entries) :
    error? (ofTable place entries) =
      Key.all.findSome? fun key => key.error? place (key.valueIn entries) := by
  have first (key : Key) (keys : List Key) (f : Key → Option ConfigError) :
      (key :: keys).findSome? f = (f key).or (keys.findSome? f) := by
    rw [List.findSome?_cons]
    cases f key <;> rfl
  rw [Key.all, first, first, first, first, ofTable]
  apply error?_bind
  intro allow
  apply error?_bind
  intro trait
  apply error?_bind
  intro types
  apply error?_bind
  intro paths
  rfl

/-! What is read. -/

/-- The configuration holds what the table has: the lints that are named, the path and the texts
without blanks around them, and of the types those that are not empty. -/
structure Holds (config : Config) (entries : Setting.Entries) : Prop where
  allow : ∃ texts, IsStrings (Key.allow.valueIn entries) texts ∧
    ∀ lint, lint ∈ config.allow ↔
      ∃ written ∈ texts, Text.strip written ≠ "" ∧ Lint.normalize written = lint
  trait : ∃ written, Key.defaultTrait.valueIn entries = .text written ∧
    config.defaultTrait = Text.strip written
  types : ∃ texts, IsStrings (Key.defaultTypes.valueIn entries) texts ∧
    config.defaultTypes = (texts.map Text.strip).filter (· != "")
  ignore : ∃ texts, IsIgnoreTable (Key.ignore.valueIn entries) texts ∧
    config.ignorePaths = texts.map Text.strip

/-- The configuration as a table. -/
def toTable (config : Config) : Setting.Entries := [
  ("allow", .list (config.allow.map .text)),
  ("default-trait", .text config.defaultTrait),
  ("default-types", .list (config.defaultTypes.map .text)),
  ("ignore", .table [("paths", .list (config.ignorePaths.map .text))])]

/-- The configuration has the form of one that was read: the lints in the order of all lints, and
all texts without blanks around them. -/
structure IsNormal (config : Config) : Prop where
  allow : ∃ lints : List String, config.allow = allowable.filter fun name => lints.contains name
  trait : IsPath config.defaultTrait.toList ∧ Text.strip config.defaultTrait = config.defaultTrait
  types : ∀ text ∈ config.defaultTypes, text ≠ "" ∧ Text.strip text = text
  ignore : ∀ text ∈ config.ignorePaths, Text.strip text = text

theorem ofTable_eq_ok_iff (place : String) (entries : Setting.Entries) (config : Config) :
    ofTable place entries = .ok config ↔
      allowOf (place ++ "allow") (Key.allow.valueIn entries) = .ok config.allow ∧
      traitOf (place ++ "default-trait") (Key.defaultTrait.valueIn entries) =
        .ok config.defaultTrait ∧
      (∃ types, stringsOf (place ++ "default-types") (Key.defaultTypes.valueIn entries) =
        .ok types ∧ config.defaultTypes = types.filter (· != "")) ∧
      ignoreOf (place ++ "ignore") (Key.ignore.valueIn entries) = .ok config.ignorePaths := by
  simp only [ofTable, bind_eq_ok, pure_eq_ok]
  constructor
  · rintro ⟨allow, lints, trait, path, types, texts, paths, ignored, rfl⟩
    exact ⟨lints, path, ⟨types, texts, rfl⟩, ignored⟩
  · rintro ⟨lints, path, ⟨types, texts, kept⟩, ignored⟩
    exact ⟨_, lints, _, path, types, texts, _, ignored, by rw [← kept]⟩

theorem exists_texts_of_allowOf (key : String) (value : Setting) (allow : List String)
    (read : allowOf key value = .ok allow) :
    ∃ texts, IsStrings value texts ∧ (∀ written ∈ texts, NamesLint written) ∧
      allow = allowable.filter fun name =>
        ((texts.filter (Text.strip · ≠ "")).map Lint.normalize).contains name := by
  by_cases some : ∃ texts, IsStrings value texts
  · obtain ⟨texts, strings⟩ := some
    rw [allowOf_of_isStrings key value texts strings] at read
    split at read
    · cases read
    · next none =>
      cases read
      exact ⟨texts, strings, by simpa using none, rfl⟩
  · rw [allowOf_of_noStrings key value (not_exists.mp some)] at read
    cases read

theorem holds_of_ofTable (place : String) (entries : Setting.Entries) (config : Config)
    (read : ofTable place entries = .ok config) : config.Holds entries := by
  obtain ⟨lints, path, ⟨types, strings, kept⟩, ignored⟩ :=
    (ofTable_eq_ok_iff place entries config).mp read
  obtain ⟨texts, listed, known, allow⟩ := exists_texts_of_allowOf _ _ _ lints
  obtain ⟨written, isText, -, trait⟩ := (traitOf_eq_ok_iff _ _ _).mp path
  obtain ⟨typeTexts, typeList, rfl⟩ := (stringsOf_eq_ok_iff _ _ _).mp strings
  refine ⟨⟨texts, listed, fun lint => ?_⟩, ⟨written, isText, trait⟩, ⟨typeTexts, typeList, kept⟩,
    (ignoreOf_eq_ok_iff _ _ _).mp ignored⟩
  have named : lint ∈ (texts.filter (Text.strip · ≠ "")).map Lint.normalize ↔
      ∃ written ∈ texts, Text.strip written ≠ "" ∧ Lint.normalize written = lint := by
    simp only [List.mem_map, List.mem_filter, decide_eq_true_eq, and_assoc]
  rw [allow, List.mem_filter, List.contains_iff_mem, named, and_iff_right_iff_imp]
  rintro ⟨written, inTexts, some, rfl⟩
  exact (known written inTexts).resolve_left some

/-- What was read is in its normal form. -/
theorem isNormal_of_ofTable (place : String) (entries : Setting.Entries) (config : Config)
    (read : ofTable place entries = .ok config) : config.IsNormal := by
  obtain ⟨lints, path, ⟨types, strings, kept⟩, ignored⟩ :=
    (ofTable_eq_ok_iff place entries config).mp read
  obtain ⟨texts, -, -, allow⟩ := exists_texts_of_allowOf _ _ _ lints
  obtain ⟨written, -, isPath, trait⟩ := (traitOf_eq_ok_iff _ _ _).mp path
  obtain ⟨typeTexts, -, rfl⟩ := (stringsOf_eq_ok_iff _ _ _).mp strings
  obtain ⟨pathTexts, -, paths⟩ := (ignoreOf_eq_ok_iff _ _ _).mp ignored
  have stripped (texts : List String) : ∀ text ∈ texts.map Text.strip, Text.strip text = text := by
    rw [List.forall_mem_map]
    exact fun written _ => Text.strip_strip written
  refine ⟨⟨_, allow⟩, by rw [trait, Text.strip_strip]; exact ⟨isPath, rfl⟩, ?_, ?_⟩
  · intro text listed
    rw [kept, List.mem_filter, bne_iff_ne] at listed
    exact ⟨listed.2, stripped _ text listed.1⟩
  · rw [paths]
    exact stripped pathTexts

theorem allowOf_texts (key : String) (config : Config) (normal : config.IsNormal) :
    allowOf key (.list (config.allow.map .text)) = .ok config.allow := by
  obtain ⟨lints, allow⟩ := normal.allow
  have names (name : String) (listed : name ∈ config.allow) : name ∈ allowable := by
    rw [allow] at listed
    exact (List.mem_filter.mp listed).1
  have none : (config.allow.find? fun written => ¬NamesLint written) = none := by
    rw [List.find?_eq_none]
    intro name listed
    obtain ⟨-, -, same⟩ := of_mem_allowable name (names name listed)
    simpa [NamesLint, same] using fun _ => names name listed
  have whole : config.allow.filter (Text.strip · ≠ "") = config.allow := by
    rw [List.filter_eq_self]
    intro name listed
    obtain ⟨bare, some, -⟩ := of_mem_allowable name (names name listed)
    rw [bare, decide_eq_true_eq]
    exact some
  have same : config.allow.map Lint.normalize = config.allow := by
    refine (List.map_congr_left fun name listed => ?_).trans (List.map_id _)
    exact (of_mem_allowable name (names name listed)).2.2
  rw [allowOf_of_isStrings key _ _ (.list config.allow), none]
  dsimp only
  rw [whole, same]
  refine congrArg Except.ok ((List.filter_congr fun name listed => ?_).trans allow.symm)
  rw [allow, List.contains_eq_mem, List.contains_eq_mem, decide_eq_decide, List.mem_filter,
    and_iff_right listed, List.contains_iff_mem]

theorem stringsOf_texts (key : String) (texts : List String)
    (bare : ∀ text ∈ texts, Text.strip text = text) :
    stringsOf key (.list (texts.map .text)) = .ok texts :=
  (stringsOf_eq_ok_iff _ _ _).mpr ⟨texts, .list texts,
    ((List.map_congr_left bare).trans (List.map_id texts)).symm⟩

/-- From the table of a configuration in normal form the same configuration is read. -/
theorem ofTable_toTable (place : String) (config : Config) (normal : config.IsNormal) :
    ofTable place config.toTable = .ok config := by
  rw [ofTable_eq_ok_iff]
  refine ⟨allowOf_texts _ config normal, ?_, ⟨config.defaultTypes, ?_, ?_⟩, ?_⟩
  · obtain ⟨path, bare⟩ := normal.trait
    exact (traitOf_eq_ok_iff _ _ _).mpr ⟨config.defaultTrait, rfl, by rwa [bare], bare.symm⟩
  · exact stringsOf_texts _ _ fun text listed => (normal.types text listed).2
  · symm
    rw [List.filter_eq_self]
    intro text listed
    exact bne_iff_ne.mpr (normal.types text listed).1
  · exact stringsOf_texts _ _ normal.ignore

/-! The whole table. -/

/-- How errors about the value of a key call the key. -/
def Key.calledFor : Key → Setting → String
  | .ignore, .table _ => "ignore.paths"
  | key, _ => key.name

/-- The message of an error begins with the key, in back quotes. -/
theorem Key.Refuses.exists_message {place : String} {key : Key} {value : Setting} {e : ConfigError}
    (refuses : key.Refuses place value e) :
    ∃ reason, e.message = "`" ++ (place ++ key.calledFor value) ++ "`" ++ reason := by
  have strings : "` must be a list of strings." = "`" ++ " must be a list of strings." := by decide
  have path : "` must be a path such as `core::default::Default`." =
      "`" ++ " must be a path such as `core::default::Default`." := by decide
  have lints : "` contains unknown lint " = "`" ++ " contains unknown lint " := by decide
  have table : "` must be a table." = "`" ++ " must be a table." := by decide
  have inner : place ++ "ignore" ++ ".paths" = place ++ "ignore.paths" := by
    rw [String.append_assoc, show "ignore" ++ ".paths" = "ignore.paths" by decide]
  cases refuses with
  | noLints | noTypes =>
    exact ⟨_, by rw [ConfigError.message, strings, ← String.append_assoc]; rfl⟩
  | unknownLint _ before after written =>
    refine ⟨" contains unknown lint " ++ Text.quoted (Text.strip written) ++ ". Valid lints: " ++
      String.intercalate ", " Lint.names ++ ", all.", ?_⟩
    rw [ConfigError.message, lints]
    simp only [String.append_assoc]
    rfl
  | noTraitPath => exact ⟨_, by rw [ConfigError.message, path, ← String.append_assoc]; rfl⟩
  | noTable _ some noTable =>
    refine ⟨" must be a table.", ?_⟩
    rw [ConfigError.message, table, ← String.append_assoc]
    cases value with
    | table entries => exact absurd rfl (noTable entries)
    | absent | text | scalar | list => rfl
  | noPaths =>
    refine ⟨" must be a list of strings.", ?_⟩
    rw [ConfigError.message, strings, inner, ← String.append_assoc]
    rfl

/-- For every table. A configuration is read exactly when each key has a value that it takes.
Otherwise the error is about the first key that has not, in the order of the keys, and its message
begins with that key. What is read is what the table has, only known lints are switched off, and
from the table of the configuration the same configuration is read. -/
theorem ofTable_outcome (place : String) (entries : Setting.Entries) :
    ((∃ config, ofTable place entries = .ok config) ↔
        ∀ key : Key, key.Takes (key.valueIn entries)) ∧
      (∀ e, ofTable place entries = .error e ↔
        ∃ before key after, Key.all = before ++ key :: after ∧
          (∀ other ∈ before, other.Takes (other.valueIn entries)) ∧
          ¬key.Takes (key.valueIn entries) ∧ key.Refuses place (key.valueIn entries) e ∧
          ∃ reason, e.message =
            "`" ++ (place ++ key.calledFor (key.valueIn entries)) ++ "`" ++ reason) ∧
      ∀ config, ofTable place entries = .ok config →
        config.Holds entries ∧ config.allow ⊆ allowable ∧
          ∀ other, ofTable other config.toTable = .ok config := by
  refine ⟨?_, fun e => ?_, fun config read => ?_⟩
  · rw [← error?_eq_none_iff, error?_ofTable, List.findSome?_eq_none_iff]
    simp only [Key.error?_eq_none_iff_takes, Key.mem_all, true_imp_iff]
  · rw [← error?_eq_some_iff, error?_ofTable, List.findSome?_eq_some_iff]
    simp only [Key.error?_eq_none_iff_takes, Key.error?_eq_some_iff_refuses]
    constructor
    · rintro ⟨before, key, after, parts, refuses, taken⟩
      refine ⟨before, key, after, parts, taken, ?_, refuses, refuses.exists_message⟩
      rw [← Key.error?_eq_none_iff_takes place, key.error?_of_refuses _ _ e refuses]
      exact Option.some_ne_none e
    · rintro ⟨before, key, after, parts, taken, -, refuses, -⟩
      exact ⟨before, key, after, parts, refuses, taken⟩
  · have normal := isNormal_of_ofTable place entries config read
    refine ⟨holds_of_ofTable place entries config read, ?_, fun other =>
      ofTable_toTable other config normal⟩
    obtain ⟨lints, allow⟩ := normal.allow
    rw [allow]
    exact List.filter_sublist.subset

/-! A table whose texts are written in other ways than they are read. -/

def looseEntries : Setting.Entries := [
  ("default_trait", .text " ::core::default::Default\n"),
  ("allow", .list [.text " Clippy::New-Without-Default", .text "\t", .text "COLLAPSIBLE_IF "]),
  ("default-types", .list [.text "", .text " Arena"]),
  ("ignore", .table [("paths", .list [.text " target/ ", .text ""])])]

def looseConfig : Config where
  allow := ["collapsible_if", "new_without_default"]
  defaultTrait := "::core::default::Default"
  defaultTypes := ["Arena"]
  ignorePaths := ["target/", ""]

theorem ofTable_looseEntries : ofTable "" looseEntries = .ok looseConfig ∧
    ofTable "tool.ferrolint." looseConfig.toTable = .ok looseConfig ∧
    ofTable "" [("ignore", .scalar), ("default-trait", .absent)] =
      .error (.notTraitPath "default-trait") := by
  have read : ofTable "" looseEntries = .ok looseConfig := by decide +kernel
  obtain ⟨-, -, again⟩ := ofTable_outcome "" looseEntries
  refine ⟨read, (again looseConfig read).2.2 _, ?_⟩
  obtain ⟨-, errors, -⟩ := ofTable_outcome "" [("ignore", .scalar), ("default-trait", .absent)]
  refine (errors _).mpr ⟨[.allow], .defaultTrait, [.defaultTypes, .ignore], rfl, ?_, ?_, ?_, ?_⟩
  · rw [List.forall_mem_singleton]
    exact ⟨[], .list [], nofun⟩
  · rintro ⟨written, ⟨⟩, -⟩
  · exact .noTraitPath _ fun _ isText => nomatch isText
  · exact Key.Refuses.exists_message (.noTraitPath _ fun _ isText => nomatch isText)

end Config

end RustLint
