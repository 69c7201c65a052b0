import RustLint.Proofs.Index.Entries

set_option autoImplicit false

namespace RustLint.CrateIndex

/-- The definitions in the crate at any depth, in the order of the text. -/
def typesBelow (c : Crate) : List TypeDef :=
  (Node.crate c).preorder.filterMap fun n => n.item?.bind typeDef?

theorem typesIn_eq_typesBelow (c : Crate) : typesIn c = typesBelow c := by
  rw [typesIn, Node.items, List.filterMap_filterMap, Node.walk_eq_preorder, typesBelow]

/-- The item stands in the crate, at its top, in a module, an `impl` or a block. -/
def Within (c : Crate) (i : Item) : Prop := ∃ above, Node.Path (.crate c) above (.item i)

theorem mem_items_iff (c : Crate) (i : Item) : i ∈ (Node.crate c).items ↔ Within c i := by
  rw [Node.items, List.mem_filterMap, Within, ← Node.mem_walk_iff]
  constructor
  · rintro ⟨n, visited, isItem⟩
    cases n with
    | item j =>
      cases isItem
      exact visited
    | crate | block | stmt | expr => cases isItem
  · intro visited
    exact ⟨.item i, visited, rfl⟩

theorem mem_typesIn_iff (c : Crate) (d : TypeDef) : d ∈ typesIn c ↔ Within c (.typeDef d) := by
  rw [typesIn, List.mem_filterMap, ← mem_items_iff]
  constructor
  · rintro ⟨i, listed, isType⟩
    cases i with
    | typeDef e =>
      cases isType
      exact listed
    | traitDef | fn | impl | mod | other => cases isType
  · intro listed
    exact ⟨.typeDef d, listed, rfl⟩

/-- The definitions of the name in the files, each with its file. -/
def placed (files : List (Crate × Option Source)) (n : String) : List (TypeDef × Option Source) :=
  files.flatMap fun file =>
    ((typesBelow file.1).filter (·.name == n)).map fun d => (d, file.2)

variable (extra : List String) (files : List (Crate × Option Source))

/-! The two tables. -/

theorem homes_indexed : (indexed extra files).homes = files.flatMap fun file =>
    (typesIn file.1).map fun d => (d.name, file.2) := by
  induction files using List.reverseRecOn with
  | nil => rfl
  | append_singleton files file ih =>
    rw [indexed_append, List.flatMap_append, ← ih, List.flatMap_singleton]
    rfl

theorem definitionsOf_indexed (n : String) :
    (indexed extra files).definitionsOf n = (placed files n).map Prod.fst := by
  rw [definitionsOf, types_indexed, List.filter_flatMap, placed, List.map_flatMap]
  simp only [typesIn_eq_typesBelow, List.map_map, Function.comp_def, List.map_id']

theorem homesOf_indexed (n : String) :
    (indexed extra files).homesOf n = (placed files n).map Prod.snd := by
  rw [homesOf, homes_indexed, List.filter_flatMap, List.map_flatMap, placed, List.map_flatMap]
  simp only [typesIn_eq_typesBelow, List.filter_map, List.map_map, Function.comp_def]

/-! The answers. -/

/-- What is said of a type by its only definition; without one, or with several, nothing is. -/
structure Account where
  span : Option Span := none
  fields : Option (List Ty) := none
  exported : Bool := false
  home : Option Source := none

/-- The types of the fields, when the definition is a struct, for the arguments of the type. -/
def fieldsFor (ty : Ty) (d : TypeDef) : Option (List Ty) :=
  match d.form with
  | .struct _ fields => some (fields.map fun f => f.ty.instantiate d.generics.typeParams ty.args)
  | _ => none

/-- What the definitions say of a path type, each with its file. -/
def Account.ofPlaced (ty : Ty) : List (TypeDef × Option Source) → Account
  | [(d, home)] => ⟨some d.span, fieldsFor ty d, d.vis == .everywhere && d.exported, home⟩
  | _ => {}

/-- What the index answers about the type. -/
def account (index : CrateIndex) (ty : Ty) : Account where
  span := index.answer (.definitionSpan ty)
  fields := index.answer (.fields ty)
  exported := index.answer (.isExported ty)
  home := index.answer (.definitionSource ty)

theorem account_of_definitionOf?_eq_none (index : CrateIndex) (ty : Ty)
    (unknown : index.definitionOf? ty = none) : index.account ty = {} := by
  simp only [account, answer, fieldTypes?, isExported, homeOf?, unknown]
  rfl

theorem account_of_definitionOf?_eq_some (index : CrateIndex) (ty : Ty) (d : TypeDef)
    (known : index.definitionOf? ty = some d) :
    index.account ty = ⟨some d.span, fieldsFor ty d, d.vis == .everywhere && d.exported,
      (index.homesOf ty.name).head?.join⟩ := by
  simp only [account, answer, fieldTypes?, isExported, homeOf?, known]
  rfl

/-- All answers about a path type come from the one definition of its name. -/
theorem account_indexed (ty : Ty) (kind : ty.kind = .path) :
    (indexed extra files).account ty = .ofPlaced ty (placed files ty.name) := by
  have definitions := definitionsOf_indexed extra files ty.name
  have homes := homesOf_indexed extra files ty.name
  match found : placed files ty.name with
  | [] =>
    rw [found] at definitions
    apply account_of_definitionOf?_eq_none
    rw [definitionOf?, if_pos kind, unique?, definitions]
    rfl
  | [(d, home)] =>
    rw [found] at definitions homes
    have known : (indexed extra files).definitionOf? ty = some d := by
      rw [definitionOf?, if_pos kind, unique?, definitions]
      rfl
    rw [account_of_definitionOf?_eq_some _ ty d known, homes]
    rfl
  | first :: second :: rest =>
    rw [found] at definitions
    apply account_of_definitionOf?_eq_none
    rw [definitionOf?, if_pos kind, unique?, definitions]
    rfl

theorem account_of_not_path (index : CrateIndex) (ty : Ty) (kind : ty.kind ≠ .path) :
    index.account ty = {} :=
  account_of_definitionOf?_eq_none index ty (by rw [definitionOf?, if_neg kind])

/-! Other orders of the files. -/

theorem placed_perm {files files' : List (Crate × Option Source)} (perm : files.Perm files')
    (n : String) : (placed files n).Perm (placed files' n) :=
  perm.flatMap_right _

theorem Account.ofPlaced_perm (ty : Ty) {ds ds' : List (TypeDef × Option Source)}
    (perm : ds.Perm ds') : ofPlaced ty ds = ofPlaced ty ds' := by
  match ds with
  | [] => rw [List.nil_perm.mp perm]
  | [d] => rw [List.singleton_perm.mp perm]
  | first :: second :: rest =>
    match ds', perm.length_eq with
    | _ :: _ :: _, _ => rfl

theorem account_perm {files' : List (Crate × Option Source)} (perm : files.Perm files') (ty : Ty) :
    (indexed extra files').account ty = (indexed extra files).account ty := by
  by_cases kind : ty.kind = .path
  · rw [account_indexed extra files ty kind, account_indexed extra files' ty kind]
    exact Account.ofPlaced_perm ty (placed_perm perm.symm ty.name)
  · rw [account_of_not_path _ ty kind, account_of_not_path _ ty kind]

/-- Of the traits only their number of each name is read. -/
theorem resolveTrait?_perm (i j : CrateIndex) (perm : i.traits.Perm j.traits) (path : String) :
    i.resolveTrait? path = j.resolveTrait? path := by
  simp only [resolveTrait?, perm.count_eq]

theorem traits_perm {files' : List (Crate × Option Source)} (perm : files.Perm files') :
    (indexed extra files').traits.Perm (indexed extra files).traits := by
  rw [traits_indexed, traits_indexed]
  exact perm.symm.flatMap_right _

/-- The tables of an index and its answers, for the files in one order and in another. -/
structure Faithful (extra : List String) (files files' : List (Crate × Option Source)) :
    Prop where
  /-- Every definition is recorded once, file by file and in the order of the text. -/
  recorded : (indexed extra files).types = files.flatMap fun file => typesBelow file.1
  /-- What is recorded are the definitions that stand anywhere in one of the files. -/
  mem_types : ∀ d, d ∈ (indexed extra files).types ↔ ∃ file ∈ files, Within file.1 (.typeDef d)
  /-- Under each name, the two tables list the definitions and their files in step. -/
  inStep : ∀ n, (indexed extra files).definitionsOf n = (placed files n).map Prod.fst ∧
    (indexed extra files).homesOf n = (placed files n).map Prod.snd
  /-- All that is answered about a path type is said by the only definition of its name; where there
  are several or none, and about any other type, nothing is. -/
  accounts : ∀ ty, (indexed extra files).account ty =
    if ty.kind = .path then .ofPlaced ty (placed files ty.name) else {}
  /-- The other order makes no difference to that. -/
  account_eq : ∀ ty, (indexed extra files').account ty = (indexed extra files).account ty
  /-- Nor does it to the traits that paths name. -/
  resolveTrait?_eq : ∀ path,
    (indexed extra files').resolveTrait? path = (indexed extra files).resolveTrait? path

/-- The tables of every list of files are faithful, whatever the order of the files. -/
theorem faithful_of_perm (files' : List (Crate × Option Source)) (perm : files.Perm files') :
    Faithful extra files files' where
  recorded := by
    rw [types_indexed]
    simp only [typesIn_eq_typesBelow]
  mem_types := by
    intro d
    rw [types_indexed, List.mem_flatMap]
    simp only [mem_typesIn_iff]
  inStep := fun n => ⟨definitionsOf_indexed extra files n, homesOf_indexed extra files n⟩
  accounts := by
    intro ty
    split
    · next kind => exact account_indexed extra files ty kind
    · next kind => exact account_of_not_path _ ty kind
  account_eq := account_perm extra files perm
  resolveTrait?_eq := resolveTrait?_perm _ _ (traits_perm extra files perm)

/-! The files `pub mod m { pub struct S<T> { a: T } }` and `fn f() { enum E {} }`, in either order. -/

def structInModule : TypeDef where
  form := .struct .named [⟨some "a", ⟨.path, "T", ⟨33, 34, 0⟩, [], "T"⟩, ⟨30, 34, 0⟩⟩]
  name := "S"
  generics := { params := [⟨.type, "T"⟩], text := "<T>" }
  derives := []
  vis := .everywhere
  span := ⟨12, 36, 0⟩

def enumInFunction : TypeDef where
  form := .enum
  name := "E"
  generics := {}
  derives := []
  vis := .hidden
  span := ⟨9, 18, 0⟩
  exported := false

def moduleFile : Crate × Option Source :=
  (⟨[.mod ⟨"m", .everywhere, [.typeDef structInModule], ⟨0, 38, 0⟩⟩], ⟨0, 38, 0⟩⟩,
    some ⟨"pub mod m \x7b pub struct S<T> \x7b a: T \x7d \x7d", some (.ofString "m.rs")⟩)

def functionFile : Crate × Option Source :=
  (⟨[.fn ⟨⟨"f", 0, false, false, {}, none⟩, .hidden,
      some ⟨[.item (.typeDef enumInFunction) ⟨9, 18, 0⟩], ⟨7, 20, 0⟩⟩, ⟨0, 20, 0⟩, false⟩],
    ⟨0, 20, 0⟩⟩, some ⟨"fn f() \x7b enum E \x7b\x7d \x7d", some (.ofString "f.rs")⟩)

theorem account_moduleFile :
    (indexed [] [functionFile, moduleFile]).account
        ⟨.path, "S", ⟨0, 0, 0⟩, [⟨.path, "u8", ⟨0, 0, 0⟩, [], "u8"⟩], "S<u8>"⟩ =
      ⟨some ⟨12, 36, 0⟩, some [⟨.path, "u8", ⟨0, 0, 0⟩, [], "u8"⟩], true, moduleFile.2⟩ ∧
    (indexed [] [functionFile, moduleFile]).account ⟨.path, "E", ⟨0, 0, 0⟩, [], "E"⟩ =
      ⟨some ⟨9, 18, 0⟩, none, false, functionFile.2⟩ := by
  have faithful := faithful_of_perm [] [moduleFile, functionFile] [functionFile, moduleFile]
    (List.Perm.swap _ _ _)
  constructor
  · rw [faithful.account_eq, faithful.accounts]
    rfl
  · rw [faithful.account_eq, faithful.accounts]
    rfl

end RustLint.CrateIndex
