import RustLint.Proofs.Lowering.Exported

set_option autoImplicit false

namespace RustLint

namespace Tree

variable {α : Type} (t : Tree α)

def isAttribute : Bool := t.info.isPart && t.kind == "attribute_item"

/-- A struct, an enum or a union. -/
def isDefinition : Bool :=
  t.info.isPart && ["struct_item", "enum_item", "union_item"].contains t.kind

theorem isAttribute_of_isDefinition (definition : t.isDefinition = true) :
    t.isAttribute = false := by
  simp only [isDefinition, Bool.and_eq_true] at definition
  rw [isAttribute, definition.1, Bool.true_and, beq_eq_false_iff_ne]
  intro same
  rw [same] at definition
  exact absurd definition.2 (by decide)

end Tree

namespace Siblings

variable {α β : Type}

/-- The attribute at the first place belongs to the second: between them stand only attributes, and
comments and unnamed nodes, which do not count. -/
def Belongs (below : Siblings α) (i j : Nat) : Prop :=
  i < j ∧ (∃ t ∈ below[i]?, t.isAttribute = true) ∧
    ∀ k < j, i < k → ∀ t ∈ below[k]?, t.info.isPart = true → t.isAttribute = true

instance (below : Siblings α) (i j : Nat) : Decidable (below.Belongs i j) :=
  inferInstanceAs (Decidable (_ ∧ _ ∧ _))

/-- The attributes that belong to the place, in order. -/
def attributesOf (below : Siblings α) (j : Nat) : List (Tree α) :=
  ((List.range j).filter fun i => below.Belongs i j).filterMap (below[·]?)

/-- The definitions among the children, with their places. -/
def definitions (below : Siblings α) : List (Tree α × Nat) :=
  below.zipIdx.filter fun (t, _) => t.isDefinition

/-! Attributes from one place to the next. -/

section Places

variable {below : Siblings α} {t : Tree α} {n : Nat} (here : below[n]? = some t)

include here

theorem belongs_last_iff : below.Belongs n (n + 1) ↔ t.isAttribute = true := by
  constructor
  · rintro ⟨-, ⟨u, there, attr⟩, -⟩
    cases here.symm.trans there
    exact attr
  · intro attr
    exact ⟨by omega, ⟨t, here, attr⟩, fun k before behind => by omega⟩

theorem belongs_succ_iff {i : Nat} (before : i < n) : below.Belongs i (n + 1) ↔
    below.Belongs i n ∧ (t.info.isPart = true → t.isAttribute = true) := by
  constructor
  · rintro ⟨-, attr, run⟩
    exact ⟨⟨before, attr, fun k less => run k (by omega)⟩, run n (by omega) before t here⟩
  · rintro ⟨⟨-, attr, run⟩, last⟩
    refine ⟨by omega, attr, fun k less more u there part => ?_⟩
    rcases Nat.lt_or_eq_of_le (Nat.le_of_lt_succ less) with earlier | rfl
    · exact run k earlier more u there part
    · cases here.symm.trans there
      exact last part

/-- A further attribute joins those before it, and any other part ends them. -/
theorem attributesOf_succ : below.attributesOf (n + 1) =
    if t.isAttribute then below.attributesOf n ++ [t]
    else if t.info.isPart then [] else below.attributesOf n := by
  have earlier : (List.range n).filter (fun i => below.Belongs i (n + 1)) =
      (List.range n).filter fun i =>
        below.Belongs i n && decide (t.info.isPart = true → t.isAttribute = true) := by
    refine List.filter_congr fun i listed => ?_
    rw [← Bool.decide_and]
    exact decide_eq_decide.mpr (belongs_succ_iff here (List.mem_range.mp listed))
  have last : [n].filter (fun i => below.Belongs i (n + 1)) =
      if t.isAttribute then [n] else [] := by
    simp [List.filter_singleton, belongs_last_iff here]
  rw [attributesOf, List.range_succ, List.filter_append, earlier, last, List.filterMap_append]
  cases attr : t.isAttribute with
  | true => simp [attributesOf, here]
  | false => cases part : t.info.isPart <;> simp [attributesOf]

end Places

theorem attributesOf_zero (below : Siblings α) : below.attributesOf 0 = [] := rfl

/-- An attribute belongs to one definition at most. -/
theorem Belongs.unique {below : Siblings α} {i j j' : Nat} {t t' : Tree α}
    (first : below.Belongs i j) (second : below.Belongs i j') (there : (t, j) ∈ below.definitions)
    (there' : (t', j') ∈ below.definitions) : j = j' := by
  have notBefore {j j' : Nat} {t : Tree α} (first : below.Belongs i j)
      (second : below.Belongs i j') (there : (t, j) ∈ below.definitions) : j' ≤ j := by
    obtain ⟨place, definition⟩ := List.mem_filter.mp there
    by_contra later
    have attr := second.2.2 j (by omega) first.1 t (List.mk_mem_zipIdx_iff_getElem?.mp place)
      (Bool.and_eq_true_iff.mp definition).1
    rw [t.isAttribute_of_isDefinition definition] at attr
    cases attr
  exact Nat.le_antisymm (notBefore second first there') (notBefore first second there)

/-! Children with the attributes in front of them. -/

/-- The nodes that are no attributes, each with the attributes collected in front of it. -/
def attributed (attributes : List (Tree α)) : List (Tree α) → List (Tree α × List (Tree α))
  | [] => []
  | t :: rest =>
    if t.kind = "attribute_item" then attributed (attributes ++ [t]) rest
    else (t, attributes) :: attributed [] rest

/-- What is collected in front of a part are the attributes that belong to its place. -/
theorem attributed_parts {below front behind : Siblings α} (split : below = front ++ behind) :
    attributed (below.attributesOf front.length) behind.parts =
      ((behind.zipIdx front.length).filter fun (t, _) =>
        t.info.isPart && !t.isAttribute).map fun (t, j) => (t, below.attributesOf j) := by
  -- The front grows by one child at a time; what it has collected belongs to the place behind it.
  induction behind generalizing front with
  | nil => rfl
  | cons t rest ih =>
    have here : below[front.length]? = some t := by
      rw [split, List.getElem?_append_right (Nat.le_refl _), Nat.sub_self, List.getElem?_cons_zero]
    have later : below = front ++ [t] ++ rest := by
      rw [split, List.append_assoc, List.singleton_append]
    have next := ih later
    rw [List.length_append, List.length_singleton, attributesOf_succ here] at next
    rw [parts, List.filter_cons, List.zipIdx_cons, List.filter_cons]
    cases part : t.info.isPart with
    | false =>
      simp only [Tree.isAttribute, part, Bool.false_and, Bool.false_eq_true, if_false] at next ⊢
      exact next
    | true =>
      by_cases attr : t.kind = "attribute_item"
      · simp only [Tree.isAttribute, part, attr, beq_self_eq_true, Bool.and_true, if_true,
          attributed] at next ⊢
        exact next
      · simp only [Tree.isAttribute, part, beq_false_of_ne attr, Bool.and_false, Bool.false_eq_true,
          if_false, if_true, Bool.not_false, Bool.and_true, List.map_cons, attributed,
          if_neg attr] at next ⊢
        rw [← next]
        rfl

/-! The same children with values. -/

variable (f : NodeInfo → List (Tree β) → β) (below : Siblings α)

theorem belongs_annotate_iff (i j : Nat) :
    Belongs (below.map (Tree.annotate f)) i j ↔ below.Belongs i j := by
  simp only [Belongs, List.getElem?_map, Option.mem_def, Option.map_eq_some_iff, Tree.isAttribute,
    Tree.info_annotate, Tree.kind_annotate, exists_exists_and_eq_and, forall_exists_index, and_imp,
    forall_apply_eq_imp_iff₂]

theorem attributesOf_annotate (j : Nat) :
    attributesOf (below.map (Tree.annotate f)) j =
      (below.attributesOf j).map (Tree.annotate f) := by
  simp only [attributesOf, belongs_annotate_iff, List.getElem?_map, List.map_filterMap]

theorem definitions_annotate : definitions (below.map (Tree.annotate f)) =
    below.definitions.map fun (t, j) => (Tree.annotate f t, j) := by
  simp only [definitions, List.zipIdx_map, List.filter_map, Function.comp_def, Tree.isDefinition,
    Prod.map_fst, Tree.info_annotate, Tree.kind_annotate]
  rfl

end Siblings

def Item.typeDef? : Item → Option TypeDef
  | typeDef d => some d
  | _ => none

def Stmt.typeDef? : Stmt → Option TypeDef
  | item i _ => i.typeDef?
  | _ => none

namespace Lowering

/-- The form of a definition. -/
def formOf (t : FormTree) : TypeForm :=
  if t.kind = "struct_item" then structFormOf t.nodes
  else if t.kind = "enum_item" then .enum
  else unionFormOf t.nodes

/-- A node with the attributes in front of it as a definition, where it is one. -/
def definitionOf? (exported : Bool) (entry : FormTree × List FormTree) : Option TypeDef :=
  if ["struct_item", "enum_item", "union_item"].contains entry.1.kind then
    some (typeDefOf entry.1 (formOf entry.1) entry.2 exported)
  else none

theorem typeDef?_of_itemOf {t : FormTree} {attributes : List FormTree} {exported : Bool} {i : Item}
    (lowered : itemOf t attributes exported = .ok i) :
    i.typeDef? = definitionOf? exported (t, attributes) := by
  unfold itemOf at lowered
  dsimp only at lowered
  split at lowered
  · next kind =>
    cases lowered
    simp [definitionOf?, formOf, kind, Item.typeDef?]
  split at lowered
  · next kind =>
    cases lowered
    simp [definitionOf?, formOf, kind, Item.typeDef?]
  split at lowered
  · next kind =>
    cases lowered
    simp [definitionOf?, formOf, kind, Item.typeDef?]
  next noStruct noEnum noUnion =>
  have none : definitionOf? exported (t, attributes) = none := by
    simp [definitionOf?, noStruct, noEnum, noUnion]
  rw [none]
  split at lowered
  · cases lowered
    rfl
  split at lowered
  · obtain ⟨_, -, rfl⟩ := map_eq_ok.mp lowered
    rfl
  split at lowered
  · obtain ⟨_, -, rfl⟩ := map_eq_ok.mp lowered
    rfl
  split at lowered
  · obtain ⟨_, -, rfl⟩ := map_eq_ok.mp lowered
    rfl
  · cases lowered
    rfl

theorem definitionOf?_eq_none {t : FormTree} (exported : Bool) (attributes : List FormTree)
    (noItem : isItemKind t.kind = false) : definitionOf? exported (t, attributes) = none := by
  have other (kind : String) (isItem : isItemKind kind = true) : t.kind ≠ kind := by
    rintro rfl
    rw [noItem] at isItem
    cases isItem
  simp [definitionOf?, other "struct_item" (by decide), other "enum_item" (by decide),
    other "union_item" (by decide)]

/-- The definitions among items are those of the nodes with the attributes in front of them. -/
theorem typeDefs_of_itemsOf {exported : Bool} {attributes ts : List FormTree} {items : List Item}
    (lowered : itemsOf exported attributes ts = .ok items) :
    items.filterMap Item.typeDef? =
      (Siblings.attributed attributes ts).filterMap (definitionOf? exported) := by
  induction ts generalizing attributes items with
  | nil =>
    cases lowered
    rfl
  | cons t ts ih =>
    rw [itemsOf] at lowered
    rw [Siblings.attributed]
    split at lowered
    · next attr =>
      rw [if_pos attr]
      exact ih lowered
    · next noAttr =>
      rw [if_neg noAttr, List.filterMap_cons]
      split at lowered
      · simp only [bind_eq_ok, pure_eq_ok] at lowered
        obtain ⟨item, first, rest, others, rfl⟩ := lowered
        rw [List.filterMap_cons, typeDef?_of_itemOf first, ih others]
      · next noItem =>
        simp only [Bool.or_eq_true, not_or, Bool.not_eq_true] at noItem
        rw [definitionOf?_eq_none exported attributes noItem.1]
        exact ih lowered

theorem typeDef?_of_stmtOf {t : FormTree} {attributes : List FormTree} {stmt? : Option Stmt}
    (lowered : stmtOf t attributes = .ok stmt?) :
    stmt?.bind Stmt.typeDef? = definitionOf? false (t, attributes) := by
  cases isItem : isItemKind t.kind with
  | true =>
    rw [stmtOf_item t attributes isItem] at lowered
    obtain ⟨i, ok, same⟩ := bind_eq_ok.mp lowered
    cases pure_eq_ok.mp same
    exact typeDef?_of_itemOf ok
  | false =>
    rw [definitionOf?_eq_none false attributes isItem]
    unfold stmtOf at lowered
    split at lowered
    · cases lowered
      rfl
    split at lowered
    · rcases exprStmtOf_eq_ok lowered with ⟨-, rfl⟩ | ⟨_, _, -, -, rfl⟩ <;> rfl
    split at lowered
    · obtain ⟨_, _, rfl, -⟩ := bindingOf_eq_ok lowered
      rfl
    · rw [isItem, if_neg (by decide)] at lowered
      obtain ⟨_, -, same⟩ := bind_eq_ok.mp lowered
      cases pure_eq_ok.mp same
      rfl

/-- The definitions among statements are found in the same way. -/
theorem typeDefs_of_stmtsOf {attributes ts : List FormTree} {stmts : List Stmt}
    (lowered : stmtsOf attributes ts = .ok stmts) :
    stmts.filterMap Stmt.typeDef? =
      (Siblings.attributed attributes ts).filterMap (definitionOf? false) := by
  induction ts generalizing attributes stmts with
  | nil =>
    cases lowered
    rfl
  | cons t ts ih =>
    rw [stmtsOf] at lowered
    rw [Siblings.attributed]
    split at lowered
    · next attr =>
      rw [if_pos attr]
      exact ih lowered
    · next noAttr =>
      simp only [bind_eq_ok, pure_eq_ok] at lowered
      obtain ⟨stmt?, first, rest, others, rfl⟩ := lowered
      rw [if_neg noAttr, List.filterMap_cons, List.filterMap_append, ih others,
        ← typeDef?_of_stmtOf first]
      cases stmt? with
      | none => rfl
      | some s => cases found : s.typeDef? <;> simp [found]

/-- The definitions among the children of a node, each with the attributes that belong to its
place. -/
def typeDefsIn (t : FormTree) (exported : Bool) : List TypeDef :=
  t.nodes.definitions.map fun (u, j) =>
    typeDefOf u (formOf u) (t.nodes.attributesOf j) exported

theorem filterMap_attributed (t : FormTree) (exported : Bool) :
    (Siblings.attributed [] t.nodes.parts).filterMap (definitionOf? exported) =
      typeDefsIn t exported := by
  have all := Siblings.attributed_parts (List.nil_append t.nodes).symm
  rw [List.length_nil, Siblings.attributesOf_zero] at all
  rw [all, List.filterMap_map, List.filterMap_filter, typeDefsIn, Siblings.definitions,
    ← List.filterMap_eq_map, List.filterMap_filter]
  refine List.filterMap_congr ?_
  rintro ⟨u, j⟩ -
  dsimp only [Function.comp_apply]
  by_cases definition : u.isDefinition = true
  · have noAttribute := u.isAttribute_of_isDefinition definition
    have both := definition
    simp only [Tree.isDefinition, Bool.and_eq_true] at both
    have part : (u.info.isPart && !u.isAttribute) = true := by
      rw [both.1, noAttribute]
      rfl
    rw [if_pos definition, if_pos part, definitionOf?, if_pos both.2]
  · rw [if_neg definition]
    split
    · next part =>
      rw [Tree.isDefinition, (Bool.and_eq_true_iff.mp part).1, Bool.true_and] at definition
      rw [definitionOf?, if_neg definition]
    · rfl

section Container

variable {source : Source} {t : FormTree} (formed : Formed source t)

include formed

theorem typeDefs_of_items {exported : Bool} {items : List Item}
    (lowered : t.value.items exported = .ok items) :
    items.filterMap Item.typeDef? = typeDefsIn t exported := by
  rw [formed.items] at lowered
  rw [typeDefs_of_itemsOf lowered, filterMap_attributed]

theorem typeDefs_of_block {b : Block} (lowered : t.value.block = .ok b) :
    b.stmts.filterMap Stmt.typeDef? = typeDefsIn t false := by
  rw [typeDefs_of_stmtsOf (stmts_of_block source t b formed lowered), filterMap_attributed]

end Container

/-! The definitions of a file. -/

/-- The definitions among the children of a node by their spans, with the traits that the attributes
derive which belong to them. -/
def derivesIn (source : Source) (c : ParseTree) : List (Span × List String) :=
  c.nodes.definitions.map fun (t, j) =>
    (t.span, derivesOf ((c.nodes.attributesOf j).map (forms source)))

theorem map_typeDefsIn (source : Source) (c : ParseTree) (exported : Bool) :
    (typeDefsIn (forms source c) exported).map (fun d => (d.span, d.derives)) =
      derivesIn source c := by
  rw [typeDefsIn, forms, Tree.nodes, Tree.children_annotate, Siblings.definitions_annotate,
    List.map_map, List.map_map, derivesIn]
  refine List.map_congr_left ?_
  rintro ⟨t, j⟩ -
  simp only [Function.comp_apply, typeDefOf, Tree.span_annotate, Siblings.attributesOf_annotate]
  rfl

/-- In the node, a definition derives what the attributes say that belong to it and to no other,
whether the children are lowered as items or as statements. -/
structure Attributes (source : Source) (c : ParseTree) : Prop where
  items : ∀ exported items, (forms source c).value.items exported = .ok items →
    (items.filterMap Item.typeDef?).map (fun d => (d.span, d.derives)) = derivesIn source c
  block : ∀ b, (forms source c).value.block = .ok b →
    (b.stmts.filterMap Stmt.typeDef?).map (fun d => (d.span, d.derives)) = derivesIn source c
  /-- Items that are not exported are defined as statements are. -/
  alike : ∀ items b, (forms source c).value.items false = .ok items →
    (forms source c).value.block = .ok b →
    items.filterMap Item.typeDef? = b.stmts.filterMap Stmt.typeDef?
  once : ∀ i j j' t t', (t, j) ∈ c.nodes.definitions → (t', j') ∈ c.nodes.definitions →
    c.nodes.Belongs i j → c.nodes.Belongs i j' → j = j'

theorem attributes_of_forms (source : Source) (c : ParseTree) : Attributes source c where
  items exported items lowered := by
    rw [typeDefs_of_items (formed_forms source c) lowered, map_typeDefsIn]
  block b lowered := by
    rw [typeDefs_of_block (formed_forms source c) lowered, map_typeDefsIn]
  alike items b isItems isBlock := by
    rw [typeDefs_of_items (formed_forms source c) isItems,
      typeDefs_of_block (formed_forms source c) isBlock]
  once i j j' t t' there there' first second := first.unique second there there'

end Lowering

namespace Node

/-- The definitions that stand among the items or the statements of the node. -/
def typeDefs : Node → List TypeDef
  | crate c => c.items.filterMap Item.typeDef?
  | item (.mod m) => m.items.filterMap Item.typeDef?
  | item (.impl i) => i.items.filterMap Item.typeDef?
  | block b => b.stmts.filterMap Stmt.typeDef?
  | item _ | stmt _ | expr _ => []

/-- Statements stand in blocks alone. -/
theorem mem_stmts_of_mem_children {n : Node} {s : Stmt} (isChild : .stmt s ∈ n.children) :
    ∃ b, n = .block b ∧ s ∈ b.stmts := by
  cases n with
  | block b =>
    obtain ⟨_, listed, same⟩ := List.mem_map.mp isChild
    cases same
    exact ⟨b, rfl, listed⟩
  | expr e => cases isEvaluated_of_mem_childrenOfExpr e _ isChild
  | crate _ => simp [children] at isChild
  | item i => cases i <;> simp [children, childrenOfItem] at isChild
  | stmt s => cases s <;> simp [children, childrenOfStmt] at isChild

/-- A definition below the root stands among the items or the statements of some node. -/
theorem exists_mem_typeDefs {root : Node} {above : List Node} {d : TypeDef}
    (path : Path root above (.item (.typeDef d))) :
    (∃ n ∈ root.walk, d ∈ n.typeDefs) ∨ root = .item (.typeDef d) ∨
      ∃ span, root = .stmt (.item (.typeDef d) span) := by
  cases path with
  | here => exact .inr (.inl rfl)
  | child above n _ outer isChild =>
    have visited : n ∈ root.walk := (mem_walk_iff root n).mpr ⟨above, outer⟩
    cases n with
    | crate c =>
      obtain ⟨i, listed, same⟩ := List.mem_map.mp isChild
      cases same
      exact .inl ⟨_, visited, List.mem_filterMap.mpr ⟨_, listed, rfl⟩⟩
    | item i =>
      cases i with
      | mod _ | impl _ =>
        obtain ⟨i, listed, same⟩ := List.mem_map.mp isChild
        cases same
        exact .inl ⟨_, visited, List.mem_filterMap.mpr ⟨_, listed, rfl⟩⟩
      | fn f => simp [children, childrenOfItem] at isChild
      | typeDef _ | traitDef _ | other _ _ => cases isChild
    | block b =>
      obtain ⟨_, -, same⟩ := List.mem_map.mp isChild
      cases same
    | expr e => cases isEvaluated_of_mem_childrenOfExpr e _ isChild
    | stmt s =>
      cases s with
      | item i span =>
        cases List.mem_singleton.mp isChild
        -- Above the item is its statement, and the block is above that.
        cases outer with
        | here => exact .inr (.inr ⟨span, rfl⟩)
        | child above b _ outer isStmt =>
          obtain ⟨b, rfl, listed⟩ := mem_stmts_of_mem_children isStmt
          exact .inl ⟨_, (mem_walk_iff root _).mpr ⟨above, outer⟩,
            List.mem_filterMap.mpr ⟨_, listed, rfl⟩⟩
      | expr e semi span => cases List.mem_singleton.mp isChild
      | binding init els span => simp [children, childrenOfStmt] at isChild

end Node

namespace Lowering

section Definitions

variable {source : Source} {root : ParseTree} {crate : Crate}

/-- The definitions in a module are those of its list. -/
theorem exists_list_of_modOf {t : FormTree} {exported : Bool} {m : ModItem}
    (lowered : modOf t exported = .ok m) : m.items = [] ∨
    ∃ list ∈ t.children, ∃ inner, list.value.items inner = .ok m.items := by
  cases found : t.nodes.ofKind? "declaration_list" with
  | none =>
    simp only [modOf, found] at lowered
    cases lowered
    exact .inl rfl
  | some list =>
    exact .inr ⟨list, Siblings.mem_of_ofKind? _ _ list found,
      modOf_items t list exported m lowered found⟩

/-- A module that is not empty was lowered as one. -/
theorem modOf_of_yields {t : FormTree} {m : ModItem} (yields : Yields t (.item (.mod m))) :
    m.items = [] ∨ ∃ exported, modOf t exported = .ok m := by
  cases yields with
  | item attributes exported _ lowered =>
    rcases itemOf_eq_ok lowered with
      ⟨_, same⟩ | ⟨_, -, same⟩ | ⟨_, -, same⟩ | ⟨_, isMod, same⟩ | ⟨-, none⟩
    · cases same
    · cases same
    · cases same
    · cases same
      exact .inr ⟨exported, isMod⟩
    · exact .inl (List.map_eq_nil_iff.mp none)

/-- No definitions stand in an `impl`. -/
theorem typeDefs_of_impl {t : FormTree} {block : ImplBlock}
    (yields : Yields t (.item (.impl block))) : (Node.item (.impl block)).typeDefs = [] := by
  cases yields with
  | item attributes exported _ lowered =>
    rcases itemOf_eq_ok lowered with
      ⟨_, same⟩ | ⟨_, isImpl, same⟩ | ⟨_, -, same⟩ | ⟨_, -, same⟩ | ⟨-, none⟩
    · cases same
    · cases same
      refine List.filterMap_eq_nil_iff.mpr fun i listed => ?_
      obtain ⟨_, -, ⟨_, -, rfl⟩ | rfl⟩ := held_of_mem_implOf isImpl i listed <;> rfl
    · cases same
    · cases same
    · rw [Node.typeDefs, List.map_eq_nil_iff.mp none, List.filterMap_nil]

/-- The definitions in a node of the syntax tree are those in one node of the parse tree. -/
theorem exists_derivesIn (lowered : Crate.ofTree source root = .ok crate) (n : Node)
    (visited : n ∈ (Node.crate crate).walk) : n.typeDefs = [] ∨
    ∃ c, root.Holds c ∧ n.typeDefs.map (fun d => (d.span, d.derives)) = derivesIn source c := by
  obtain ⟨-, items, itemsOk, rfl⟩ := ofTree_eq_ok.mp lowered
  have file : Yields (forms source root) (.crate ⟨items, root.span⟩) := by
    have whole := Yields.file (forms source root) items itemsOk
    rwa [forms, Tree.span_annotate] at whole
  obtain ⟨u, holds, yields⟩ := yields_of_mem_walk (formed_forms source root) file n visited
  have inTree {v : FormTree} (holds : (forms source root).Holds v) :
      ∃ c, root.Holds c ∧ forms source c = v := Tree.holds_annotate _ root v holds
  cases n with
  | crate c =>
    obtain ⟨c, held, rfl⟩ := inTree holds
    cases yields with
    | file items lowered => exact .inr ⟨c, held, (attributes_of_forms source c).items _ _ lowered⟩
  | block b =>
    obtain ⟨c, held, rfl⟩ := inTree holds
    cases yields with
    | block _ lowered => exact .inr ⟨c, held, (attributes_of_forms source c).block _ lowered⟩
  | item i =>
    cases i with
    | mod m =>
      rcases modOf_of_yields yields with none | ⟨exported, isMod⟩
      · exact .inl (by rw [Node.typeDefs, none, List.filterMap_nil])
      rcases exists_list_of_modOf isMod with none | ⟨list, child, inner, ok⟩
      · exact .inl (by rw [Node.typeDefs, none, List.filterMap_nil])
      · obtain ⟨c, held, rfl⟩ := inTree (holds.tail child)
        exact .inr ⟨c, held, (attributes_of_forms source c).items _ _ ok⟩
    | impl block => exact .inl (typeDefs_of_impl yields)
    | typeDef _ | fn _ | traitDef _ | other _ _ => exact .inl rfl
  | stmt _ | expr _ => exact .inl rfl

/-- A definition derives what the attributes say that stand in front of it with nothing but comments
between, and each attribute stands in front of one definition at most. -/
theorem derives_of_attributes (lowered : Crate.ofTree source root = .ok crate) :
    (∀ c, root.Holds c → Attributes source c) ∧
      (∀ n ∈ (Node.crate crate).walk, n.typeDefs = [] ∨ ∃ c, root.Holds c ∧
        n.typeDefs.map (fun d => (d.span, d.derives)) = derivesIn source c) ∧
      ∀ d, .typeDef d ∈ (Node.crate crate).items →
        ∃ n ∈ (Node.crate crate).walk, d ∈ n.typeDefs := by
  refine ⟨fun c _ => attributes_of_forms source c, exists_derivesIn lowered, fun d listed => ?_⟩
  obtain ⟨n, visited, isItem⟩ := List.mem_filterMap.mp listed
  cases n with
  | item i =>
    cases isItem
    obtain ⟨above, path⟩ := (Node.mem_walk_iff _ _).mp visited
    rcases Node.exists_mem_typeDefs path with inside | root | ⟨_, root⟩
    · exact inside
    · cases root
    · cases root
  | crate _ | block _ | stmt _ | expr _ => cases isItem

end Definitions

/-! A file in which an attribute stands in front of a macro call. -/

def mixedSource : Source :=
  ⟨"#[derive(Clone)] /* c */ #[derive(Debug)] struct A; #[derive(Eq)] m! \x7b\x7d " ++
    "enum B \x7b\x7d fn f() \x7b #[derive(Copy)] struct C; \x7d", none⟩

def mixedBody : ParseTree :=
  ⟨⟨"block", true, 89, 118, some "body"⟩, (), [
    ⟨⟨"attribute_item", true, 91, 106, none⟩, (), []⟩,
    ⟨⟨"struct_item", true, 107, 116, none⟩, (), []⟩]⟩

def mixedFn : ParseTree := ⟨⟨"function_item", true, 82, 118, none⟩, (), [mixedBody]⟩

def mixedFile : ParseTree :=
  ⟨⟨"source_file", true, 0, 118, none⟩, (), [
    ⟨⟨"attribute_item", true, 0, 16, none⟩, (), []⟩,
    ⟨⟨"block_comment", true, 17, 24, none⟩, (), []⟩,
    ⟨⟨"attribute_item", true, 25, 41, none⟩, (), []⟩,
    ⟨⟨"struct_item", true, 42, 51, none⟩, (), []⟩,
    ⟨⟨"attribute_item", true, 52, 65, none⟩, (), []⟩,
    ⟨⟨"macro_invocation", true, 66, 71, none⟩, (), []⟩,
    ⟨⟨"enum_item", true, 72, 81, none⟩, (), []⟩,
    mixedFn]⟩

/-- The attribute in front of the macro call belongs to no definition. -/
theorem derives_of_mixedFile : ∃ crate, Crate.ofTree mixedSource mixedFile = .ok crate ∧
    (∃ n ∈ (Node.crate crate).walk, n.typeDefs.map (fun d => (d.span, d.derives)) =
      [(⟨42, 51, 0⟩, ["Clone", "Debug"]), (⟨72, 81, 0⟩, [])]) ∧
    ∃ b, (forms mixedSource mixedBody).value.block = .ok b ∧
      (b.stmts.filterMap Stmt.typeDef?).map (fun d => (d.span, d.derives)) =
        [(⟨107, 116, 0⟩, ["Copy"])] := by
  obtain ⟨crate, lowered, items⟩ : ∃ crate, Crate.ofTree mixedSource mixedFile = .ok crate ∧
      (forms mixedSource mixedFile).value.items true = .ok crate.items := ⟨_, rfl, rfl⟩
  obtain ⟨b, block⟩ : ∃ b, (forms mixedSource mixedBody).value.block = .ok b := ⟨_, rfl⟩
  obtain ⟨attributes, -, -⟩ := derives_of_attributes lowered
  refine ⟨crate, lowered, ⟨_, Node.mem_walk_self _, ?_⟩, b, block, ?_⟩
  · refine ((attributes mixedFile .refl).items true _ items).trans ?_
    decide +kernel
  · have toFn : mixedFn ∈ mixedFile.children := by simp [mixedFile]
    have toBody : mixedBody ∈ mixedFn.children := List.mem_singleton_self _
    have held : mixedFile.Holds mixedBody := (Tree.Holds.child toFn).tail toBody
    refine ((attributes mixedBody held).block b block).trans ?_
    decide +kernel

end Lowering

end RustLint
