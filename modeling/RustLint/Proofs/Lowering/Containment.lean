import RustLint.Proofs.Lowering.Provenance
import RustLint.Proofs.Lowering.Items

set_option autoImplicit false

namespace RustLint

namespace Lowering

/-! Statements and blocks. -/

theorem grown_exprStmtOf {t : FormTree} {s : Stmt} (lowered : exprStmtOf t = .ok (some s)) :
    GrownFrom t (.stmt s) := by
  rcases exprStmtOf_eq_ok lowered with ⟨-, none⟩ | ⟨inner, e, first, ok, same⟩
  · cases none
  · cases same
    refine .ofChildren rfl rfl ?_
    intro child below
    cases List.mem_singleton.mp below
    exact ⟨inner, .single (Siblings.mem_of_firstPart? _ inner first), .expr inner e ok⟩

/-- A form that is there is the form of a node that is there. -/
theorem of_formOf? {α : Type} {form : FormTree → Except LowerError α} {t? : Option FormTree} {a : α}
    (lowered : formOf? form t? = .ok (some a)) : ∃ t, t? = some t ∧ form t = .ok a := by
  cases t? with
  | none => cases lowered
  | some t =>
    obtain ⟨b, ok, same⟩ := formOf?_eq_ok lowered
    cases same
    exact ⟨t, rfl, ok⟩

theorem grown_bindingOf {t : FormTree} {s : Stmt} (lowered : bindingOf t = .ok (some s)) :
    GrownFrom t (.stmt s) := by
  simp only [bindingOf_eq, bind_eq_ok, pure_eq_ok] at lowered
  obtain ⟨init, initOk, els, elsOk, same⟩ := lowered
  cases same
  refine .ofChildren rfl rfl ?_
  intro child below
  rcases List.mem_append.mp below with value | block
  · obtain ⟨e, found, rfl⟩ := Option.map_eq_some_iff.mp (Option.mem_toList.mp value)
    subst found
    obtain ⟨u, found, ok⟩ := of_formOf? initOk
    exact ⟨u, .single (Siblings.mem_of_or found (Siblings.mem_of_labelled? _ _)
      (Siblings.mem_of_partAfter? _ _)), .expr u e ok⟩
  · obtain ⟨b, found, rfl⟩ := Option.map_eq_some_iff.mp (Option.mem_toList.mp block)
    subst found
    obtain ⟨u, found, ok⟩ := of_formOf? elsOk
    exact ⟨u, .single (Siblings.mem_of_or found (Siblings.mem_of_labelled? _ _)
      (Siblings.mem_of_partAfter? _ _)), .block u b ok⟩

theorem grown_stmt {t : FormTree} {attributes : List FormTree} {s : Stmt}
    (lowered : stmtOf t attributes = .ok (some s)) : GrownFrom t (.stmt s) := by
  unfold stmtOf at lowered
  split at lowered
  · cases lowered
  split at lowered
  · exact grown_exprStmtOf lowered
  split at lowered
  · exact grown_bindingOf lowered
  split at lowered
  · obtain ⟨i, ok, same⟩ := bind_eq_ok.mp lowered
    cases pure_eq_ok.mp same
    refine .ofChildren rfl rfl ?_
    intro child below
    cases List.mem_singleton.mp below
    exact ⟨t, .refl, .item t attributes false i ok⟩
  · obtain ⟨e, ok, same⟩ := bind_eq_ok.mp lowered
    cases pure_eq_ok.mp same
    refine .ofChildren rfl rfl ?_
    intro child below
    cases List.mem_singleton.mp below
    exact ⟨t, .refl, .expr t e ok⟩

theorem yields_of_mem_stmtsOf {attributes ts : List FormTree} {stmts : List Stmt}
    (lowered : stmtsOf attributes ts = .ok stmts) (s : Stmt) (listed : s ∈ stmts) :
    ∃ t ∈ ts, Yields t (.stmt s) := by
  induction ts generalizing attributes stmts with
  | nil =>
    cases lowered
    cases listed
  | cons t ts ih =>
    rw [stmtsOf] at lowered
    split at lowered
    · exact List.exists_mem_cons_of_exists (ih lowered listed)
    · simp only [bind_eq_ok, pure_eq_ok] at lowered
      obtain ⟨stmt?, first, rest, others, rfl⟩ := lowered
      rcases List.mem_append.mp listed with here | later
      · cases Option.mem_toList.mp here
        exact ⟨t, List.mem_cons_self, .stmt t attributes s first⟩
      · exact List.exists_mem_cons_of_exists (ih others later)

theorem grown_block {source : Source} {t : FormTree} {b : Block} (formed : Formed source t)
    (lowered : t.value.block = .ok b) : GrownFrom t (.block b) := by
  have stmts := stmts_of_block source t b formed lowered
  rw [formed.block] at lowered
  obtain ⟨_, -, same⟩ := bind_eq_ok.mp lowered
  cases pure_eq_ok.mp same
  refine .ofChildren rfl rfl ?_
  intro child below
  obtain ⟨s, listed, rfl⟩ := List.mem_map.mp below
  obtain ⟨u, part, yields⟩ := yields_of_mem_stmtsOf stmts s listed
  exact ⟨u, .single (Siblings.mem_of_mem_parts _ u part), yields⟩

/-! Fields. -/

/-- The field comes from inside of the node: its span is that of one node, and its type that of
another further inside. -/
def HoldsField (t : FormTree) (f : FieldDef) : Prop :=
  ∃ decl ty, t.Holds decl ∧ decl.Holds ty ∧ f.span = decl.span ∧ f.ty = ty.value.ty

theorem holdsField_of_named (body : FormTree) (f : FieldDef) (listed : f ∈ namedFieldsOf body) :
    HoldsField body f := by
  obtain ⟨decl, part, found⟩ := List.mem_filterMap.mp listed
  dsimp only at found
  split at found
  · cases found
  · obtain ⟨ty, isType, rfl⟩ := Option.map_eq_some_iff.mp found
    refine ⟨decl, ty, .single (Siblings.mem_of_mem_parts _ decl part), .single ?_, rfl, rfl⟩
    refine Siblings.mem_of_or isType (Siblings.mem_of_labelled? _ _) ?_
    intro u last
    exact Siblings.mem_of_mem_parts _ u (List.mem_filter.mp (List.mem_of_getLast? last)).1

theorem holdsField_of_tuple (body : FormTree) (f : FieldDef) (listed : f ∈ tupleFieldsOf body) :
    HoldsField body f := by
  obtain ⟨ty, kept, rfl⟩ := List.mem_map.mp listed
  have part := Siblings.mem_of_mem_parts _ ty (List.mem_filter.mp kept).1
  exact ⟨ty, ty, .single part, .refl, rfl, rfl⟩

theorem HoldsField.ofChild {t body : FormTree} {f : FieldDef} (child : body ∈ t.children)
    (field : HoldsField body f) : HoldsField t f := by
  obtain ⟨decl, ty, inBody, inDecl, span, type⟩ := field
  exact ⟨decl, ty, .head child inBody, inDecl, span, type⟩

theorem holdsField_of_struct (t : FormTree) (f : FieldDef)
    (listed : f ∈ (structFormOf t.nodes).fields) : HoldsField t f := by
  unfold structFormOf at listed
  split at listed
  · next body found =>
    exact (holdsField_of_named body f listed).ofChild (Siblings.mem_of_ofKind? _ _ body found)
  · next body _ found =>
    exact (holdsField_of_tuple body f listed).ofChild (Siblings.mem_of_ofKind? _ _ body found)
  · cases listed

theorem holdsField_of_union (t : FormTree) (f : FieldDef)
    (listed : f ∈ (unionFormOf t.nodes).fields) : HoldsField t f := by
  unfold unionFormOf at listed
  cases found : t.nodes.ofKind? "field_declaration_list" with
  | none =>
    rw [found] at listed
    cases listed
  | some body =>
    rw [found] at listed
    exact (holdsField_of_named body f listed).ofChild (Siblings.mem_of_ofKind? _ _ body found)

/-! Items. -/

section Items

variable {source : Source} {t : FormTree} (formed : Formed source t)

include formed

theorem grown_typeDef (form : TypeForm) (attributes : List FormTree) (exported : Bool)
    (fields : ∀ f ∈ form.fields, HoldsField t f) :
    GrownFrom t (.item (.typeDef (typeDefOf t form attributes exported))) := by
  refine ⟨rfl, ?_, List.forall_mem_nil _⟩
  intro s listed
  obtain ⟨f, isField, inField⟩ := List.mem_flatMap.mp listed
  obtain ⟨decl, ty, holds, inside, span, type⟩ := fields f isField
  rcases List.mem_cons.mp inField with rfl | inType
  · exact ⟨decl, holds, span.symm⟩
  · rw [type] at inType
    exact formed.spans_of_held (holds.trans inside) s inType

theorem spans_of_ty? (ty? : Option FormTree) (child : ∀ u, ty? = some u → u ∈ t.children) (s : Span)
    (listed : s ∈ (ty?.map (·.value.ty)).elim [] Ty.spans) : ∃ u, t.Holds u ∧ u.span = s := by
  cases ty? with
  | none => cases listed
  | some u => exact formed.spans_of_held (.child (child u rfl)) s listed

theorem grown_fn {exported : Bool} {f : FnItem} (lowered : fnOf t exported = .ok f) :
    GrownFrom t (.item (.fn f)) := by
  have result (s : Span) (listed : s ∈ (sigOf t.nodes).ret.elim [] Ty.spans) :
      ∃ u, t.Holds u ∧ u.span = s := by
    refine spans_of_ty? formed _ ?_ s listed
    intro u found
    exact Siblings.mem_of_or found (Siblings.mem_of_labelled? _ _) (Siblings.mem_of_rightAfter? _ _)
  cases found : t.nodes.ofKind? "block" with
  | none =>
    simp only [fnOf, found] at lowered
    cases lowered
    exact ⟨rfl, result, List.forall_mem_nil _⟩
  | some body =>
    obtain ⟨b, ok, isBody⟩ := fnOf_body t body exported f lowered found
    simp only [fnOf, found] at lowered
    obtain ⟨body?, -, same⟩ := bind_eq_ok.mp lowered
    cases pure_eq_ok.mp same
    refine ⟨rfl, result, ?_⟩
    intro child below
    cases isBody
    cases List.mem_singleton.mp below
    exact ⟨body, .single (Siblings.mem_of_ofKind? _ _ body found), .block body b ok⟩

end Items

theorem mem_of_implTypes (below : Siblings Forms) (t : FormTree)
    (found : (implTypes below).1 = some t ∨ (implTypes below).2 = some t) : t ∈ below := by
  have labelled {label : String} (found : below.labelled? label = some t) : t ∈ below :=
    Siblings.mem_of_labelled? below label t found
  have type (listed : t ∈ below.parts.filter fun t => !(besideImplTypes.contains t.kind)) :
      t ∈ below := Siblings.mem_of_mem_parts _ t (List.mem_filter.mp listed).1
  unfold implTypes at found
  split at found
  · next selfTy label =>
    exact found.elim labelled fun same => labelled (label.trans same)
  · dsimp only at found
    split at found
    · next trait selfTy more types _ =>
      rw [types] at type
      rcases found with same | same
      · cases same
        exact type List.mem_cons_self
      · cases same
        exact type (List.mem_cons_of_mem _ List.mem_cons_self)
    · exact found.elim labelled fun first => type (List.mem_of_head? first)

/-- An item of an `impl` is a function or of another kind, of which no more is kept. -/
theorem of_mem_implItemsOf {exported : Bool} {ts : List FormTree} {items : List Item}
    (lowered : implItemsOf exported ts = .ok items) (i : Item) (listed : i ∈ items) :
    ∃ t ∈ ts, (∃ f, fnOf t exported = .ok f ∧ i = .fn f) ∨ i = .other t.kind t.span := by
  induction ts generalizing items with
  | nil =>
    cases lowered
    cases listed
  | cons t ts ih =>
    rw [implItemsOf] at lowered
    split at lowered
    · simp only [bind_eq_ok, pure_eq_ok] at lowered
      obtain ⟨f, first, rest, others, rfl⟩ := lowered
      rcases List.mem_cons.mp listed with rfl | later
      · exact ⟨t, List.mem_cons_self, .inl ⟨f, first, rfl⟩⟩
      · exact List.exists_mem_cons_of_exists (ih others later)
    · split at lowered
      · simp only [bind_eq_ok, pure_eq_ok] at lowered
        obtain ⟨rest, others, rfl⟩ := lowered
        rcases List.mem_cons.mp listed with rfl | later
        · exact ⟨t, List.mem_cons_self, .inr rfl⟩
        · exact List.exists_mem_cons_of_exists (ih others later)
      · exact List.exists_mem_cons_of_exists (ih lowered listed)

theorem of_mem_itemsOf {exported : Bool} {attributes ts : List FormTree} {items : List Item}
    (lowered : itemsOf exported attributes ts = .ok items) (i : Item) (listed : i ∈ items) :
    ∃ t ∈ ts, ∃ before, itemOf t before exported = .ok i := by
  induction ts generalizing attributes items with
  | nil =>
    cases lowered
    cases listed
  | cons t ts ih =>
    rw [itemsOf] at lowered
    split at lowered
    · exact List.exists_mem_cons_of_exists (ih lowered listed)
    · split at lowered
      · simp only [bind_eq_ok, pure_eq_ok] at lowered
        obtain ⟨first, ok, rest, others, rfl⟩ := lowered
        rcases List.mem_cons.mp listed with rfl | later
        · exact ⟨t, List.mem_cons_self, attributes, ok⟩
        · exact List.exists_mem_cons_of_exists (ih others later)
      · exact List.exists_mem_cons_of_exists (ih lowered listed)

section Items

variable {source : Source} {t : FormTree} (formed : Formed source t)

include formed

omit formed in
/-- An item of an `impl` comes from inside of its node. -/
theorem held_of_mem_implOf {exported : Bool} {block : ImplBlock}
    (lowered : implOf t exported = .ok block) (i : Item) (listed : i ∈ block.items) :
    ∃ u, t.Holds u ∧ ((∃ f, fnOf u exported = .ok f ∧ i = .fn f) ∨ i = .other u.kind u.span) := by
  simp only [implOf] at lowered
  split at lowered
  · cases lowered
  obtain ⟨items, itemsOk, same⟩ := bind_eq_ok.mp lowered
  cases pure_eq_ok.mp same
  obtain ⟨u, inBody, becomes⟩ := of_mem_implItemsOf itemsOk i listed
  refine ⟨u, ?_, becomes⟩
  cases found : t.nodes.ofKind? "declaration_list" with
  | none =>
    rw [found] at inBody
    cases inBody
  | some list =>
    rw [found] at inBody
    exact .head (Siblings.mem_of_ofKind? _ _ list found)
      (.single (Siblings.mem_of_mem_parts _ u inBody))

theorem grown_impl {exported : Bool} {i : ImplBlock} (lowered : implOf t exported = .ok i) :
    GrownFrom t (.item (.impl i)) := by
  have members := held_of_mem_implOf lowered
  simp only [implOf] at lowered
  split at lowered
  · cases lowered
  · next selfTy found =>
    obtain ⟨items, itemsOk, same⟩ := bind_eq_ok.mp lowered
    cases pure_eq_ok.mp same
    refine ⟨rfl, ?_, ?_⟩
    · intro s listed
      rcases List.mem_append.mp listed with inTrait | inSelf
      · exact spans_of_ty? formed _ (fun u trait => mem_of_implTypes _ u (.inl trait)) s inTrait
      · exact formed.spans_of_held (.child (mem_of_implTypes _ selfTy (.inr found))) s inSelf
    · intro child below
      obtain ⟨i, listed, rfl⟩ := List.mem_map.mp below
      obtain ⟨u, holds, ⟨f, ok, rfl⟩ | rfl⟩ := members i listed
      · exact ⟨u, holds, .method u exported f ok⟩
      · exact ⟨u, holds, .member u⟩

/-- An item among others comes from inside of the node that holds them. -/
theorem held_of_mem_items {exported : Bool} {items : List Item}
    (lowered : t.value.items exported = .ok items) (i : Item) (listed : i ∈ items) :
    ∃ u, t.Holds u ∧ ∃ attributes, itemOf u attributes exported = .ok i := by
  rw [formed.items] at lowered
  obtain ⟨u, part, becomes⟩ := of_mem_itemsOf lowered i listed
  exact ⟨u, .single (Siblings.mem_of_mem_parts _ u part), becomes⟩

/-- An item of a module comes from inside of its node; it is exported when the module is public and
exported itself. -/
theorem held_of_mem_modOf {exported : Bool} {m : ModItem} (lowered : modOf t exported = .ok m)
    (i : Item) (listed : i ∈ m.items) :
    ∃ u, t.Holds u ∧
      ∃ attributes, itemOf u attributes (exported && m.vis = .everywhere) = .ok i := by
  cases found : t.nodes.ofKind? "declaration_list" with
  | none =>
    simp only [modOf, found] at lowered
    cases lowered
    cases listed
  | some list =>
    have child := Siblings.mem_of_ofKind? _ _ list found
    simp only [modOf, found] at lowered
    obtain ⟨items, ok, same⟩ := bind_eq_ok.mp lowered
    cases pure_eq_ok.mp same
    obtain ⟨u, holds, becomes⟩ := held_of_mem_items (formed.child child) ok i listed
    exact ⟨u, .head child holds, becomes⟩

theorem grown_mod {exported : Bool} {m : ModItem} (lowered : modOf t exported = .ok m) :
    GrownFrom t (.item (.mod m)) := by
  have span : m.span = t.span := by
    simp only [modOf] at lowered
    split at lowered
    all_goals
      obtain ⟨_, -, same⟩ := bind_eq_ok.mp lowered
      rw [← pure_eq_ok.mp same]
  refine .ofChildren span rfl ?_
  intro n below
  obtain ⟨i, listed, rfl⟩ := List.mem_map.mp below
  obtain ⟨u, holds, attributes, ok⟩ := held_of_mem_modOf formed lowered i listed
  exact ⟨u, holds, .item u attributes _ i ok⟩

theorem grown_item {attributes : List FormTree} {exported : Bool} {i : Item}
    (lowered : itemOf t attributes exported = .ok i) : GrownFrom t (.item i) := by
  unfold itemOf at lowered
  dsimp only at lowered
  split at lowered
  · cases lowered
    exact grown_typeDef formed _ attributes exported (holdsField_of_struct t)
  split at lowered
  · cases lowered
    exact grown_typeDef formed _ attributes exported (List.forall_mem_nil _)
  split at lowered
  · cases lowered
    exact grown_typeDef formed _ attributes exported (holdsField_of_union t)
  split at lowered
  · cases lowered
    exact .leaf rfl rfl rfl
  split at lowered
  · obtain ⟨block, ok, rfl⟩ := map_eq_ok.mp lowered
    exact grown_impl formed ok
  split at lowered
  · obtain ⟨f, ok, rfl⟩ := map_eq_ok.mp lowered
    exact grown_fn formed ok
  split at lowered
  · obtain ⟨m, ok, rfl⟩ := map_eq_ok.mp lowered
    exact grown_mod formed ok
  · cases lowered
    exact .leaf rfl rfl rfl

/-- Whatever a node becomes, it is grown from that node. -/
theorem grownFrom_of_yields {n : Node} (yields : Yields t n) : GrownFrom t n := by
  cases yields with
  | expr e lowered => exact grown_expr formed lowered
  | block b lowered => exact grown_block formed lowered
  | stmt attributes s lowered => exact grown_stmt lowered
  | item attributes exported i lowered => exact grown_item formed lowered
  | method exported f lowered => exact grown_fn formed lowered
  | member => exact .leaf rfl rfl rfl
  | chain parts lowered => exact grown_parts "let_chain" lowered
  | unknown => exact grown_bare t "unknown"
  | file items lowered =>
    refine .ofChildren rfl rfl ?_
    intro child below
    obtain ⟨i, listed, rfl⟩ := List.mem_map.mp below
    obtain ⟨u, holds, attributes, ok⟩ := held_of_mem_items formed lowered i listed
    exact ⟨u, holds, .item u attributes true i ok⟩

/-- Every node of the walk comes from inside of the node that the walk begins with. -/
theorem yields_of_mem_walk {root : Node} (yields : Yields t root) (n : Node)
    (visited : n ∈ root.walk) : ∃ u, t.Holds u ∧ Yields u n := by
  rw [Node.walk_eq_preorder] at visited
  induction root using Node.inductionOnChildren generalizing t with
  | step root ih =>
    rw [Node.preorder_eq_cons] at visited
    rcases List.mem_cons.mp visited with rfl | deeper
    · exact ⟨t, .refl, yields⟩
    · obtain ⟨child, below, inside⟩ := List.mem_flatMap.mp deeper
      obtain ⟨u, toChild, childYields⟩ := (grownFrom_of_yields formed yields).children child below
      obtain ⟨v, toNode, nodeYields⟩ := ih child below (formed.holds toChild) childYields inside
      exact ⟨v, toChild.trans toNode, nodeYields⟩

end Items

end Lowering

/-! Nested spans. -/

namespace Tree

variable {α β : Type}

/-- Spans run forwards, and the span of a node has those of its children inside. -/
def WellNested (t : Tree α) : Prop :=
  ∀ u, t.Holds u → u.span.lo ≤ u.span.hi ∧ ∀ child ∈ u.children, u.span.contains child.span = true

instance (t : Tree α) : Decidable t.WellNested :=
  inferInstanceAs (Decidable (∀ u, t.Holds u → u.span.lo ≤ u.span.hi ∧
    ∀ child ∈ u.children, u.span.contains child.span = true))

theorem WellNested.contains {t u : Tree α} (nested : t.WellNested) (holds : t.Holds u) :
    t.span.contains u.span = true := by
  induction holds with
  | refl => simp [Span.contains]
  | @tail u child inside below ih =>
    have next := (nested u inside).2 child below
    simp only [Span.contains, Bool.and_eq_true, decide_eq_true_eq] at ih next ⊢
    omega

theorem WellNested.held {t u : Tree α} (nested : t.WellNested) (holds : t.Holds u) :
    u.WellNested := fun v inside => nested v (holds.trans inside)

/-- What an annotated tree holds are the annotated nodes of the tree. -/
theorem holds_annotate (f : NodeInfo → List (Tree β) → β) (t : Tree α) (u : Tree β)
    (holds : (annotate f t).Holds u) : ∃ v, t.Holds v ∧ annotate f v = u := by
  induction holds with
  | refl => exact ⟨t, .refl, rfl⟩
  | tail _ below ih =>
    obtain ⟨v, inside, rfl⟩ := ih
    rw [children_annotate] at below
    obtain ⟨child, isChild, same⟩ := List.mem_map.mp below
    exact ⟨child, inside.tail isChild, same⟩

end Tree

namespace Lowering

/-- All spans in a syntax tree are those of nodes that the parse tree holds. Where the parse tree is
well nested, the spans of the syntax tree are nested as well. -/
theorem spans_of_mem_walk (source : Source) (root : ParseTree) (crate : Crate)
    (lowered : Crate.ofTree source root = .ok crate) (n : Node)
    (visited : n ∈ (Node.crate crate).walk) :
    (∀ s ∈ n.span :: n.details, ∃ u, root.Holds u ∧ u.span = s) ∧
      (root.WellNested → ∀ child ∈ n.children, n.span.contains child.span = true) := by
  have formed := formed_forms source root
  have ofForms (u : FormTree) (holds : (forms source root).Holds u) :
      ∃ v, root.Holds v ∧ forms source v = u := Tree.holds_annotate _ root u holds
  obtain ⟨-, items, itemsOk, rfl⟩ := ofTree_eq_ok.mp lowered
  have file : Yields (forms source root) (.crate ⟨items, root.span⟩) := by
    have whole := Yields.file (forms source root) items itemsOk
    rwa [forms, Tree.span_annotate] at whole
  -- Both trees hold the node: as a form, from which it is lowered, and as it was parsed.
  obtain ⟨t, holds, yields⟩ := yields_of_mem_walk formed file n visited
  obtain ⟨v, inRoot, rfl⟩ := ofForms t holds
  have grown := grownFrom_of_yields (formed.holds holds) yields
  have span : n.span = v.span := grown.span.trans (Tree.span_annotate _ v)
  constructor
  · intro s listed
    rcases List.mem_cons.mp listed with rfl | detail
    · exact ⟨v, inRoot, span.symm⟩
    · obtain ⟨u, inside, same⟩ := grown.details s detail
      obtain ⟨w, inRoot, rfl⟩ := ofForms u (holds.trans inside)
      exact ⟨w, inRoot, (Tree.span_annotate _ w).symm.trans same⟩
  · intro nested child below
    obtain ⟨u, inside, childYields⟩ := grown.children child below
    obtain ⟨w, inV, rfl⟩ := Tree.holds_annotate _ v u inside
    have childSpan := (grownFrom_of_yields ((formed.holds holds).holds inside) childYields).span
    rw [span, childSpan, Tree.span_annotate]
    exact (nested.held inRoot).contains inV

end Lowering

end RustLint
