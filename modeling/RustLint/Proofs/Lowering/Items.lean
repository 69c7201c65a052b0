import RustLint.Proofs.Lowering.Conservation

set_option autoImplicit false

namespace RustLint.Lowering

/-- An item of the file is in sight. -/
def KeptItem (shown : Node → Prop) (t : FormTree) : Prop :=
  ∃ attributes exported item, itemOf t attributes exported = .ok item ∧ shown (.item item)

/-! Lists of items. -/

theorem itemOf_of_mem (exported : Bool) (attributes ts : List FormTree) (items : List Item)
    (lowered : itemsOf exported attributes ts = .ok items) (t : FormTree) (listed : t ∈ ts)
    (isItem : isItemKind t.kind = true) :
    ∃ before, ∃ item ∈ items, itemOf t before exported = .ok item := by
  induction ts generalizing attributes items with
  | nil => cases listed
  | cons u us ih =>
    rw [itemsOf] at lowered
    split at lowered
    · next isAttribute =>
      rcases List.mem_cons.mp listed with rfl | later
      · rw [isAttribute] at isItem
        exact absurd isItem (by decide)
      · exact ih _ items lowered later
    · split at lowered
      · simp only [bind_eq_ok, pure_eq_ok] at lowered
        obtain ⟨first, firstOk, rest, restOk, rfl⟩ := lowered
        rcases List.mem_cons.mp listed with rfl | later
        · exact ⟨attributes, first, List.mem_cons_self, firstOk⟩
        · obtain ⟨before, item, inRest, ok⟩ := ih [] rest restOk later
          exact ⟨before, item, List.mem_cons_of_mem _ inRest, ok⟩
      · next noItem =>
        rcases List.mem_cons.mp listed with rfl | later
        · simp [isItem] at noItem
        · exact ih [] items lowered later

theorem fnOf_of_mem (exported : Bool) (ts : List FormTree) (items : List Item)
    (lowered : implItemsOf exported ts = .ok items) (t : FormTree) (listed : t ∈ ts)
    (isFn : t.kind = "function_item") : ∃ fn, fnOf t exported = .ok fn ∧ .fn fn ∈ items := by
  induction ts generalizing items with
  | nil => cases listed
  | cons u us ih =>
    rw [implItemsOf] at lowered
    split at lowered
    · simp only [bind_eq_ok, pure_eq_ok] at lowered
      obtain ⟨first, firstOk, rest, restOk, rfl⟩ := lowered
      rcases List.mem_cons.mp listed with rfl | later
      · exact ⟨first, firstOk, List.mem_cons_self⟩
      · obtain ⟨fn, ok, inRest⟩ := ih rest restOk later
        exact ⟨fn, ok, List.mem_cons_of_mem _ inRest⟩
    · next noFn =>
      have later : t ∈ us := by
        rcases List.mem_cons.mp listed with rfl | later
        · exact absurd isFn noFn
        · exact later
      split at lowered
      · simp only [bind_eq_ok, pure_eq_ok] at lowered
        obtain ⟨rest, restOk, rfl⟩ := lowered
        obtain ⟨fn, ok, inRest⟩ := ih rest restOk later
        exact ⟨fn, ok, List.mem_cons_of_mem _ inRest⟩
      · exact ih items lowered later

/-! Items that hold further items. -/

theorem itemOf_function (t : FormTree) (attributes : List FormTree) (exported : Bool)
    (kind : t.kind = "function_item") :
    itemOf t attributes exported = Item.fn <$> fnOf t exported := by
  simp [itemOf, kind]

theorem itemOf_module (t : FormTree) (attributes : List FormTree) (exported : Bool)
    (kind : t.kind = "mod_item") :
    itemOf t attributes exported = Item.mod <$> modOf t exported := by
  simp [itemOf, kind]

theorem itemOf_impl (t : FormTree) (attributes : List FormTree) (exported : Bool)
    (kind : t.kind = "impl_item") :
    itemOf t attributes exported = Item.impl <$> implOf t exported := by
  simp [itemOf, kind]

theorem fnOf_body (t body : FormTree) (exported : Bool) (fn : FnItem)
    (lowered : fnOf t exported = .ok fn) (found : t.nodes.ofKind? "block" = some body) :
    ∃ b, body.value.block = .ok b ∧ fn.body = some b := by
  simp only [fnOf, found] at lowered
  obtain ⟨result, mapped, same⟩ := bind_eq_ok.mp lowered
  obtain ⟨b, ok, rfl⟩ := map_eq_ok.mp mapped
  exact ⟨b, ok, by rw [← pure_eq_ok.mp same]⟩

theorem modOf_items (t list : FormTree) (exported : Bool) (m : ModItem)
    (lowered : modOf t exported = .ok m)
    (found : t.nodes.ofKind? "declaration_list" = some list) :
    ∃ inner, list.value.items inner = .ok m.items := by
  simp only [modOf, found] at lowered
  obtain ⟨items, ok, same⟩ := bind_eq_ok.mp lowered
  exact ⟨_, by rw [← pure_eq_ok.mp same, ok]⟩

theorem implOf_items (t list : FormTree) (exported : Bool) (i : ImplBlock)
    (lowered : implOf t exported = .ok i)
    (found : t.nodes.ofKind? "declaration_list" = some list) :
    implItemsOf exported list.nodes.parts = .ok i.items := by
  simp only [implOf, found, Option.elim_some] at lowered
  split at lowered
  · cases lowered
  · obtain ⟨items, ok, same⟩ := bind_eq_ok.mp lowered
    rw [← pure_eq_ok.mp same, ok]

theorem stmtOf_item (t : FormTree) (attributes : List FormTree)
    (isItem : isItemKind t.kind = true) :
    stmtOf t attributes = return some (.item (← itemOf t attributes false) t.span) := by
  have other (kind : String) (noItem : isItemKind kind = false) : t.kind ≠ kind := by
    intro same
    rw [same, noItem] at isItem
    cases isItem
  have counts : emptyStmtKinds.contains t.kind = false := by
    simp [emptyStmtKinds, other "empty_statement" (by decide),
      other "inner_attribute_item" (by decide), other "label" (by decide)]
  rw [stmtOf, if_neg (by rw [counts]; decide), if_neg (other _ (by decide)),
    if_neg (other _ (by decide)), if_pos isItem]

section Kept

variable (source : Source) (shown : Node → Prop) (closed : Closed shown)

include closed

theorem KeptItem.inModule (m list t : FormTree) (formed : Formed source m) (kept : KeptItem shown m)
    (kind : m.kind = "mod_item") (listed : m.nodes.ofKind? "declaration_list" = some list)
    (child : t ∈ list.children) (part : t.info.isPart = true)
    (isItem : isItemKind t.kind = true) : KeptItem shown t := by
  obtain ⟨attributes, exported, item, lowered, visible⟩ := kept
  rw [itemOf_module m attributes exported kind] at lowered
  obtain ⟨mod, modOk, rfl⟩ := map_eq_ok.mp lowered
  obtain ⟨inner, itemsOk⟩ := modOf_items m list exported mod modOk listed
  rw [(formed.child (Siblings.mem_of_ofKind? _ _ list listed)).items] at itemsOk
  obtain ⟨before, item, inItems, ok⟩ := itemOf_of_mem inner [] list.nodes.parts mod.items itemsOk t
    ((Siblings.mem_parts_iff _ t).mpr ⟨child, part⟩) isItem
  exact ⟨before, inner, item, ok, closed _ _ visible (List.mem_map_of_mem inItems)⟩

theorem KeptItem.inImpl (i list t : FormTree) (kept : KeptItem shown i)
    (kind : i.kind = "impl_item") (listed : i.nodes.ofKind? "declaration_list" = some list)
    (child : t ∈ list.children) (part : t.info.isPart = true) (isFn : t.kind = "function_item") :
    KeptItem shown t := by
  obtain ⟨attributes, exported, item, lowered, visible⟩ := kept
  rw [itemOf_impl i attributes exported kind] at lowered
  obtain ⟨impl, implOk, rfl⟩ := map_eq_ok.mp lowered
  have itemsOk := implOf_items i list exported impl implOk listed
  obtain ⟨fn, ok, inItems⟩ := fnOf_of_mem exported list.nodes.parts impl.items itemsOk t
    ((Siblings.mem_parts_iff _ t).mpr ⟨child, part⟩) isFn
  refine ⟨[], exported, .fn fn, ?_, closed _ _ visible (List.mem_map_of_mem inItems)⟩
  rw [itemOf_function t [] exported isFn, ok]
  rfl

/-- The body of a function that is kept is kept. -/
theorem KeptItem.body_of_fnOf (fn body : FormTree) (exported : Bool) (f : FnItem)
    (lowered : fnOf fn exported = .ok f) (visible : shown (.item (.fn f)))
    (hasBody : HasBody fn body) : Kept shown body := by
  obtain ⟨b, ok, isBody⟩ := fnOf_body fn body exported f lowered hasBody.body
  refine .block body b (Siblings.kind_of_ofKind? _ _ body hasBody.body) ok ?_
  exact closed _ _ visible (by simp [Node.children, Node.childrenOfItem, isBody])

theorem KeptItem.body (fn body : FormTree) (kept : KeptItem shown fn) (hasBody : HasBody fn body) :
    Kept shown body := by
  obtain ⟨attributes, exported, item, lowered, visible⟩ := kept
  rw [itemOf_function fn attributes exported hasBody.kind] at lowered
  obtain ⟨f, fnOk, rfl⟩ := map_eq_ok.mp lowered
  exact KeptItem.body_of_fnOf shown closed fn body exported f fnOk visible hasBody

/-- An item in a block that is kept is kept. -/
theorem KeptItem.inBlock (block t : FormTree) (formed : Formed source block)
    (kept : Kept shown block) (kind : block.kind = "block") (child : t ∈ block.children)
    (part : t.info.isPart = true) (isItem : isItemKind t.kind = true) : KeptItem shown t := by
  obtain ⟨b, blockOk, visible⟩ := Kept.asBlock source shown closed block formed kept kind
  have noAttribute : t.kind ≠ "attribute_item" := by
    intro same
    rw [same] at isItem
    exact absurd isItem (by decide)
  obtain ⟨before, stmt?, ok, inStmts⟩ := stmtOf_of_mem [] block.nodes.parts b.stmts
    (stmts_of_block source block b formed blockOk) t
    ((Siblings.mem_parts_iff _ t).mpr ⟨child, part⟩) noAttribute
  rw [stmtOf_item t before isItem] at ok
  obtain ⟨item, itemOk, same⟩ := bind_eq_ok.mp ok
  cases pure_eq_ok.mp same
  have stmt : shown (.stmt (.item item t.span)) :=
    closed _ _ visible (List.mem_map_of_mem (inStmts _ rfl))
  exact ⟨before, false, item, itemOk, closed _ _ stmt (List.mem_singleton_self _)⟩

/-- Every item of a file is kept when those on its top level are. -/
theorem KeptItem.ofItem (root t : FormTree) (formed : Formed source root)
    (top : ∀ u ∈ root.children, u.info.isPart = true → isItemKind u.kind = true →
      KeptItem shown u)
    (item : IsItemOf root t) : Formed source t ∧ KeptItem shown t := by
  induction item with
  | top t child part isItem => exact ⟨formed.child child, top t child part isItem⟩
  | inModule m list t _ kind listed child part isItem outer =>
    have inList := outer.1.child (Siblings.mem_of_ofKind? _ _ list listed)
    exact ⟨inList.child child, KeptItem.inModule source shown closed m list t outer.1 outer.2 kind
      listed child part isItem⟩
  | inImpl i list t _ kind listed child part isFn outer =>
    have inList := outer.1.child (Siblings.mem_of_ofKind? _ _ list listed)
    exact ⟨inList.child child,
      KeptItem.inImpl shown closed i list t outer.2 kind listed child part isFn⟩
  | inBlock fn body block t _ hasBody reached kind child part isItem outer =>
    have bodyFormed := outer.1.child (Siblings.mem_of_ofKind? _ _ body hasBody.body)
    obtain ⟨blockFormed, blockKept⟩ := Kept.run source shown closed body block bodyFormed
      (KeptItem.body shown closed fn body outer.2 hasBody) reached
    exact ⟨blockFormed.child child,
      KeptItem.inBlock source shown closed block t blockFormed blockKept kind child part isItem⟩

end Kept

/-- The items on the top level of a file are in its syntax tree. -/
theorem keptItem_top (source : Source) (root : ParseTree) (crate : Crate)
    (lowered : Crate.ofTree source root = .ok crate) (u : FormTree)
    (child : u ∈ (forms source root).children) (part : u.info.isPart = true)
    (isItem : isItemKind u.kind = true) : KeptItem (· ∈ (Node.crate crate).walk) u := by
  obtain ⟨-, items, itemsOk, rfl⟩ := ofTree_eq_ok.mp lowered
  rw [(formed_forms source root).items] at itemsOk
  obtain ⟨before, item, listed, ok⟩ := itemOf_of_mem true [] _ items itemsOk u
    ((Siblings.mem_parts_iff _ u).mpr ⟨child, part⟩) isItem
  refine ⟨before, true, item, ok, ?_⟩
  exact Node.mem_walk_of_mem_children _ _ _ (Node.mem_walk_self _) (List.mem_map_of_mem listed)

/-- The syntax tree holds the function as lowered from the node. -/
def HoldsFn (source : Source) (crate : Crate) (fn : ParseTree) : Prop :=
  ∃ exported f, fnOf (forms source fn) exported = .ok f ∧ .fn f ∈ (Node.crate crate).items

theorem closed_walk (crate : Crate) : Closed (· ∈ (Node.crate crate).walk) :=
  fun n child shown below => Node.mem_walk_of_mem_children _ n child shown below

theorem holdsFn_of_isItemOf (source : Source) (root fn : ParseTree) (crate : Crate)
    (lowered : Crate.ofTree source root = .ok crate) (item : IsItemOf root fn)
    (kind : fn.kind = "function_item") : HoldsFn source crate fn := by
  obtain ⟨-, attributes, exported, item, itemOk, visible⟩ := KeptItem.ofItem source _
    (closed_walk crate) (forms source root) (forms source fn) (formed_forms source root)
    (keptItem_top source root crate lowered) (item.annotate (formsOf source))
  rw [itemOf_function _ _ _ (by rwa [forms, Tree.kind_annotate])] at itemOk
  obtain ⟨f, ok, rfl⟩ := map_eq_ok.mp itemOk
  exact ⟨exported, f, ok, List.mem_filterMap.mpr ⟨_, visible, rfl⟩⟩

theorem kept_body_of_holdsFn (source : Source) (crate : Crate) (fn body : ParseTree)
    (holds : HoldsFn source crate fn) (hasBody : HasBody fn body) :
    Kept (· ∈ (Node.crate crate).walk) (forms source body) := by
  obtain ⟨exported, f, ok, inItems⟩ := holds
  obtain ⟨n, visible, isItem⟩ := List.mem_filterMap.mp inItems
  cases n with
  | item i =>
    cases isItem
    exact KeptItem.body_of_fnOf _ (closed_walk crate) _ _ exported f ok visible
      (hasBody.annotate (formsOf source))
  | crate _ | block _ | stmt _ | expr _ => cases isItem

/-- No function of the file is lost, and no `if` that one of its functions evaluates: the syntax
tree holds an `if` with its span. -/
theorem evaluated_if_mem_exprs (source : Source) (root : ParseTree) (crate : Crate)
    (lowered : Crate.ofTree source root = .ok crate) :
    (∀ fn, IsItemOf root fn → fn.kind = "function_item" → HoldsFn source crate fn) ∧
    ∀ fn body node cond consequence, HoldsFn source crate fn → HasBody fn body →
      Evaluates body node → LabelledIf node cond consequence →
      ∃ i : If, .branch i ∈ (Node.crate crate).exprs ∧ i.span = node.span := by
  constructor
  · intro fn item kind
    exact holdsFn_of_isItemOf source root fn crate lowered item kind
  · intro fn body node cond consequence holds hasBody evaluates whole
    have bodyKept := kept_body_of_holdsFn source crate fn body holds hasBody
    obtain ⟨nodeFormed, nodeKept⟩ := Kept.run source _ (closed_walk crate) _ _
      (formed_forms source body) bodyKept (evaluates.annotate (formsOf source))
    obtain ⟨i, visible, span⟩ := Kept.branch source _ _ _ _ nodeFormed nodeKept
      (whole.annotate (formsOf source))
    refine ⟨i, List.mem_filterMap.mpr ⟨_, visible, rfl⟩, ?_⟩
    rw [span, Tree.span_annotate]

/-! The file `fn f() { if m!() {} }` and the nodes on the way to its `if`. -/

/-- The `if` with a condition and an empty block. -/
def sampleIf : ParseTree :=
  ⟨⟨"if_expression", true, 9, 19, none⟩, (), [
    ⟨⟨"if", false, 9, 11, none⟩, (), []⟩,
    ⟨⟨"macro_invocation", true, 12, 16, some "condition"⟩, (), []⟩,
    ⟨⟨"block", true, 17, 19, some "consequence"⟩, (), []⟩]⟩

/-- The statement that holds the `if`. -/
def sampleStatement : ParseTree :=
  ⟨⟨"expression_statement", true, 9, 19, none⟩, (), [sampleIf]⟩

def sampleBody : ParseTree := ⟨⟨"block", true, 7, 21, some "body"⟩, (), [sampleStatement]⟩

def sampleFn : ParseTree :=
  ⟨⟨"function_item", true, 0, 21, none⟩, (), [
    ⟨⟨"identifier", true, 3, 4, some "name"⟩, (), []⟩,
    ⟨⟨"parameters", true, 4, 6, some "parameters"⟩, (), []⟩,
    sampleBody]⟩

def sampleFile : ParseTree := ⟨⟨"source_file", true, 0, 21, none⟩, (), [sampleFn]⟩

theorem sample_if_mem_exprs :
    ∃ crate, Crate.ofTree ⟨"fn f() \x7b if m!() \x7b\x7d \x7d", none⟩ sampleFile = .ok crate ∧
      ∃ i : If, .branch i ∈ (Node.crate crate).exprs ∧ i.span = ⟨9, 19, 0⟩ := by
  refine ⟨_, rfl, ?_⟩
  obtain ⟨functions, branches⟩ := evaluated_if_mem_exprs _ sampleFile _ rfl
  have item : IsItemOf sampleFile sampleFn := .top _ List.mem_cons_self rfl (by decide)
  have toStatement : Enters sampleBody sampleStatement :=
    ⟨.statement _ rfl List.mem_cons_self (by decide), ⟨rfl, by decide, by decide⟩⟩
  have toIf : Enters sampleStatement sampleIf :=
    ⟨.only _ (by decide) rfl, ⟨rfl, by decide, by decide⟩⟩
  exact branches sampleFn sampleBody sampleIf _ _ (functions sampleFn item rfl) ⟨rfl, rfl⟩
    (.tail (.single toStatement) toIf) ⟨rfl, rfl, rfl⟩

end RustLint.Lowering
