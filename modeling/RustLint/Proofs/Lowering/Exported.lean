import RustLint.Proofs.Lowering.Containment

set_option autoImplicit false

namespace RustLint

namespace Node

/-- A module that is not public without limits, or a block: what is inside cannot be named from
outside. -/
def hides : Node → Bool
  | item (.mod m) => m.vis ≠ .everywhere
  | block _ => true
  | _ => false

/-- The node is an expression or a block. -/
def isEvaluated : Node → Bool
  | expr _ | block _ => true
  | _ => false

theorem isEvaluated_of_mem_childrenOfExpr (e : Expr) (child : Node)
    (isChild : child ∈ childrenOfExpr e) : child.isEvaluated = true := by
  have ofExprs (es : List Expr) (listed : child ∈ es.map expr) : child.isEvaluated = true := by
    obtain ⟨e, -, rfl⟩ := List.mem_map.mp listed
    rfl
  cases e with
  | branch node =>
    rcases List.mem_append.mp isChild with early | behind
    · rcases List.mem_cons.mp early with rfl | last
      · cases node.cond <;> rfl
      · cases List.mem_singleton.mp last
        rfl
    · obtain ⟨els, -, rfl⟩ := Option.map_eq_some_iff.mp (Option.mem_toList.mp behind)
      cases els <;> rfl
  | range lo hi op span =>
    rcases List.mem_append.mp isChild with lower | upper
    · obtain ⟨e, -, rfl⟩ := Option.map_eq_some_iff.mp (Option.mem_toList.mp lower)
      rfl
    · obtain ⟨e, -, rfl⟩ := Option.map_eq_some_iff.mp (Option.mem_toList.mp upper)
      rfl
  | other kind parts span =>
    obtain ⟨part, -, rfl⟩ := List.mem_map.mp isChild
    cases part <;> rfl
  | call func args span | methodCall func method args span =>
    rcases List.mem_cons.mp isChild with rfl | later
    · rfl
    · exact ofExprs args later
  | binary op lhs rhs span | assign op lhs rhs span => exact ofExprs [lhs, rhs] isChild
  | unary op inner span | cast inner ty span | closure inner span | paren inner span =>
    exact ofExprs [inner] isChild
  | block body span =>
    cases List.mem_singleton.mp isChild
    rfl

end Node

/-- The flag of an item that has one. -/
def Item.exported? : Item → Option Bool
  | typeDef d => some d.exported
  | fn f => some f.exported
  | impl i => some i.exported
  | traitDef _ | mod _ | other _ _ => none

namespace Lowering

theorem implOf_exported {t : FormTree} {exported : Bool} {i : ImplBlock}
    (lowered : implOf t exported = .ok i) : i.exported = exported := by
  simp only [implOf] at lowered
  split at lowered
  · cases lowered
  · obtain ⟨_, -, same⟩ := bind_eq_ok.mp lowered
    rw [← pure_eq_ok.mp same]

theorem fnOf_exported {t : FormTree} {exported : Bool} {f : FnItem}
    (lowered : fnOf t exported = .ok f) : f.exported = exported := by
  simp only [fnOf] at lowered
  split at lowered
  all_goals
    obtain ⟨_, -, same⟩ := bind_eq_ok.mp lowered
    rw [← pure_eq_ok.mp same]

/-- What an item can be, and that its flag is handed on. -/
theorem itemOf_eq_ok {t : FormTree} {attributes : List FormTree} {exported : Bool} {i : Item}
    (lowered : itemOf t attributes exported = .ok i) :
    (∃ form, i = .typeDef (typeDefOf t form attributes exported)) ∨
    (∃ block, implOf t exported = .ok block ∧ i = .impl block) ∨
    (∃ f, fnOf t exported = .ok f ∧ i = .fn f) ∨
    (∃ m, modOf t exported = .ok m ∧ i = .mod m) ∨
    (i.exported? = none ∧ Node.childrenOfItem i = []) := by
  unfold itemOf at lowered
  dsimp only at lowered
  split at lowered
  · exact .inl ⟨_, (Except.ok.inj lowered).symm⟩
  split at lowered
  · exact .inl ⟨_, (Except.ok.inj lowered).symm⟩
  split at lowered
  · exact .inl ⟨_, (Except.ok.inj lowered).symm⟩
  split at lowered
  · cases lowered
    exact .inr (.inr (.inr (.inr ⟨rfl, rfl⟩)))
  split at lowered
  · obtain ⟨block, ok, rfl⟩ := map_eq_ok.mp lowered
    exact .inr (.inl ⟨block, ok, rfl⟩)
  split at lowered
  · obtain ⟨f, ok, rfl⟩ := map_eq_ok.mp lowered
    exact .inr (.inr (.inl ⟨f, ok, rfl⟩))
  split at lowered
  · obtain ⟨m, ok, rfl⟩ := map_eq_ok.mp lowered
    exact .inr (.inr (.inr (.inl ⟨m, ok, rfl⟩)))
  · cases lowered
    exact .inr (.inr (.inr (.inr ⟨rfl, rfl⟩)))

/-- An item among the statements is not exported. -/
theorem itemOf_of_stmtOf {t : FormTree} {attributes : List FormTree} {i : Item} {span : Span}
    (lowered : stmtOf t attributes = .ok (some (.item i span))) :
    itemOf t attributes false = .ok i := by
  unfold stmtOf at lowered
  split at lowered
  · cases lowered
  split at lowered
  · rcases exprStmtOf_eq_ok lowered with ⟨-, none⟩ | ⟨_, _, -, -, same⟩
    · cases none
    · cases same
  split at lowered
  · simp only [bindingOf_eq, bind_eq_ok, pure_eq_ok] at lowered
    obtain ⟨_, -, _, -, same⟩ := lowered
    cases same
  split at lowered
  · obtain ⟨i, ok, same⟩ := bind_eq_ok.mp lowered
    cases pure_eq_ok.mp same
    exact ok
  · obtain ⟨_, -, same⟩ := bind_eq_ok.mp lowered
    cases pure_eq_ok.mp same

/-- The node is lowered from a node that was reached with the flag. Expressions and blocks have
none, and among statements it is down. -/
inductive Exposed (t : FormTree) : Bool → Node → Prop
  | file (items : List Item) (lowered : t.value.items true = .ok items) :
      Exposed t true (.crate ⟨items, t.span⟩)
  | item (exported : Bool) (attributes : List FormTree) (i : Item)
      (lowered : itemOf t attributes exported = .ok i) : Exposed t exported (.item i)
  | method (exported : Bool) (f : FnItem) (lowered : fnOf t exported = .ok f) :
      Exposed t exported (.item (.fn f))
  | member (exported : Bool) : Exposed t exported (.item (.other t.kind t.span))
  | stmt (attributes : List FormTree) (s : Stmt)
      (lowered : stmtOf t attributes = .ok (some s)) : Exposed t false (.stmt s)
  | evaluated (exported : Bool) (n : Node) (yields : Yields t n)
      (isEvaluated : n.isEvaluated = true) : Exposed t exported n

/-- The flag of an item is the one that it was reached with. -/
theorem Exposed.exported? {exported flag : Bool} {t : FormTree} {i : Item}
    (exposed : Exposed t exported (.item i)) (isFlag : i.exported? = some flag) :
    flag = exported := by
  cases exposed with
  | item _ attributes _ lowered =>
    rcases itemOf_eq_ok lowered with
      ⟨form, rfl⟩ | ⟨block, ok, rfl⟩ | ⟨f, ok, rfl⟩ | ⟨m, -, rfl⟩ | ⟨none, -⟩
    · exact (Option.some.inj isFlag).symm
    · exact (Option.some.inj isFlag).symm.trans (implOf_exported ok)
    · exact (Option.some.inj isFlag).symm.trans (fnOf_exported ok)
    · cases isFlag
    · cases none.symm.trans isFlag
  | method _ f lowered => exact (Option.some.inj isFlag).symm.trans (fnOf_exported lowered)
  | member => cases isFlag
  | evaluated _ _ _ isEvaluated => cases isEvaluated

section Step

variable {source : Source} {t : FormTree} (formed : Formed source t)

include formed

/-- Where expressions and blocks alone stand below a node, any flag is right for them. -/
theorem exposed_of_evaluated {n : Node} (exported : Bool) (yields : Yields t n)
    (evaluated : ∀ child ∈ n.children, child.isEvaluated = true) (child : Node)
    (isChild : child ∈ n.children) : ∃ u, t.Holds u ∧ Exposed u exported child := by
  obtain ⟨u, holds, childYields⟩ := (grownFrom_of_yields formed yields).children child isChild
  exact ⟨u, holds, .evaluated exported child childYields (evaluated child isChild)⟩

theorem exposed_fn {f : FnItem} (exported : Bool) (yields : Yields t (.item (.fn f))) (child : Node)
    (isChild : child ∈ Node.childrenOfItem (.fn f)) :
    ∃ u, t.Holds u ∧ Exposed u exported child := by
  refine exposed_of_evaluated formed exported yields ?_ child isChild
  intro child isChild
  obtain ⟨b, -, rfl⟩ := Option.map_eq_some_iff.mp (Option.mem_toList.mp isChild)
  rfl

theorem exposed_item {exported : Bool} {attributes : List FormTree} {i : Item}
    (lowered : itemOf t attributes exported = .ok i) (child : Node)
    (isChild : child ∈ (Node.item i).children) :
    ∃ u, t.Holds u ∧ Exposed u (exported && !(Node.item i).hides) child := by
  rcases itemOf_eq_ok lowered with
    ⟨form, rfl⟩ | ⟨block, ok, rfl⟩ | ⟨f, ok, rfl⟩ | ⟨m, ok, rfl⟩ | ⟨-, none⟩
  · cases isChild
  · obtain ⟨i, listed, rfl⟩ := List.mem_map.mp isChild
    have unhidden : (exported && !(Node.item (.impl block)).hides) = exported := Bool.and_true _
    rw [unhidden]
    obtain ⟨u, holds, ⟨f, isFn, rfl⟩ | rfl⟩ := held_of_mem_implOf ok i listed
    · exact ⟨u, holds, .method exported f isFn⟩
    · exact ⟨u, holds, .member exported⟩
  · exact exposed_fn formed _ (.method t exported f ok) child isChild
  · obtain ⟨i, listed, rfl⟩ := List.mem_map.mp isChild
    obtain ⟨u, holds, before, isItem⟩ := held_of_mem_modOf formed ok i listed
    refine ⟨u, holds, .item _ before i ?_⟩
    have stays : (!(Node.item (.mod m)).hides) = decide (m.vis = .everywhere) := by
      simp [Node.hides]
    rwa [stays]
  · rw [Node.children, none] at isChild
    cases isChild

theorem exposed_stmt {attributes : List FormTree} {s : Stmt}
    (lowered : stmtOf t attributes = .ok (some s)) (child : Node)
    (isChild : child ∈ (Node.stmt s).children) : ∃ u, t.Holds u ∧ Exposed u false child := by
  have yields : Yields t (.stmt s) := .stmt t attributes s lowered
  cases s with
  | item i span =>
    cases List.mem_singleton.mp isChild
    exact ⟨t, .refl, .item false attributes i (itemOf_of_stmtOf lowered)⟩
  | expr e semi span =>
    refine exposed_of_evaluated formed false yields ?_ child isChild
    intro child isChild
    cases List.mem_singleton.mp isChild
    rfl
  | binding init els span =>
    refine exposed_of_evaluated formed false yields ?_ child isChild
    intro child isChild
    rcases List.mem_append.mp isChild with value | block
    · obtain ⟨e, -, rfl⟩ := Option.map_eq_some_iff.mp (Option.mem_toList.mp value)
      rfl
    · obtain ⟨b, -, rfl⟩ := Option.map_eq_some_iff.mp (Option.mem_toList.mp block)
      rfl

/-- On the way down the flag stays up as long as no node hides what is inside. -/
theorem Exposed.child {exported : Bool} {n : Node} (exposed : Exposed t exported n) (child : Node)
    (isChild : child ∈ n.children) :
    ∃ u, t.Holds u ∧ Exposed u (exported && !n.hides) child := by
  cases exposed with
  | file items lowered =>
    obtain ⟨i, listed, rfl⟩ := List.mem_map.mp isChild
    obtain ⟨u, holds, attributes, ok⟩ := held_of_mem_items formed lowered i listed
    exact ⟨u, holds, .item true attributes i ok⟩
  | item _ attributes i lowered => exact exposed_item formed lowered child isChild
  | method _ f lowered => exact exposed_fn formed _ (.method t exported f lowered) child isChild
  | member => cases isChild
  | stmt attributes s lowered => exact exposed_stmt formed lowered child isChild
  | evaluated _ n yields isEvaluated =>
    cases n with
    | expr e =>
      exact exposed_of_evaluated formed _ yields (Node.isEvaluated_of_mem_childrenOfExpr e) child
        isChild
    | block b =>
      rw [Node.hides, Bool.not_true, Bool.and_false]
      obtain ⟨u, holds, ofChild⟩ := (grownFrom_of_yields formed yields).children child isChild
      obtain ⟨s, -, rfl⟩ := List.mem_map.mp isChild
      cases ofChild with
      | stmt attributes _ lowered => exact ⟨u, holds, .stmt attributes s lowered⟩
    | crate _ | item _ | stmt _ => cases isEvaluated

/-- The flag is still up when no node on the way hides what is inside. -/
theorem Exposed.path {root n : Node} {above : List Node} (exposed : Exposed t true root)
    (path : Node.Path root above n) :
    ∃ u, t.Holds u ∧ Exposed u (above.all fun n => !n.hides) n := by
  induction path with
  | here => exact ⟨t, .refl, exposed⟩
  | child above n child _ isChild ih =>
    obtain ⟨u, toNode, atNode⟩ := ih
    obtain ⟨v, toChild, atChild⟩ := atNode.child (formed.holds toNode) child isChild
    refine ⟨v, toNode.trans toChild, ?_⟩
    rwa [List.all_cons, Bool.and_comm]

end Step

/-- An item of a file is exported just when every module around it is public without limits and it
does not stand in a block. -/
theorem exported_iff_of_mem_items (source : Source) (root : ParseTree) (crate : Crate)
    (lowered : Crate.ofTree source root = .ok crate) (i : Item)
    (listed : i ∈ (Node.crate crate).items) (exported : Bool)
    (flag : i.exported? = some exported) :
    (∃ above, Node.Path (.crate crate) above (.item i)) ∧
      ∀ above, Node.Path (.crate crate) above (.item i) →
        (exported = true ↔ ∀ n ∈ above, n.hides = false) := by
  obtain ⟨-, items, itemsOk, rfl⟩ := ofTree_eq_ok.mp lowered
  constructor
  · obtain ⟨n, visited, isItem⟩ := List.mem_filterMap.mp listed
    cases n with
    | item i =>
      cases isItem
      exact (Node.mem_walk_iff _ _).mp visited
    | crate _ | block _ | stmt _ | expr _ => cases isItem
  · intro above path
    have file : Exposed (forms source root) true (.crate ⟨items, root.span⟩) := by
      have whole := Exposed.file (t := forms source root) items itemsOk
      rwa [forms, Tree.span_annotate] at whole
    obtain ⟨u, -, exposed⟩ := file.path (formed_forms source root) path
    rw [exposed.exported? flag, List.all_eq_true]
    simp only [Bool.not_eq_true']

/-- The file `mod m { fn f() {} }`. -/
def privateModule : ParseTree :=
  ⟨⟨"source_file", true, 0, 19, none⟩, (), [
    ⟨⟨"mod_item", true, 0, 19, none⟩, (), [
      ⟨⟨"identifier", true, 4, 5, some "name"⟩, (), []⟩,
      ⟨⟨"declaration_list", true, 6, 19, some "body"⟩, (), [
        ⟨⟨"function_item", true, 8, 17, none⟩, (), [
          ⟨⟨"identifier", true, 11, 12, some "name"⟩, (), []⟩,
          ⟨⟨"parameters", true, 12, 14, some "parameters"⟩, (), []⟩,
          ⟨⟨"block", true, 15, 17, some "body"⟩, (), []⟩]⟩]⟩]⟩]⟩

theorem privateModule_fn_not_exported :
    ∃ crate m f, Crate.ofTree ⟨"mod m { fn f() {} }", none⟩ privateModule = .ok crate ∧
      crate.items = [.mod m] ∧ m.items = [.fn f] ∧ f.exported = false ∧
      ¬∀ n ∈ [Node.item (.mod m), .crate crate], n.hides = false := by
  obtain ⟨crate, m, f, lowered, top, inside, flag⟩ : ∃ crate m f,
      Crate.ofTree ⟨"mod m \x7b fn f() \x7b\x7d \x7d", none⟩ privateModule = .ok crate ∧
      crate.items = [.mod m] ∧ m.items = [.fn f] ∧ f.exported = false :=
    ⟨_, _, _, rfl, rfl, rfl, rfl⟩
  refine ⟨crate, m, f, lowered, top, inside, flag, ?_⟩
  have toModule : Node.item (.mod m) ∈ (Node.crate crate).children := by
    rw [Node.children, top]
    exact List.mem_singleton_self _
  have toFn : Node.item (.fn f) ∈ (Node.item (.mod m)).children := by
    rw [Node.children, Node.childrenOfItem, inside]
    exact List.mem_singleton_self _
  have path : Node.Path (.crate crate) [.item (.mod m), .crate crate] (.item (.fn f)) :=
    .child _ _ _ (.child _ _ _ .here toModule) toFn
  have listed : Item.fn f ∈ (Node.crate crate).items :=
    List.mem_filterMap.mpr ⟨_, (Node.mem_walk_iff _ _).mpr ⟨_, path⟩, rfl⟩
  obtain ⟨-, iff⟩ := exported_iff_of_mem_items _ privateModule crate lowered (.fn f) listed false
    (congrArg some flag)
  exact fun all => Bool.false_ne_true ((iff _ path).mpr all)

end Lowering

end RustLint
