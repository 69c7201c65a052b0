import RustLint.Proofs.Collapsing
import RustLint.Proofs.Collapsing.Literals
import RustLint.Proofs.Lowering.Apart

set_option autoImplicit false

namespace RustLint

/-- The `if` that an expression is. -/
def Expr.branch? : Expr → Option If
  | branch node => some node
  | _ => none

namespace Node

def branch? (n : Node) : Option If := n.expr?.bind Expr.branch?

/-- The `if`s among the expressions of the walk. -/
def branches (root : Node) : List If := root.exprs.filterMap Expr.branch?

theorem branches_eq (root : Node) : root.branches = root.preorder.filterMap branch? := by
  rw [branches, exprs, walk_eq_preorder, List.filterMap_filterMap]
  rfl

end Node

namespace Lowering

/-- The node is lowered to the `if`. -/
def Becomes (t : FormTree) (node : If) : Prop :=
  t.kind ∈ ifKinds ∧ t.value.expr = .ok (.branch node)

/-- Each `if` among the nodes has a parse node of its own among the listed ones. -/
def Placed (ts : List FormTree) (ns : List Node) : Prop :=
  ∃ us, us.Subperm ts ∧ List.Forall₂ Becomes us (ns.filterMap Node.branch?)

theorem Placed.nil (ts : List FormTree) : Placed ts [] := ⟨[], List.nil_subperm, .nil⟩

theorem Placed.append {ts us : List FormTree} {ns ms : List Node} (first : Placed ts ns)
    (second : Placed us ms) : Placed (ts ++ us) (ns ++ ms) := by
  obtain ⟨vs, among, become⟩ := first
  obtain ⟨ws, others, becomeOthers⟩ := second
  refine ⟨vs ++ ws, among.append others, ?_⟩
  rw [List.filterMap_append]
  exact List.rel_append become becomeOthers

theorem Placed.mono {ts us : List FormTree} {ns : List Node} (placed : Placed ts ns)
    (among : ts.Subperm us) : Placed us ns := by
  obtain ⟨vs, inside, become⟩ := placed
  exact ⟨vs, inside.trans among, become⟩

/-- What is below a node has its places where the nodes lie that it was lowered from. -/
theorem Placed.flatMap {us : List FormTree} {ns : List Node} (yields : List.Forall₂ Yields us ns)
    (each : ∀ u ∈ us, ∀ n ∈ ns, Yields u n → Placed u.preorder n.preorder) :
    Placed (us.flatMap Tree.preorder) (ns.flatMap Node.preorder) := by
  induction yields with
  | nil => exact .nil _
  | cons here _ ih =>
    rw [List.flatMap_cons, List.flatMap_cons]
    refine (each _ List.mem_cons_self _ List.mem_cons_self here).append (ih ?_)
    intro u inside n below
    exact each u (List.mem_cons_of_mem _ inside) n (List.mem_cons_of_mem _ below)

/-- Every `if` below a node has a place of its own below the parse node. -/
theorem placed_of_yields {source : Source} {t : FormTree} {root : Node} (formed : Formed source t)
    (labelled : ∀ u, t.Holds u → Labelled u) (yields : Yields t root) :
    Placed t.preorder root.preorder := by
  induction root using Node.inductionOnChildren generalizing t with
  | step root ih =>
    -- The children have their places where their own nodes lie, whichever these are.
    have below {ts : List FormTree} (come : ComeFrom ts root.children)
        (inside : Tree.Within ts [t]) :
        Placed (ts.flatMap Tree.preorder) (root.children.flatMap Node.preorder) := by
      obtain ⟨us, each, within⟩ := come
      refine (Placed.flatMap each fun u listed n child becomes => ?_).mono within
      have holds := (within.trans inside).holds listed
      exact ih n child (formed.holds holds) (fun v held => labelled v (holds.trans held)) becomes
    have whole := below (comeFrom_of_yields formed (labelled t .refl) yields) (.refl [t])
    rw [List.flatMap_singleton] at whole
    rw [Node.preorder_eq_cons]
    cases branch : root.branch? with
    | none =>
      rw [Placed, List.filterMap_cons_none branch]
      exact whole
    | some node =>
      -- An `if` takes the node itself, and what is below it only children of that.
      cases yields with
      | expr e lowered =>
        cases apart_of_expr formed (labelled t .refl) lowered with
        | plain _ noBranch _ =>
          cases e with
          | branch node => exact absurd rfl (noBranch node)
          | _ => cases branch
        | branch node kind come =>
          rw [Tree.preorder_eq_cons]
          have here : Placed [t] [.expr (.branch node)] :=
            ⟨[t], .refl _, .cons ⟨kind, lowered⟩ .nil⟩
          exact here.append (below come (.children t))
      | _ => cases branch

theorem Becomes.ofForms {source : Source} {t : ParseTree} {node : If}
    (becomes : Becomes (forms source t) node) : t.kind ∈ ifKinds ∧ node.span = t.span := by
  obtain ⟨kind, lowered⟩ := becomes
  rw [forms, Tree.kind_annotate] at kind
  have span := (grown_expr (formed_forms source t) lowered).span
  rw [forms, Tree.span_annotate] at span
  exact ⟨kind, span⟩

/-- Every `if` of a lowered file has a node of the parse tree to itself, with the same span. -/
theorem places_of_branches {source : Source} {root : ParseTree} {crate : Crate}
    (lowered : Crate.ofTree source root = .ok crate) (labelled : ∀ u, root.Holds u → Labelled u) :
    ∃ sites : List ParseTree, sites.Subperm root.preorder ∧
      List.Forall₂ (fun t node => t.kind ∈ ifKinds ∧ node.span = t.span) sites
        (Node.crate crate).branches := by
  have formed := formed_forms source root
  obtain ⟨-, items, itemsOk, rfl⟩ := ofTree_eq_ok.mp lowered
  have file : Yields (forms source root) (.crate ⟨items, root.span⟩) := by
    have whole := Yields.file (forms source root) items itemsOk
    rwa [forms, Tree.span_annotate] at whole
  have labelledForms (t : FormTree) (holds : (forms source root).Holds t) : Labelled t := by
    obtain ⟨u, inRoot, rfl⟩ := Tree.holds_annotate _ root t holds
    exact labelled_annotate _ u (labelled u inRoot)
  obtain ⟨us, among, become⟩ := placed_of_yields formed labelledForms file
  rw [forms, Tree.preorder_annotate] at among
  -- The places were found among the forms; each is the form of a node of the parse tree.
  obtain ⟨vs, same, part⟩ := among
  obtain ⟨ws, inside, rfl⟩ := List.sublist_map_iff.mp part
  have ofForms : List.Forall₂ (· = forms source ·) (ws.map (forms source)) ws :=
    List.forall₂_map_left_iff.mpr (List.forall₂_same.mpr fun _ _ => rfl)
  obtain ⟨sites, areForms, order⟩ := List.perm_comp_forall₂ same.symm ofForms
  have isMap : us = sites.map (forms source) := by
    rw [← List.forall₂_eq_eq_eq, List.forall₂_map_right_iff]
    exact areForms
  rw [isMap, List.forall₂_map_left_iff, ← Node.branches_eq] at become
  exact ⟨sites, order.subperm.trans inside.subperm, become.imp fun _ _ => Becomes.ofForms⟩

/-- Nodes with the spans of their places have each span as often as the places do. -/
theorem countP_places (s : Span) {sites : List ParseTree} {nodes : List If}
    (places : List.Forall₂ (fun t node => t.kind ∈ ifKinds ∧ node.span = t.span) sites nodes) :
    nodes.countP (·.span = s) = sites.countP fun t => t.kind ∈ ifKinds ∧ t.span = s := by
  induction places with
  | nil => rfl
  | cons here _ ih =>
    obtain ⟨kind, span⟩ := here
    simp only [List.countP_cons, ih, kind, span, true_and]

end Lowering

namespace CollapsibleIf

open Lowering

/-- Only an `if` collapses. -/
theorem Collapses.branch {e : Expr} {span : Span} {message : String}
    (collapses : Collapses e span message) : ∃ node, e = .branch node := by
  cases collapses <;> exact ⟨_, rfl⟩

/-- The findings, in order, are about some of the `if`s of the expressions. -/
theorem exists_reported {α : Type} {R : α → If → Prop} {source : Source} {es : List Expr}
    {fs : List Finding} {sites : List α} (reports : ReportsInOrder source es fs)
    (places : List.Forall₂ R sites (es.filterMap Expr.branch?)) :
    ∃ reported : List α, reported.Sublist sites ∧
      List.Forall₂ (fun t f => ∃ node, R t node ∧ Reports source (.branch node) f) reported fs := by
  induction reports generalizing sites with
  | nil => exact ⟨[], List.nil_sublist _, .nil⟩
  | reported e f es fs here _ ih =>
    obtain ⟨node, rfl⟩ := here.1.branch
    cases places with
    | cons first others =>
      obtain ⟨reported, part, about⟩ := ih others
      exact ⟨_ :: reported, part.cons_cons _, .cons ⟨node, first, here⟩ about⟩
  | passed e es fs _ _ ih =>
    cases branch : e.branch? with
    | none =>
      rw [List.filterMap_cons_none branch] at places
      exact ih places
    | some node =>
      rw [List.filterMap_cons_some branch] at places
      cases places with
      | cons _ others =>
        obtain ⟨reported, part, about⟩ := ih others
        exact ⟨reported, part.cons _, about⟩

/-- Where all parts are under their labels, no span has more `if`s in the syntax tree than in the
parse tree, and the findings are about `if`s that were written in different places. -/
theorem check_sites (source : Source) (root : ParseTree) (crate : Crate)
    (lowered : Crate.ofTree source root = .ok crate) (labelled : ∀ u, root.Holds u → Labelled u) :
    (∀ s : Span, (Node.crate crate).branches.countP (·.span = s) ≤
      root.preorder.countP fun t => t.kind ∈ ifKinds ∧ t.span = s) ∧
      ∃ sites : List ParseTree, sites.Subperm root.preorder ∧
        List.Forall₂ (fun t f => ∃ node : If, (t.kind ∈ ifKinds ∧ node.span = t.span) ∧
          Reports source (.branch node) f) sites (check source crate) := by
  obtain ⟨sites, among, places⟩ := places_of_branches lowered labelled
  constructor
  · intro s
    rw [countP_places s places]
    exact among.countP_le _
  · obtain ⟨reported, part, about⟩ :=
      exists_reported (reportsInOrder source (Node.crate crate).exprs) places
    exact ⟨reported, part.subperm.trans among, about⟩

theorem movedFile_check_sites :
    ∃ crate, Crate.ofTree movedSource movedFile = .ok crate ∧
      (check movedSource crate).length = 1 ∧
      (Node.crate crate).branches.countP (·.span = ⟨11, 63, 0⟩) ≤ 1 ∧
      ∃ sites : List ParseTree, sites.Subperm movedFile.preorder ∧
        List.Forall₂ (fun t f => ∃ node : If, (t.kind ∈ ifKinds ∧ node.span = t.span) ∧
          Reports movedSource (.branch node) f) sites (check movedSource crate) := by
  have evaluated := collapses_movedFile
  cases lowered : Crate.ofTree movedSource movedFile with
  | error e =>
    rw [lowered] at evaluated
    cases evaluated
  | ok crate =>
    obtain ⟨counts, sites⟩ := check_sites movedSource movedFile crate lowered (by decide)
    rw [lowered] at evaluated
    have single := congrArg List.length (Option.some.inj evaluated)
    rw [List.length_map] at single
    refine ⟨crate, rfl, ?_, (counts ⟨11, 63, 0⟩).trans (by decide), sites⟩
    rw [check, List.length_map, single, List.length_singleton]

end CollapsibleIf

end RustLint
