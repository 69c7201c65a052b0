import RustLint.Proofs.Lowering.Labels
import RustLint.Proofs.Lowering.Success

set_option autoImplicit false

namespace RustLint

namespace Lowering

/-- Items, and the attributes in front of them, are no code of the node around them. -/
def IsAside (kind : String) : Prop := kind ∈ itemKinds ∨ kind = "attribute_item"

/-- Blocks and expressions are lowered as a whole. -/
def IsWhole (kind : String) : Prop :=
  kind = "block" ∨ (∃ stem, kind = stem ++ "_expression") ∨ (∃ stem, kind = stem ++ "_literal") ∨
    kind ∈ exprKinds

instance (kind : String) : Decidable (IsAside kind) := inferInstanceAs (Decidable (_ ∨ _))

theorem isSuffixOf_toList_iff (ending text : String) :
    ending.toList.isSuffixOf text.toList = true ↔ ∃ stem, text = stem ++ ending := by
  rw [List.isSuffixOf_iff_suffix]
  constructor
  · rintro ⟨front, same⟩
    refine ⟨String.ofList front, String.toList_injective ?_⟩
    rw [String.toList_append, String.toList_ofList, same]
  · rintro ⟨stem, rfl⟩
    rw [String.toList_append]
    exact List.suffix_append _ _

theorem isExprKind_iff (kind : String) : isExprKind kind = true ↔ IsWhole kind := by
  have block : kind = "block" → kind ∈ exprKinds := by
    rintro rfl
    decide
  simp only [isExprKind, Bool.or_eq_true, isSuffixOf_toList_iff, List.contains_iff_mem, IsWhole]
  tauto

instance (kind : String) : Decidable (IsWhole kind) :=
  decidable_of_iff _ (isExprKind_iff kind)

end Lowering

namespace Tree

open Lowering

variable {α β : Type}

mutual

/-- The outermost blocks and expressions of a node, items and attributes left out: a block or an
expression is its own, and any other node has those of its parts. -/
def outermost : Tree α → List (Tree α)
  | ⟨info, value, children⟩ =>
    if IsAside info.kind then []
    else if IsWhole info.kind then [⟨info, value, children⟩]
    else outermostAll children

/-- Those of the parts among the nodes. -/
def outermostAll : List (Tree α) → List (Tree α)
  | [] => []
  | t :: ts => (if t.info.isPart then outermost t else []) ++ outermostAll ts

end

theorem outermostAll_eq_flatMap (ts : List (Tree α)) :
    outermostAll ts = (Siblings.parts ts).flatMap outermost := by
  induction ts with
  | nil => rfl
  | cons t ts ih =>
    rw [outermostAll, ih, Siblings.parts, Siblings.parts, List.filter_cons]
    split
    · rw [List.flatMap_cons]
    · rfl

theorem outermost_aside {t : Tree α} (aside : IsAside t.kind) : t.outermost = [] := by
  cases t
  exact if_pos aside

theorem outermost_whole {t : Tree α} (considered : ¬IsAside t.kind) (whole : IsWhole t.kind) :
    t.outermost = [t] := by
  cases t
  exact (if_neg considered).trans (if_pos whole)

theorem outermost_other {t : Tree α} (considered : ¬IsAside t.kind) (other : ¬IsWhole t.kind) :
    t.outermost = t.nodes.parts.flatMap outermost := by
  cases t
  exact ((if_neg considered).trans (if_neg other)).trans (outermostAll_eq_flatMap _)

theorem outermost_annotate (f : NodeInfo → List (Tree β) → β) (t : Tree α) :
    (annotate f t).outermost = t.outermost.map (annotate f) := by
  induction t using inductionOnChildren with
  | step t ih =>
    have kind : (annotate f t).kind = t.kind := kind_annotate f t
    by_cases aside : IsAside t.kind
    · rw [outermost_aside aside, outermost_aside (kind ▸ aside), List.map_nil]
    by_cases whole : IsWhole t.kind
    · rw [outermost_whole aside whole, outermost_whole (kind ▸ aside) (kind ▸ whole),
        List.map_singleton]
    · rw [outermost_other aside whole, outermost_other (kind ▸ aside) (kind ▸ whole), nodes,
        children_annotate, Siblings.parts_map (info_annotate f), List.flatMap_map,
        List.map_flatMap]
      exact List.flatMap_congr fun u part => ih u (Siblings.mem_of_mem_parts _ u part)

mutual

/-- In document order, and no node twice. -/
theorem outermost_sublist_preorder : ∀ t : Tree α, t.outermost.Sublist t.preorder
  | ⟨info, value, children⟩ => by
    rw [outermost, preorder]
    split
    · exact List.nil_sublist _
    split
    · exact List.singleton_sublist.mpr List.mem_cons_self
    · exact (outermostAll_sublist_preorderAll children).cons _

theorem outermostAll_sublist_preorderAll :
    ∀ ts : List (Tree α), (outermostAll ts).Sublist (preorderAll ts)
  | [] => .refl _
  | t :: ts => by
    rw [outermostAll, preorderAll]
    refine List.Sublist.append ?_ (outermostAll_sublist_preorderAll ts)
    split
    · exact outermost_sublist_preorder t
    · exact List.nil_sublist _

end

/-- What is found in a node is in document order too. -/
theorem parts_outermost_sublist (t : Tree α) :
    (t.nodes.parts.flatMap outermost).Sublist t.preorder := by
  rw [← outermostAll_eq_flatMap, preorder_eq_cons, ← preorderAll_eq_flatMap]
  exact (outermostAll_sublist_preorderAll t.children).cons t

/-- Of the arms of a `match`, patterns are looked into as well; a comment and an item are not. -/
example : (outermost (⟨⟨"match_block", true, 0, 40, none⟩, (), [
    ⟨⟨"match_arm", true, 1, 20, none⟩, (), [
      ⟨⟨"match_pattern", true, 1, 2, none⟩, (), [⟨⟨"integer_literal", true, 1, 2, none⟩, (), []⟩]⟩,
      ⟨⟨"=>", false, 3, 5, none⟩, (), []⟩,
      ⟨⟨"block_comment", true, 6, 10, none⟩, (), [⟨⟨"identifier", true, 8, 9, none⟩, (), []⟩]⟩,
      ⟨⟨"block", true, 11, 19, none⟩, (), [⟨⟨"identifier", true, 12, 13, none⟩, (), []⟩]⟩]⟩,
    ⟨⟨"const_item", true, 21, 30, none⟩, (), [⟨⟨"identifier", true, 22, 23, none⟩, (), []⟩]⟩,
    ⟨⟨"self", true, 31, 35, none⟩, (), []⟩]⟩ : ParseTree)).map kind =
    ["integer_literal", "block", "self"] := by
  decide

theorem holds_of_mem_outermost {t u : Tree α} (outer : u ∈ t.outermost) : t.Holds u :=
  holds_of_mem_preorder t u ((outermost_sublist_preorder t).subset outer)

/-- None of them stands below another. -/
theorem within_outermost (t : Tree α) : Within t.outermost [t] := by
  induction t using inductionOnChildren with
  | step t ih =>
    by_cases aside : IsAside t.kind
    · rw [outermost_aside aside]
      exact List.nil_subperm
    by_cases whole : IsWhole t.kind
    · rw [outermost_whole aside whole]
      exact .refl [t]
    · rw [outermost_other aside whole]
      have inParts := Within.flatMap t.nodes.parts fun u part =>
        ih u (Siblings.mem_of_mem_parts _ u part)
      exact inParts.trans (.parts t)

end Tree

/-- The tree as a part of another: a block as a block, all else as an expression. -/
def Part.ofTree (source : Source) (t : ParseTree) : Except LowerError Part :=
  if t.kind = "block" then .block <$> Block.ofTree source t else .expr <$> Expr.ofTree source t

namespace Lowering

/-- The node as a part, by its forms. -/
def partOf (t : FormTree) : Except LowerError Part :=
  if t.kind = "block" then .block <$> t.value.block else .expr <$> t.value.expr

theorem partOf_forms (source : Source) (t : ParseTree) :
    partOf (forms source t) = Part.ofTree source t := by
  rw [partOf, Part.ofTree, Block.ofTree, Expr.ofTree, forms, Tree.kind_annotate]

theorem aside_iff (kind : String) :
    (isItemKind kind || kind = "attribute_item") = true ↔ IsAside kind := by
  simp [isItemKind, IsAside]

/-! The first node of a list that is flattened. -/

section First

variable {t : FormTree} (rest : List FormTree) (found : List Part)

theorem flatten_aside (aside : IsAside t.kind) :
    flatten (t :: rest) found = flatten rest found := by
  rw [flatten, if_pos ((aside_iff t.kind).mpr aside)]

theorem flatten_whole (considered : ¬IsAside t.kind) (whole : IsWhole t.kind) :
    flatten (t :: rest) found = partOf t >>= fun p => flatten rest (p :: found) := by
  rw [flatten, if_neg ((aside_iff t.kind).not.mpr considered), partOf]
  split
  · rw [bind_map_left]
  · rw [if_pos ((isExprKind_iff t.kind).mpr whole), bind_map_left]

theorem flatten_other (considered : ¬IsAside t.kind) (other : ¬IsWhole t.kind) :
    flatten (t :: rest) found = flatten (t.nodes.parts ++ rest) found := by
  have noExpr := (isExprKind_iff t.kind).not.mpr other
  have noBlock : t.kind ≠ "block" := fun block => other (.inl block)
  rw [flatten, if_neg ((aside_iff t.kind).not.mpr considered), if_neg noBlock, if_neg noExpr]

end First

/-- What is found is the outermost blocks and expressions, lowered one after the other. -/
theorem flatten_eq (todo : List FormTree) (found : List Part) :
    flatten todo found = (found.reverse ++ ·) <$> (todo.flatMap Tree.outermost).mapM partOf := by
  induction todo, found using flatten.induct with
  | case1 found =>
    rw [flatten, List.flatMap_nil, List.mapM_nil, map_pure, List.append_nil]
    rfl
  | case2 found t rest skipped ih =>
    have aside := (aside_iff t.kind).mp skipped
    rw [flatten_aside rest found aside, List.flatMap_cons, Tree.outermost_aside aside,
      List.nil_append, ih]
  | case3 found t rest considered kind ih =>
    have noAside := (aside_iff t.kind).not.mp considered
    rw [flatten_whole rest found noAside (.inl kind), List.flatMap_cons,
      Tree.outermost_whole noAside (.inl kind), List.singleton_append, List.mapM_cons, map_bind,
      partOf, if_pos kind, bind_map_left, bind_map_left]
    refine bind_congr fun b => ?_
    rw [ih b]
    simp
  | case4 found t rest considered noBlock kind ih =>
    have noAside := (aside_iff t.kind).not.mp considered
    have whole := (isExprKind_iff t.kind).mp kind
    rw [flatten_whole rest found noAside whole, List.flatMap_cons,
      Tree.outermost_whole noAside whole, List.singleton_append, List.mapM_cons, map_bind,
      partOf, if_neg noBlock, bind_map_left, bind_map_left]
    refine bind_congr fun e => ?_
    rw [ih e]
    simp
  | case5 found t rest considered noBlock noExpr ih =>
    -- The parts of the node take its place in the list.
    have noAside := (aside_iff t.kind).not.mp considered
    have other := (isExprKind_iff t.kind).not.mp noExpr
    rw [flatten_other rest found noAside other, ih, List.flatMap_append, List.flatMap_cons,
      Tree.outermost_other noAside other]

theorem flatten_nil (todo : List FormTree) :
    flatten todo [] = (todo.flatMap Tree.outermost).mapM partOf := by
  rw [flatten_eq]
  exact id_map' _

/-- Every one of the outermost blocks and expressions is found, in its place, and nothing else. -/
theorem flatten_eq_ok {todo : List FormTree} {parts : List Part} :
    flatten todo [] = .ok parts ↔
      List.Forall₂ (fun u p => partOf u = .ok p) (todo.flatMap Tree.outermost) parts := by
  rw [flatten_nil, mapM_eq_ok]

/-- From the parse tree: the outermost blocks and expressions of its parts, lowered one after the
other. -/
theorem flatten_forms (source : Source) (t : ParseTree) :
    flatten (forms source t).nodes.parts [] =
      (t.nodes.parts.flatMap Tree.outermost).mapM (Part.ofTree source) := by
  have parts : (forms source t).nodes.parts = t.nodes.parts.map (forms source) := by
    rw [forms, Tree.nodes, Tree.children_annotate, Siblings.parts_map (Tree.info_annotate _)]
    rfl
  have nodes : (forms source t).nodes.parts.flatMap Tree.outermost =
      (t.nodes.parts.flatMap Tree.outermost).map (forms source) := by
    rw [parts, List.flatMap_map, List.map_flatMap]
    exact List.flatMap_congr fun u _ => Tree.outermost_annotate _ u
  rw [flatten_nil, nodes, List.mapM_map]
  simp only [Function.comp_def, partOf_forms]

end Lowering

end RustLint
