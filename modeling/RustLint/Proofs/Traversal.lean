import RustLint.Syntax.Node

set_option autoImplicit false

namespace RustLint

namespace Node

mutual

/-- An expression and the nodes below it, in the order of the text. -/
def exprPreorder : Expr → List Node
  | .branch node => expr (.branch node) :: ifPreorder node
  | .block body span => expr (.block body span) :: blockPreorder body
  | .binary op lhs rhs span => expr (.binary op lhs rhs span) :: (exprPreorder lhs ++ exprPreorder rhs)
  | .unary op operand span => expr (.unary op operand span) :: exprPreorder operand
  | .cast value ty span => expr (.cast value ty span) :: exprPreorder value
  | .assign op lhs rhs span => expr (.assign op lhs rhs span) :: (exprPreorder lhs ++ exprPreorder rhs)
  | .range lo hi op span => expr (.range lo hi op span) :: (optExprPreorder lo ++ optExprPreorder hi)
  | .closure body span => expr (.closure body span) :: exprPreorder body
  | .paren inner span => expr (.paren inner span) :: exprPreorder inner
  | .call func args span => expr (.call func args span) :: (exprPreorder func ++ exprsPreorder args)
  | .methodCall receiver method args span =>
    expr (.methodCall receiver method args span) :: (exprPreorder receiver ++ exprsPreorder args)
  | .other kind parts span => expr (.other kind parts span) :: partsPreorder parts

def exprsPreorder : List Expr → List Node
  | [] => []
  | e :: es => exprPreorder e ++ exprsPreorder es

def optExprPreorder : Option Expr → List Node
  | none => []
  | some e => exprPreorder e

/-- Condition, block and else branch of an `if`; the `if` itself is listed as the expression. -/
def ifPreorder : If → List Node
  | ⟨cond, body, els, _⟩ => condPreorder cond ++ (blockPreorder body ++ optElsePreorder els)

def condPreorder : Cond → List Node
  | .test e => exprPreorder e
  | .binds _ scrutinee => exprPreorder scrutinee

def optElsePreorder : Option Else → List Node
  | none => []
  | some (.block body) => blockPreorder body
  | some (.elseIf node) => expr (.branch node) :: ifPreorder node

def partsPreorder : List Part → List Node
  | [] => []
  | .expr e :: parts => exprPreorder e ++ partsPreorder parts
  | .block b :: parts => blockPreorder b ++ partsPreorder parts

def blockPreorder : Block → List Node
  | ⟨stmts, span⟩ => block ⟨stmts, span⟩ :: stmtsPreorder stmts

def optBlockPreorder : Option Block → List Node
  | none => []
  | some b => blockPreorder b

def stmtPreorder : Stmt → List Node
  | .expr e semi span => stmt (.expr e semi span) :: exprPreorder e
  | .binding init els span => stmt (.binding init els span) :: (optExprPreorder init ++ optBlockPreorder els)
  | .item i span => stmt (.item i span) :: itemPreorder i

def stmtsPreorder : List Stmt → List Node
  | [] => []
  | s :: ss => stmtPreorder s ++ stmtsPreorder ss

def itemPreorder : Item → List Node
  | .typeDef d => [item (.typeDef d)]
  | .traitDef d => [item (.traitDef d)]
  | .fn ⟨sig, vis, body, span, exported⟩ =>
    item (.fn ⟨sig, vis, body, span, exported⟩) :: optBlockPreorder body
  | .impl ⟨generics, trait, selfTy, items, span, exported⟩ =>
    item (.impl ⟨generics, trait, selfTy, items, span, exported⟩) :: itemsPreorder items
  | .mod ⟨name, vis, items, span⟩ => item (.mod ⟨name, vis, items, span⟩) :: itemsPreorder items
  | .other kind span => [item (.other kind span)]

def itemsPreorder : List Item → List Node
  | [] => []
  | i :: is => itemPreorder i ++ itemsPreorder is

end

/-- A node and every node below it, each before the nodes below it. -/
def preorder : Node → List Node
  | crate c => crate c :: itemsPreorder c.items
  | item i => itemPreorder i
  | block b => blockPreorder b
  | stmt s => stmtPreorder s
  | expr e => exprPreorder e

theorem exprsPreorder_eq_flatMap (es : List Expr) :
    exprsPreorder es = (es.map expr).flatMap preorder := by
  induction es with
  | nil => rfl
  | cons e es ih => rw [exprsPreorder, ih, List.map_cons, List.flatMap_cons, preorder]

theorem optExprPreorder_eq_flatMap (o : Option Expr) :
    optExprPreorder o = (o.map expr).toList.flatMap preorder := by
  cases o with
  | none => rfl
  | some e => simp [optExprPreorder, preorder]

theorem condPreorder_eq (c : Cond) : condPreorder c = (ofCond c).preorder := by
  cases c <;> rfl

theorem optElsePreorder_eq_flatMap (o : Option Else) :
    optElsePreorder o = (o.map ofElse).toList.flatMap preorder := by
  cases o with
  | none => rfl
  | some e => cases e <;> simp [optElsePreorder, ofElse, preorder, exprPreorder]

theorem partsPreorder_eq_flatMap (parts : List Part) :
    partsPreorder parts = (parts.map ofPart).flatMap preorder := by
  induction parts with
  | nil => rfl
  | cons p parts ih =>
    cases p <;> rw [partsPreorder, ih, List.map_cons, List.flatMap_cons, ofPart, preorder]

theorem optBlockPreorder_eq_flatMap (o : Option Block) :
    optBlockPreorder o = (o.map block).toList.flatMap preorder := by
  cases o with
  | none => rfl
  | some b => simp [optBlockPreorder, preorder]

theorem stmtsPreorder_eq_flatMap (ss : List Stmt) :
    stmtsPreorder ss = (ss.map stmt).flatMap preorder := by
  induction ss with
  | nil => rfl
  | cons s ss ih => rw [stmtsPreorder, ih, List.map_cons, List.flatMap_cons, preorder]

theorem itemsPreorder_eq_flatMap (is : List Item) :
    itemsPreorder is = (is.map item).flatMap preorder := by
  induction is with
  | nil => rfl
  | cons i is ih => rw [itemsPreorder, ih, List.map_cons, List.flatMap_cons, preorder]

theorem exprPreorder_eq (e : Expr) :
    exprPreorder e = expr e :: (childrenOfExpr e).flatMap preorder := by
  cases e with
  | branch node =>
    obtain ⟨cond, body, els, span⟩ := node
    simp [exprPreorder, ifPreorder, childrenOfExpr, condPreorder_eq, optElsePreorder_eq_flatMap,
      preorder]
  | range lo hi op span =>
    simp [exprPreorder, childrenOfExpr, optExprPreorder_eq_flatMap]
  | call func args span | methodCall func method args span =>
    simp [exprPreorder, childrenOfExpr, exprsPreorder_eq_flatMap, preorder]
  | other kind parts span =>
    simp [exprPreorder, childrenOfExpr, partsPreorder_eq_flatMap]
  | _ => simp [exprPreorder, childrenOfExpr, preorder]

theorem stmtPreorder_eq (s : Stmt) :
    stmtPreorder s = stmt s :: (childrenOfStmt s).flatMap preorder := by
  cases s with
  | binding init els span =>
    simp [stmtPreorder, childrenOfStmt, optExprPreorder_eq_flatMap, optBlockPreorder_eq_flatMap]
  | _ => simp [stmtPreorder, childrenOfStmt, preorder]

theorem itemPreorder_eq (i : Item) :
    itemPreorder i = item i :: (childrenOfItem i).flatMap preorder := by
  cases i with
  | fn f =>
    obtain ⟨sig, vis, body, span, exported⟩ := f
    simp [itemPreorder, childrenOfItem, optBlockPreorder_eq_flatMap]
  | impl i =>
    obtain ⟨generics, trait, selfTy, items, span, exported⟩ := i
    simp [itemPreorder, childrenOfItem, itemsPreorder_eq_flatMap]
  | mod m =>
    obtain ⟨name, vis, items, span⟩ := m
    simp [itemPreorder, childrenOfItem, itemsPreorder_eq_flatMap]
  | _ => rfl

/-- The recursion on the constructors and the list of children agree on what stands below a node,
and in which order. -/
theorem preorder_eq_cons (n : Node) : n.preorder = n :: n.children.flatMap preorder := by
  cases n with
  | crate c => rw [preorder, children, itemsPreorder_eq_flatMap]
  | item i => rw [preorder, children, itemPreorder_eq]
  | block b =>
    obtain ⟨stmts, span⟩ := b
    rw [preorder, children, blockPreorder, stmtsPreorder_eq_flatMap]
  | stmt s => rw [preorder, children, stmtPreorder_eq]
  | expr e => rw [preorder, children, exprPreorder_eq]

/-- The nodes still to visit are listed tree by tree behind those already seen. -/
theorem walkFrom_eq (todo : List Node) (seen : Array Node) :
    (walkFrom todo seen).toList = seen.toList ++ todo.flatMap preorder := by
  induction todo, seen using walkFrom.induct with
  | case1 seen => simp [walkFrom]
  | case2 seen n rest ih =>
    rw [walkFrom, ih, List.flatMap_append, List.flatMap_cons, preorder_eq_cons n]
    simp

/-- The walk visits every node below the root once, in the order of the recursion. -/
theorem walk_eq_preorder (root : Node) : root.walk = root.preorder := by
  simp [walk, walkFrom_eq]

theorem sizeOf_le_weight (todo : List Node) (n : Node) (listed : n ∈ todo) :
    sizeOf n ≤ weight todo := by
  induction todo with
  | nil => cases listed
  | cons m rest ih =>
    rw [weight]
    rcases List.mem_cons.mp listed with rfl | later
    · omega
    · have := ih later
      omega

theorem sizeOf_lt_of_mem_children (n child : Node) (below : child ∈ n.children) :
    sizeOf child < sizeOf n :=
  Nat.lt_of_le_of_lt (sizeOf_le_weight n.children child below) (weight_children n)

/-- What holds of a node whenever it holds of the nodes directly below it, holds of every node. -/
theorem inductionOnChildren {P : Node → Prop}
    (step : ∀ n : Node, (∀ child ∈ n.children, P child) → P n) (n : Node) : P n :=
  step n fun child _ => inductionOnChildren step child
termination_by sizeOf n
decreasing_by exact sizeOf_lt_of_mem_children n child ‹_›

theorem mem_walk_self (root : Node) : root ∈ root.walk := by
  rw [walk_eq_preorder, preorder_eq_cons]
  exact List.mem_cons_self

/-- Below a visited node nothing is left out. -/
theorem mem_walk_of_mem_children (root n child : Node) (visited : n ∈ root.walk)
    (below : child ∈ n.children) : child ∈ root.walk := by
  rw [walk_eq_preorder] at visited ⊢
  induction root using inductionOnChildren with
  | step root ih =>
    rw [preorder_eq_cons] at visited ⊢
    rcases List.mem_cons.mp visited with rfl | deeper
    · exact List.mem_cons_of_mem _ (List.mem_flatMap_of_mem below
        (walk_eq_preorder child ▸ mem_walk_self child))
    · obtain ⟨top, atTop, inside⟩ := List.mem_flatMap.mp deeper
      exact List.mem_cons_of_mem _ (List.mem_flatMap_of_mem atTop (ih top atTop inside))

/-- The nodes above a node on the way down from the root, the nearest first. -/
inductive Path (root : Node) : List Node → Node → Prop
  | here : Path root [] root
  | child (above : List Node) (n child : Node) (outer : Path root above n)
      (isChild : child ∈ n.children) : Path root (n :: above) child

/-- A way down from a child is one from its parent. -/
theorem Path.fromParent {root child n : Node} {above : List Node} (isChild : child ∈ root.children)
    (path : Path child above n) : Path root (above ++ [root]) n := by
  induction path with
  | here => exact .child [] root child .here isChild
  | child above n next _ isNext ih => exact .child (above ++ [root]) n next ih isNext

/-- The nodes of the walk are those that a way leads to. -/
theorem mem_walk_iff (root n : Node) : n ∈ root.walk ↔ ∃ above, Path root above n := by
  constructor
  · rw [walk_eq_preorder]
    intro visited
    induction root using inductionOnChildren with
    | step root ih =>
      rw [preorder_eq_cons] at visited
      rcases List.mem_cons.mp visited with rfl | deeper
      · exact ⟨[], .here⟩
      · obtain ⟨child, isChild, inside⟩ := List.mem_flatMap.mp deeper
        obtain ⟨above, path⟩ := ih child isChild inside
        exact ⟨above ++ [root], path.fromParent isChild⟩
  · rintro ⟨above, path⟩
    induction path with
    | here => exact mem_walk_self root
    | child above n child _ isChild ih => exact mem_walk_of_mem_children root n child ih isChild

end Node

end RustLint
