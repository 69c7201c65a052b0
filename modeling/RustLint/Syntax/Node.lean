import RustLint.Syntax.Tree

set_option autoImplicit false

/- Every part of a syntax tree as one type of nodes, and the walk over all nodes below a root in
document order. The walk keeps the nodes still to visit in a list, so that deep trees need no deep
recursion. -/
namespace RustLint

/-- A part of the tree that the walk visits. -/
inductive Node where
  | crate (c : Crate)
  | item (i : Item)
  | block (b : Block)
  | stmt (s : Stmt)
  | expr (e : Expr)

namespace Node

def span : Node → Span
  | crate c => c.span
  | item i => i.span
  | block b => b.span
  | stmt s => s.span
  | expr e => e.span

def ofElse : Else → Node
  | .block b => block b
  | .elseIf node => expr (.branch node)

def ofPart : Part → Node
  | .expr e => expr e
  | .block b => block b

/-- The expression that an `if` evaluates first. -/
def ofCond : Cond → Node
  | .test e => expr e
  | .binds _ scrutinee => expr scrutinee

def childrenOfExpr : Expr → List Node
  | .branch node => [ofCond node.cond, block node.body] ++ (node.els.map ofElse).toList
  | .block body _ => [block body]
  | .binary _ lhs rhs _ | .assign _ lhs rhs _ => [expr lhs, expr rhs]
  | .unary _ operand _ => [expr operand]
  | .cast value _ _ => [expr value]
  | .range lo hi _ _ => (lo.map expr).toList ++ (hi.map expr).toList
  | .closure body _ => [expr body]
  | .paren inner _ => [expr inner]
  | .call func args _ => expr func :: args.map expr
  | .methodCall receiver _ args _ => expr receiver :: args.map expr
  | .other _ parts _ => parts.map ofPart

def childrenOfStmt : Stmt → List Node
  | .expr e _ _ => [expr e]
  | .binding init els _ => (init.map expr).toList ++ (els.map block).toList
  | .item i _ => [item i]

def childrenOfItem : Item → List Node
  | .fn f => (f.body.map block).toList
  | .impl i => i.items.map item
  | .mod m => m.items.map item
  | .typeDef _ | .traitDef _ | .other _ _ => []

/-- The nodes directly below a node, in document order. -/
def children : Node → List Node
  | crate c => c.items.map item
  | item i => childrenOfItem i
  | block b => b.stmts.map stmt
  | stmt s => childrenOfStmt s
  | expr e => childrenOfExpr e

/-- The size of all nodes still to visit. -/
noncomputable def weight : List Node → Nat
  | [] => 0
  | n :: rest => sizeOf n + weight rest

theorem weight_append (xs ys : List Node) : weight (xs ++ ys) = weight xs + weight ys := by
  induction xs with
  | nil => simp [weight]
  | cons x xs ih => simp [weight, ih]; omega

theorem weight_map_expr (es : List Expr) : weight (es.map expr) < sizeOf es := by
  induction es with
  | nil => simp [weight]
  | cons e es ih => simp [weight]; omega

theorem weight_map_item (is : List Item) : weight (is.map item) < sizeOf is := by
  induction is with
  | nil => simp [weight]
  | cons i is ih => simp [weight]; omega

theorem weight_map_stmt (ss : List Stmt) : weight (ss.map stmt) < sizeOf ss := by
  induction ss with
  | nil => simp [weight]
  | cons s ss ih => simp [weight]; omega

theorem sizeOf_ofPart (p : Part) : sizeOf (ofPart p) = sizeOf p := by
  cases p <;> simp [ofPart]

theorem sizeOf_ofElse (e : Else) : sizeOf (ofElse e) ≤ sizeOf e + 1 := by
  cases e with
  | block body => simp [ofElse]
  | elseIf node =>
    simp [ofElse]
    omega

theorem sizeOf_ofCond (c : Cond) : sizeOf (ofCond c) ≤ sizeOf c := by
  cases c <;> simp [ofCond]

theorem weight_map_ofPart (ps : List Part) : weight (ps.map ofPart) < sizeOf ps := by
  induction ps with
  | nil => simp [weight]
  | cons p ps ih => have := sizeOf_ofPart p; simp [weight]; omega

theorem weight_option_expr (o : Option Expr) : weight (o.map expr).toList ≤ sizeOf o := by
  cases o <;> simp [weight]

theorem weight_option_block (o : Option Block) : weight (o.map block).toList ≤ sizeOf o := by
  cases o <;> simp [weight]

theorem weight_option_else (o : Option Else) : weight (o.map ofElse).toList ≤ sizeOf o := by
  cases o with
  | none => simp [weight]
  | some e => have := sizeOf_ofElse e; simp [weight]; omega

theorem weight_childrenOfItem (i : Item) : weight (childrenOfItem i) < 1 + sizeOf i := by
  cases i with
  | fn f =>
    obtain ⟨sig, vis, body, span, exported⟩ := f
    have := weight_option_block body
    simp [childrenOfItem]; omega
  | impl i =>
    obtain ⟨generics, trait, selfTy, items, span, exported⟩ := i
    have := weight_map_item items
    simp [childrenOfItem]; omega
  | mod m =>
    obtain ⟨name, vis, items, span⟩ := m
    have := weight_map_item items
    simp [childrenOfItem]; omega
  | _ => exact Nat.add_pos_left Nat.one_pos _

theorem weight_childrenOfStmt (s : Stmt) : weight (childrenOfStmt s) < 1 + sizeOf s := by
  cases s with
  | binding init els span =>
    have h₁ := weight_option_expr init
    have h₂ := weight_option_block els
    simp [childrenOfStmt, weight_append]; omega
  | _ => simp [childrenOfStmt, weight]; omega

theorem weight_childrenOfExpr (e : Expr) : weight (childrenOfExpr e) < 1 + sizeOf e := by
  cases e with
  | branch node =>
    obtain ⟨cond, body, els, span⟩ := node
    have h₁ := sizeOf_ofCond cond
    have h₂ := weight_option_else els
    simp [childrenOfExpr, weight]; omega
  | binary op lhs rhs span | assign op lhs rhs span =>
    obtain ⟨lo, hi, ctxt⟩ := span
    simp [childrenOfExpr, weight]; omega
  | range lo hi op span =>
    have h₁ := weight_option_expr lo
    have h₂ := weight_option_expr hi
    simp [childrenOfExpr, weight_append]; omega
  | call func args span =>
    have := weight_map_expr args
    simp [childrenOfExpr, weight]; omega
  | methodCall receiver method args span =>
    have := weight_map_expr args
    simp [childrenOfExpr, weight]; omega
  | other kind parts span =>
    have := weight_map_ofPart parts
    simp [childrenOfExpr]; omega
  | _ => simp [childrenOfExpr, weight]; omega

/-- The nodes below a node weigh less than the node, so the walk comes to an end. -/
theorem weight_children (n : Node) : weight n.children < sizeOf n := by
  cases n with
  | crate c =>
    obtain ⟨items, span⟩ := c
    have := weight_map_item items
    simp [children]; omega
  | item i => simpa [children] using weight_childrenOfItem i
  | block b =>
    obtain ⟨stmts, span⟩ := b
    have := weight_map_stmt stmts
    simp [children]; omega
  | stmt s => simpa [children] using weight_childrenOfStmt s
  | expr e => simpa [children] using weight_childrenOfExpr e

/-- Visits the listed nodes and all below them, each before the nodes below it. -/
def walkFrom (todo : List Node) (seen : Array Node) : Array Node :=
  match todo with
  | [] => seen
  | n :: rest => walkFrom (n.children ++ rest) (seen.push n)
termination_by weight todo
decreasing_by
  have := weight_children n
  simp only [weight_append, weight]
  omega

/-- The root and every node below it, in document order. -/
def walk (root : Node) : List Node := (walkFrom [root] #[]).toList

def expr? : Node → Option Expr
  | expr e => some e
  | _ => none

def item? : Node → Option Item
  | item i => some i
  | _ => none

/-- The expressions among the nodes of the walk. -/
def exprs (root : Node) : List Expr := root.walk.filterMap expr?

/-- The items among the nodes of the walk. -/
def items (root : Node) : List Item := root.walk.filterMap item?

end Node

end RustLint
