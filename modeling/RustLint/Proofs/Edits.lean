import RustLint.Proofs.Traversal

set_option autoImplicit false

/- Syntax trees that differ in one place. A node is known by its outline, which says all of it but
what stands below it, and by the nodes below it. What can be read off the outlines changes in that
one place only. -/
namespace RustLint

/-- The two lists are the same but for one place, where the one has `old` and the other `new`. -/
def Spliced {α : Type} (old new before after : List α) : Prop :=
  ∃ front back, before = front ++ old ++ back ∧ after = front ++ new ++ back

namespace Spliced

variable {α β : Type} {old new before after : List α}

theorem around (spliced : Spliced old new before after) (left right : List α) :
    Spliced old new (left ++ before ++ right) (left ++ after ++ right) := by
  obtain ⟨front, back, rfl, rfl⟩ := spliced
  exact ⟨left ++ front, back ++ right, by simp, by simp⟩

theorem flatMap (spliced : Spliced old new before after) (f : α → List β) :
    Spliced (old.flatMap f) (new.flatMap f) (before.flatMap f) (after.flatMap f) := by
  obtain ⟨front, back, rfl, rfl⟩ := spliced
  exact ⟨front.flatMap f, back.flatMap f, by simp, by simp⟩

/-- Nothing changes where the same stands in that place. -/
theorem eq_of_same (spliced : Spliced old old before after) : after = before := by
  obtain ⟨front, back, rfl, rfl⟩ := spliced
  rfl

end Spliced

namespace Node

/-! What a node says itself. -/

/-- Stands for a block that is left out. -/
def anyBlock : Block := ⟨[], ⟨0, 0, 0⟩⟩

/-- Stands for an expression that is left out. -/
def anyExpr : Expr := .other "" [] ⟨0, 0, 0⟩

/-- Stands for an item that is left out. -/
def anyItem : Item := .other "" ⟨0, 0, 0⟩

def outlineCond : Cond → Cond
  | .test _ => .test anyExpr
  | .binds pat _ => .binds pat anyExpr

def outlineIf (node : If) : If :=
  { node with cond := outlineCond node.cond, body := anyBlock, els := none }

def outlineExpr : Expr → Expr
  | .branch node => .branch (outlineIf node)
  | .block _ span => .block anyBlock span
  | .binary op _ _ span => .binary op anyExpr anyExpr span
  | .unary op _ span => .unary op anyExpr span
  | .cast _ ty span => .cast anyExpr ty span
  | .assign op _ _ span => .assign op anyExpr anyExpr span
  | .range lo hi op span => .range (lo.map fun _ => anyExpr) (hi.map fun _ => anyExpr) op span
  | .closure _ span => .closure anyExpr span
  | .paren _ span => .paren anyExpr span
  | .call _ _ span => .call anyExpr [] span
  | .methodCall _ method _ span => .methodCall anyExpr method [] span
  | .other kind _ span => .other kind [] span

def outlineStmt : Stmt → Stmt
  | .expr _ semi span => .expr anyExpr semi span
  | .binding _ _ span => .binding none none span
  | .item _ span => .item anyItem span

def outlineItem : Item → Item
  | .fn f => .fn { f with body := none }
  | .impl i => .impl { i with items := [] }
  | .mod m => .mod { m with items := [] }
  | .typeDef d => .typeDef d
  | .traitDef d => .traitDef d
  | .other kind span => .other kind span

/-- The node without the nodes below it. -/
def outline : Node → Node
  | crate c => crate { c with items := [] }
  | item i => item (outlineItem i)
  | block b => block { b with stmts := [] }
  | stmt s => stmt (outlineStmt s)
  | expr e => expr (outlineExpr e)

/-! One change somewhere below. -/

/-- The second tree is the first with `new` in place of `old` at one place, somewhere below the
root. -/
inductive Replaced (old new : List Node) : Node → Node → Prop
  | here (n n' : Node) (same : n.outline = n'.outline)
      (spliced : Spliced old new n.children n'.children) : Replaced old new n n'
  | inside (n n' child child' : Node) (same : n.outline = n'.outline)
      (spliced : Spliced [child] [child'] n.children n'.children)
      (deeper : Replaced old new child child') : Replaced old new n n'

/-- What is read off a node and the nodes below it, in document order. -/
def gather {α : Type} (f : Node → List α) (root : Node) : List α := root.preorder.flatMap f

section

variable {α : Type} (f : Node → List α) {old new : List Node} {n n' : Node}

theorem gather_eq (n : Node) : gather f n = f n ++ n.children.flatMap (gather f) := by
  rw [gather, preorder_eq_cons, List.flatMap_cons, List.flatMap_assoc]
  rfl

theorem outline_eq_of_replaced (replaced : Replaced old new n n') : n.outline = n'.outline := by
  cases replaced <;> assumption

/-- What is read off the whole tree changes in one place, where the nodes are replaced, if no node
around them reads differently. -/
theorem gather_of_replaced (keeps : ∀ n n', Replaced old new n n' → f n' = f n)
    (replaced : Replaced old new n n') :
    Spliced (old.flatMap (gather f)) (new.flatMap (gather f)) (gather f n) (gather f n') := by
  induction replaced with
  | here n n' same spliced =>
    rw [gather_eq f n, gather_eq f n', keeps n n' (.here n n' same spliced)]
    simpa using (spliced.flatMap (gather f)).around (f n) []
  | inside n n' child child' same spliced deeper ih =>
    rw [gather_eq f n, gather_eq f n', keeps n n' (.inside n n' child child' same spliced deeper)]
    obtain ⟨front, back, before, after⟩ := spliced
    have inner := ih.around (f n ++ front.flatMap (gather f)) (back.flatMap (gather f))
    rw [before, after]
    simpa using inner

end

end Node

end RustLint
