import RustLint.Lowering.Item

set_option autoImplicit false

namespace RustLint.Lowering

/-- The kinds of nodes in a block that do nothing. -/
def emptyStmtKinds : List String := ["empty_statement", "inner_attribute_item", "label"]

/-- The expression of an expression statement; an empty one is no statement. -/
def exprStmtOf (t : FormTree) : Except LowerError (Option Stmt) :=
  match t.nodes.firstPart? with
  | none => .ok none
  | some inner =>
    return some (.expr (← inner.value.expr) (t.nodes.hasKind ";") t.span)

/-- A `let` with its value and the block behind its `else`. -/
def bindingOf (t : FormTree) : Except LowerError (Option Stmt) := do
  let below := t.nodes
  let init ← match (below.labelled? "value").or (below.partAfter? "=") with
    | some value => some <$> value.value.expr
    | none => .ok none
  let els ← match (below.labelled? "alternative").or (below.partAfter? "else") with
    | some block => some <$> block.value.block
    | none => .ok none
  return some (.binding init els t.span)

/-- The node as a statement, with the attributes in front of it. -/
def stmtOf (t : FormTree) (attributes : List FormTree) : Except LowerError (Option Stmt) :=
  if emptyStmtKinds.contains t.kind then .ok none
  else if t.kind = "expression_statement" then exprStmtOf t
  else if t.kind = "let_declaration" then bindingOf t
  else if isItemKind t.kind then return some (.item (← itemOf t attributes false) t.span)
  else return some (.expr (← t.value.expr) false t.span)

/-- The statements among the nodes; `attributes` are those directly in front. -/
def stmtsOf (attributes : List FormTree) : List FormTree → Except LowerError (List Stmt)
  | [] => .ok []
  | t :: rest =>
    if t.kind = "attribute_item" then stmtsOf (attributes ++ [t]) rest
    else do
      let stmt? ← stmtOf t attributes
      let stmts ← stmtsOf [] rest
      return stmt?.toList ++ stmts

/-- The node as a block. -/
def blockOf (info : NodeInfo) (below : Siblings Forms) : Except LowerError Block := do
  return ⟨← stmtsOf [] below.parts, info.span⟩

end RustLint.Lowering
