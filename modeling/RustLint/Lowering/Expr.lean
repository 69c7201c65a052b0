import RustLint.Lowering.Forms

set_option autoImplicit false

/- Expressions from parse nodes. Where a part that the grammar labels is missing, its place among
the children stands in for the label, and an expression that lacks a part altogether keeps only its
kind. Parts are lowered in a fixed order, so that of two errors always the same one is reported. -/
namespace RustLint.Lowering

/-- What the listed nodes hold for a rule that looks for expressions: items and attributes nothing,
blocks and expressions themselves, and every other node what its parts hold. -/
def flatten (todo : List FormTree) (found : List Part) : Except LowerError (List Part) :=
  match todo with
  | [] => .ok found.reverse
  | t :: rest =>
    if isItemKind t.kind || t.kind = "attribute_item" then flatten rest found
    else if t.kind = "block" then do
      let block ← t.value.block
      flatten rest (.block block :: found)
    else if isExprKind t.kind then do
      let expr ← t.value.expr
      flatten rest (.expr expr :: found)
    else flatten (t.nodes.parts ++ rest) found
termination_by Tree.sizeAll todo
decreasing_by
  · have := Tree.sizeAll_children_lt t
    simp only [Tree.sizeAll]
    omega
  · have := Tree.sizeAll_children_lt t
    simp only [Tree.sizeAll]
    omega
  · have := Tree.sizeAll_children_lt t
    simp only [Tree.sizeAll]
    omega
  · have h₁ := Tree.sizeAll_children_lt t
    have h₂ := Tree.sizeAll_filter_le (·.info.isPart) t.children
    simp only [Tree.sizeAll, Tree.sizeAll_append, Siblings.parts, Tree.nodes]
    omega

/-- An expression of which only the kind and the parts are kept. -/
def keepParts (info : NodeInfo) (below : Siblings Forms) : Except LowerError Expr := do
  return .other info.kind (← flatten below.parts []) info.span

/-- Operands and operator of a binary expression. Without labels on both operands the first and
the last child are taken, without a label on the operator the first unnamed child. -/
def binaryParts (below : Siblings Forms) : Except LowerError (FormTree × String × FormTree) := do
  let spoken := below.spoken
  let (lhs, rhs) ← match below.labelled? "left", below.labelled? "right" with
    | some lhs, some rhs => .ok (lhs, rhs)
    | _, _ =>
      match spoken.head?, spoken.getLast? with
      | some lhs, some rhs => .ok (lhs, rhs)
      | _, _ => .error .noOperand
  match (below.labelled? "operator").or (spoken.find? (!·.info.named)) with
  | some op => .ok (lhs, op.value.text, rhs)
  | none => .error (.noOperator false)

/-- What follows `else`: a block or a further `if`. Anything else is ignored. -/
def elseOf (clause : FormTree) : Except LowerError (Option Else) :=
  match clause.nodes.firstPart? with
  | none => .ok none
  | some target =>
    if target.kind = "block" then return some (.block (← target.value.block))
    else if target.kind = "if_expression" || target.kind = "if_let_expression" then do
      match ← target.value.expr with
      | .branch node => return some (.elseIf node)
      | _ => return none
    else .ok none

/-- What follows `else` where there may be none. -/
def elseOf? : Option FormTree → Except LowerError (Option Else)
  | none => .ok none
  | some clause => elseOf clause

/-- The places of the block and of the else clause of an `if` among its children. -/
def branchPlaces (below : Siblings Forms) : Option Nat × Option Nat :=
  ((below.findIdx? (·.info.label == some "consequence")).or
    (below.findIdx? (·.kind == "block")),
   (below.findIdx? (·.info.label == some "alternative")).or
    (below.findIdx? (·.kind == "else_clause")))

/-- The parts of an `if` that are neither its block nor its else clause. -/
def branchRest (below : Siblings Forms) : List FormTree :=
  let (body, els) := branchPlaces below
  (below.zipIdx.filter fun (t, i) =>
    t.info.isPart && some i != body && some i != els).map (·.1)

/-- An `if` whose condition may be a plain expression, a `let` or a chain of conditions with a
`let` in it. The else clause is lowered first. -/
def ifOf (info : NodeInfo) (below : Siblings Forms) : Except LowerError Expr := do
  let (bodyPlace, elsePlace) := branchPlaces below
  let body? := bodyPlace.bind (below[·]?)
  let cond? := (below.labelled? "condition").or (branchRest below).head?
  match cond?, body? with
  | some cond, some body =>
    let els ← elseOf? (elsePlace.bind (below[·]?))
    let condBelow := cond.nodes
    if cond.kind = "let_condition" then
      let pattern := (condBelow.labelled? "pattern").or condBelow.firstPart?
      match (condBelow.labelled? "value").or condBelow.lastPart? with
      | none => .error .noLetValue
      | some value =>
        let scrutinee ← value.value.expr
        let block ← body.value.block
        return .branch ⟨.binds ((pattern.map Tree.span).getD cond.span) scrutinee, block, els,
          info.span⟩
    else if cond.kind = "let_chain" then
      let parts ← flatten condBelow.parts []
      let block ← body.value.block
      return .branch ⟨.binds cond.span (.other "let_chain" parts cond.span), block, els, info.span⟩
    else
      let test ← cond.value.expr
      let block ← body.value.block
      return .branch ⟨.test test, block, els, info.span⟩
  | _, _ => keepParts info below

/-- An `if let` as a node of its own. Without labels the pattern is the first and the value the
last of the remaining parts. -/
def ifLetOf (info : NodeInfo) (below : Siblings Forms) : Except LowerError Expr := do
  let (bodyPlace, elsePlace) := branchPlaces below
  let labelled := (below.labelled? "pattern", below.labelled? "value")
  let (pattern?, value?) := match labelled with
    | (some pattern, some value) => (some pattern, some value)
    | _ =>
      match branchRest below with
      | first :: second :: more => (some first, some ((second :: more).getLast (by simp)))
      | _ => labelled
  match pattern?, value?, bodyPlace.bind (below[·]?) with
  | some pattern, some value, some body =>
    let scrutinee ← value.value.expr
    let block ← body.value.block
    let els ← elseOf? (elsePlace.bind (below[·]?))
    return .branch ⟨.binds pattern.span scrutinee, block, els, info.span⟩
  | _, _, _ => .error .malformedIfLet

/-- The operators between the bounds of a range. -/
def rangeOps : List String := ["..=", "...", ".."]

/-- The bounds and the operator of a range read so far, from the children in order. -/
structure RangeParts where
  lo : Option Expr := none
  hi : Option Expr := none
  op : String := ".."
  seenOp : Bool := false

/-- One more child of a range: an operator, or a bound on its side of the operator. -/
def RangeParts.add (parts : RangeParts) (t : FormTree) : Except LowerError RangeParts := do
  if !t.info.named && rangeOps.contains t.kind then
    return { parts with op := t.kind, seenOp := true }
  else if parts.seenOp then return { parts with hi := some (← t.value.expr) }
  else return { parts with lo := some (← t.value.expr) }

def rangeOf (info : NodeInfo) (below : Siblings Forms) : Except LowerError Expr := do
  let parts ← below.spoken.foldlM RangeParts.add {}
  return .range parts.lo parts.hi parts.op info.span

/-- The nodes as expressions, in order. -/
def exprsOf : List FormTree → Except LowerError (List Expr)
  | [] => .ok []
  | t :: rest => return (← t.value.expr) :: (← exprsOf rest)

/-- The arguments of a call. -/
def argumentsOf (list : FormTree) : Except LowerError (List Expr) :=
  (exprsOf (list.nodes.parts.filter fun t => t.kind != "attribute_item")).mapError
    LowerError.outOfArguments

/-- A call. A call of a field is a method call. -/
def callOf (info : NodeInfo) (below : Siblings Forms) : Except LowerError Expr := do
  let args ← match (below.labelled? "arguments").or (below.ofKind? "arguments") with
    | some list => argumentsOf list
    | none => .ok []
  match (below.labelled? "function").or below.firstPart? with
  | none => return .call (.other "unknown" [] info.span) args info.span
  | some func =>
    let inside := func.nodes
    let receiver? := (inside.labelled? "value").or inside.firstPart?
    let method? := (inside.labelled? "field").or inside.lastPart?
    match if func.kind = "field_expression" then receiver? else none, method? with
    | some receiver, some method =>
      return .methodCall (← receiver.value.expr) method.value.text args info.span
    | _, _ => return .call (← func.value.expr) args info.span

/-- An expression around one operand; without it only the kind is kept. -/
def aroundOf (info : NodeInfo) (operand : Option FormTree) (build : Expr → Expr) :
    Except LowerError Expr :=
  match operand with
  | none => .ok (.other info.kind [] info.span)
  | some t => return build (← t.value.expr)

/-- The operator of a unary expression is its first child, whatever that is. -/
def unaryOf (info : NodeInfo) (below : Siblings Forms) : Except LowerError Expr :=
  let op := (below.head?.map (·.value.text)).getD ""
  aroundOf info below.lastPart? (.unary op · info.span)

def referenceOf (info : NodeInfo) (below : Siblings Forms) : Except LowerError Expr :=
  let op := if below.hasKind "mutable_specifier" then "&mut" else "&"
  aroundOf info ((below.labelled? "value").or below.lastPart?) (.unary op · info.span)

def castOf (info : NodeInfo) (below : Siblings Forms) : Except LowerError Expr :=
  match (below.labelled? "value").or below.firstPart?,
    (below.labelled? "type").or below.lastPart? with
  | some value, some ty => return .cast (← value.value.expr) ty.value.ty info.span
  | _, _ => .ok (.other info.kind [] info.span)

/-- The node as an expression; `block` is its form as a block. -/
def exprOf (block : Except LowerError Block) (info : NodeInfo) (below : Siblings Forms) :
    Except LowerError Expr :=
  let kind := info.kind
  let span := info.span
  if kind = "if_expression" then ifOf info below
  else if kind = "if_let_expression" then ifLetOf info below
  else if kind = "block" then return .block (← block) span
  else if kind = "binary_expression" then do
    let (lhs, op, rhs) ← binaryParts below
    return .binary op (← lhs.value.expr) (← rhs.value.expr) span
  else if kind = "assignment_expression" || kind = "compound_assignment_expr" then do
    let (lhs, op, rhs) ← binaryParts below
    return .assign op (← lhs.value.expr) (← rhs.value.expr) span
  else if kind = "unary_expression" then unaryOf info below
  else if kind = "reference_expression" then referenceOf info below
  else if kind = "type_cast_expression" then castOf info below
  else if kind = "range_expression" then rangeOf info below
  else if kind = "closure_expression" then
    aroundOf info ((below.labelled? "body").or below.lastPart?) (.closure · span)
  else if kind = "parenthesized_expression" then
    aroundOf info below.firstPart? (.paren · span)
  else if kind = "call_expression" then callOf info below
  else if kind = "macro_invocation" then .ok (.other kind [] span)
  else keepParts info below

end RustLint.Lowering
