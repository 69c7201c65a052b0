import RustLint.Finding
import RustLint.Fragment
import RustLint.Lint
import RustLint.Syntax.Node

set_option autoImplicit false

/- Nested `if`s that can be written with one level less: an `else` block that holds nothing but an
`if`, and an `if` that holds nothing but an `if` while neither has an `else`. Only the shape of the
tree counts, and the macro expansions it stems from. -/
namespace RustLint.CollapsibleIf

/-- Two `if`s that can be collapsed. -/
inductive Collapse where
  /-- An `else` block around an `if` becomes `else if`. -/
  | orElse (block : Block) (inner : If)
  /-- An `if` around an `if` becomes one `if` with both conditions. -/
  | nested (outer : If) (lhs : Expr) (inner : If) (rhs : Expr)

namespace Collapse

def inner : Collapse → If
  | orElse _ inner | nested _ _ inner _ => inner

/-- What is reported and replaced. -/
def span : Collapse → Span
  | orElse block _ => block.span
  | nested outer _ _ _ => outer.span

def message : Collapse → String
  | orElse _ _ => "this `else \x7b if .. \x7d` block can be collapsed"
  | nested _ _ _ _ => "this if statement can be collapsed"

/-- The edit that collapses the two. -/
def suggestion (source : Source) : Collapse → Suggestion
  | orElse block inner =>
    { span := block.span
      replacement := source.snippetBlock inner.span
      applicability := .machineApplicable }
  | nested outer lhs inner rhs =>
    let both := (Fragment.ofExpr source lhs).and (Fragment.ofExpr source rhs)
    { span := outer.span
      replacement := "if " ++ both.text ++ " " ++ source.snippetBlock inner.body.span
      applicability := .machineApplicable }

end Collapse

/-- The `if` that is all the block holds. -/
def onlyIf? (block : Block) : Option If :=
  match block.stmts with
  | [.expr (.branch node) _ _] => some node
  | _ => none

/-- An `else` block collapses when it holds nothing but an `if` that no macro produced. -/
def ofElse? : Else → Option Collapse
  | .elseIf _ => none
  | .block block =>
    match onlyIf? block with
    | some inner => if inner.span.inMacro then none else some (.orElse block inner)
    | none => none

/-- An `if` without an `else` collapses when it holds nothing but such an `if` of the same
expansion. Both conditions are plain. -/
def ofNested? (outer : If) : Option Collapse :=
  match outer.els, outer.cond, onlyIf? outer.body with
  | none, .test lhs, some inner =>
    match inner.els, inner.cond with
    | none, .test rhs =>
      if outer.span.sameContext inner.span then some (.nested outer lhs inner rhs) else none
    | _, _ => none
  | _, _, _ => none

/-- The two `if`s that the expression lets collapse. -/
def ofExpr? : Expr → Option Collapse
  | .branch node =>
    match node.els with
    | some els => ofElse? els
    | none => ofNested? node
  | _ => none

def finding (source : Source) (c : Collapse) : Finding where
  lint := Lint.collapsibleIf.name
  message := c.message
  span := c.span
  location := some (.ofSpan source c.span)
  suggestion := some (c.suggestion source)

/-- The expressions of the walk that collapse; what a macro produced is left alone. -/
def collapses (crate : Crate) : List Collapse :=
  ((Node.crate crate).exprs.filter fun e => !e.span.inMacro).filterMap ofExpr?

/-- The findings in one file, in document order. -/
def check (source : Source) (crate : Crate) : List Finding :=
  (collapses crate).map (finding source)

end RustLint.CollapsibleIf
