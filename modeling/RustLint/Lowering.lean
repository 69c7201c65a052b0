import RustLint.Lowering.Type
import RustLint.Lowering.Expr
import RustLint.Lowering.Stmt

set_option autoImplicit false

namespace RustLint

namespace Lowering

/-- The forms of a node from those below it. -/
def formsOf (source : Source) (info : NodeInfo) (below : List FormTree) : Forms :=
  let block := blockOf info below
  { text := textOf source info
    ty := typeOf source info below
    expr := exprOf block info below
    block := block
    items := fun exported => itemsOf exported [] (Siblings.parts below) }

/-- The parse tree with the forms of its nodes. -/
def forms (source : Source) (t : ParseTree) : FormTree := t.annotate (formsOf source)

end Lowering

/-- The tree as a type. -/
def Ty.ofTree (source : Source) (t : ParseTree) : Ty := (Lowering.forms source t).value.ty

/-- The tree as an expression. -/
def Expr.ofTree (source : Source) (t : ParseTree) : Except LowerError Expr :=
  (Lowering.forms source t).value.expr

/-- The tree as a block. -/
def Block.ofTree (source : Source) (t : ParseTree) : Except LowerError Block :=
  (Lowering.forms source t).value.block

/-- The tree as a source file; its items are exported unless a module hides them. -/
def Crate.ofTree (source : Source) (t : ParseTree) : Except LowerError Crate :=
  if t.kind = "source_file" then
    return ⟨← (Lowering.forms source t).value.items true, t.span⟩
  else .error (.notSourceFile t.kind)

end RustLint
