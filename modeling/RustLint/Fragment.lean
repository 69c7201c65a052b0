import RustLint.Operator
import RustLint.Source
import RustLint.Syntax.Tree

set_option autoImplicit false

namespace RustLint

/-- Source text, and the operator at its root when it is a binary expression. -/
structure Fragment where
  text : String
  op : Option String := none
  deriving DecidableEq, Inhabited, Repr

namespace Fragment

/-- The fragment as an operand on a side of the operator. -/
def operand (op : Operator) (side : Associativity) (f : Fragment) : String :=
  match f.op with
  | some other => if op.needsParen other side then "(" ++ f.text ++ ")" else f.text
  | none => f.text

/-- Two texts around an operator. -/
def around (symbol lhs rhs : String) : Fragment :=
  ⟨lhs ++ " " ++ symbol ++ " " ++ rhs, some symbol⟩

/-- Two operands around an operator. -/
def combine (op : Operator) (lhs rhs : Fragment) : Fragment :=
  around op.symbol (lhs.operand op .left) (rhs.operand op .right)

/-- Both conditions, the left one first. -/
def and (lhs rhs : Fragment) : Fragment := combine Operator.and lhs rhs

/-- Two operands around the operator of a symbol. Operands without an operator of their own need
no parentheses beside any symbol. -/
def combineSymbol (symbol : String) (lhs rhs : Fragment) : Except UnknownOperator Fragment :=
  if lhs.op.isNone && rhs.op.isNone then .ok (around symbol lhs.text rhs.text)
  else return combine (← Operator.ofSymbol symbol) lhs rhs

/-- The operator at the root of an expression, if it has one. -/
def rootOp : Expr → Option String
  | .binary op _ _ _ => some op
  | .assign op _ _ _ => some (if Operator.assignments.contains op then op else "=")
  | .range _ _ op _ => some (if op = "..=" || op = "..." then "..=" else "..")
  | .cast _ _ _ => some "as"
  | _ => none

/-- The source of an expression. -/
def ofExpr (source : Source) (e : Expr) (default : String := Source.placeholder) : Fragment :=
  ⟨source.snippet e.span default, rootOp e⟩

end Fragment

end RustLint
