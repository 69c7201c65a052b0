import RustLint.Text.Quoted

set_option autoImplicit false

/- Why a parse tree does not lower. A refusal says that the tree is no Rust file or misses a part
that the grammar always gives; a fault is a gap that the lowering does not expect. Only refusals are
reported as such, a fault ends the run. -/
namespace RustLint

inductive LowerError where
  /-- The root has another kind. -/
  | notSourceFile (kind : String)
  /-- An `impl` names no type. -/
  | noSelfType
  /-- An `if let` lacks its pattern, its value or its block. -/
  | malformedIfLet
  /-- A binary expression has no child to be an operand. -/
  | noOperand
  /-- A binary expression has no child to be its operator; `inArguments` when it stands in the
  arguments of a call. -/
  | noOperator (inArguments : Bool)
  /-- A `let` condition has no value. -/
  | noLetValue
  deriving DecidableEq, Inhabited, Repr

namespace LowerError

/-- The text of a refusal; a fault has none. -/
def refusal? : LowerError → Option String
  | notSourceFile kind => some s!"expected a Rust source_file, got {Text.quoted kind}"
  | noSelfType => some "impl block without a self type"
  | malformedIfLet => some "malformed if-let expression"
  | noOperand | noOperator _ | noLetValue => none

/-- The error as it leaves the arguments of a call. -/
def outOfArguments : LowerError → LowerError
  | noOperator _ => noOperator true
  | e => e

end LowerError

end RustLint
