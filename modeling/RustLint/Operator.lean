import RustLint.Text.Quoted

set_option autoImplicit false

namespace RustLint

/-- How a chain of one operator groups. `both` says that the grouping makes no difference, `none`
that there are no chains. -/
inductive Associativity where
  | both
  | left
  | right
  | none
  deriving DecidableEq, Inhabited, Repr

/-- A binary operator; the higher its level, the tighter it binds. -/
structure Operator where
  symbol : String
  level : Nat
  assoc : Associativity
  deriving DecidableEq, Inhabited, Repr

/-- No operator has the symbol. -/
structure UnknownOperator where
  symbol : String
  deriving DecidableEq, Inhabited, Repr

namespace UnknownOperator

def message (e : UnknownOperator) : String := Text.quoted e.symbol

end UnknownOperator

namespace Operator

def and : Operator := ⟨"&&", 6, .both⟩

/-- The assignments, plain and compound. -/
def assignments : List String :=
  ["=", "+=", "-=", "*=", "/=", "%=", "&=", "|=", "^=", "<<=", ">>="]

/-- All operators, the tightest first. -/
def table : List Operator := [
  ⟨"as", 14, .both⟩,
  ⟨"*", 13, .both⟩, ⟨"/", 13, .left⟩, ⟨"%", 13, .left⟩,
  ⟨"+", 12, .both⟩, ⟨"-", 12, .left⟩,
  ⟨"<<", 11, .left⟩, ⟨">>", 11, .left⟩,
  ⟨"&", 10, .both⟩,
  ⟨"^", 9, .both⟩,
  ⟨"|", 8, .both⟩,
  ⟨"<", 7, .left⟩, ⟨">", 7, .left⟩, ⟨"<=", 7, .left⟩, ⟨">=", 7, .left⟩, ⟨"==", 7, .left⟩,
  ⟨"!=", 7, .left⟩,
  and,
  ⟨"||", 5, .both⟩,
  ⟨"..", 4, .none⟩, ⟨"..=", 4, .none⟩] ++
  assignments.map fun symbol => ⟨symbol, 2, .right⟩

def find? (symbol : String) : Option Operator := table.find? (·.symbol == symbol)

def isArithmetic (symbol : String) : Bool := ["+", "-", "*", "/", "%"].contains symbol

def isShift (symbol : String) : Bool := ["<<", ">>"].contains symbol

/-- The level of a symbol beside an operator; one that is no operator counts as equally tight. -/
def levelBeside (op : Operator) (other : String) : Nat :=
  match find? other with
  | some o => o.level
  | none => op.level

/-- An operand whose root is `other` needs parentheses on a side of the operator: when it binds
looser, when it is equally tight and would regroup, and where shifts and arithmetic meet. -/
def needsParen (op : Operator) (other : String) (side : Associativity) : Bool :=
  let beside := op.levelBeside other
  let regroups := if op.symbol = other then op.assoc != .both else op.assoc != side
  decide (beside < op.level) || (decide (beside = op.level) && regroups) ||
    (isShift op.symbol && isArithmetic other) || (isShift other && isArithmetic op.symbol)

/-- The operator of the symbol. -/
def ofSymbol (symbol : String) : Except UnknownOperator Operator :=
  match find? symbol with
  | some op => .ok op
  | none => .error ⟨symbol⟩

end Operator

end RustLint
