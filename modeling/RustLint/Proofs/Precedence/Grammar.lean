import RustLint.Proofs.Precedence.Operand
import RustLint.Operator

set_option autoImplicit false

/- The precedence grammar of Rust's expressions. The levels are listed here from the loosest to the
tightest, and the operators of the loosest level that occurs are the root: the operands between them
are put together by the tighter levels. -/
namespace RustLint.Precedence

/-- How the operators of one level group. -/
inductive Grouping where
  | left
  | right
  /-- One operator at most, with bounds that may be missing. -/
  | range
  deriving DecidableEq, Repr

structure Level where
  symbols : List String
  grouping : Grouping

/-- The levels in which `&&` is an operand only in parentheses. -/
def looseLevels : List Level := [
  ⟨["=", "+=", "-=", "*=", "/=", "%=", "&=", "|=", "^=", "<<=", ">>="], .right⟩,
  ⟨rangeSymbols, .range⟩,
  ⟨["||"], .left⟩]

def andLevel : Level := ⟨["&&"], .left⟩

def tightLevels : List Level := [
  ⟨["==", "!=", "<", ">", "<=", ">="], .left⟩,
  ⟨["|"], .left⟩,
  ⟨["^"], .left⟩,
  ⟨["&"], .left⟩,
  ⟨["<<", ">>"], .left⟩,
  ⟨["+", "-"], .left⟩,
  ⟨["*", "/", "%"], .left⟩,
  ⟨["as"], .left⟩]

/-- All levels, the loosest first. -/
def levels : List Level := looseLevels ++ andLevel :: tightLevels

/-- The place of the level of a symbol among all levels. -/
def levelOf (symbol : String) : Nat := levels.findIdx (·.symbols.contains symbol)

namespace Tree

/-- The operator at the root. -/
def root? : Tree → Option String
  | operand _ | paren _ => none
  | binary op _ _ | range op _ _ => some op

/-- The conditions that `&&` joins at the root, in order. -/
def conjuncts : Tree → List Tree
  | binary op lhs rhs =>
    if op = "&&" then lhs.conjuncts ++ rhs.conjuncts else [.binary op lhs rhs]
  | t => [t]

theorem conjuncts_of_root? (t : Tree) (other : t.root? ≠ some "&&") : t.conjuncts = [t] := by
  cases t with
  | operand _ | paren _ | range _ _ _ => rfl
  | binary op lhs rhs =>
    have noAnd : op ≠ "&&" := fun same => other (congrArg some same)
    rw [conjuncts, if_neg noAnd]

end Tree

/-- The operand of the pieces; an expression in parentheses and nothing else is that expression. -/
def operandTree? : List Piece → Option Tree
  | [] => none
  | [⟨.group .paren _, some inner⟩] => some (.paren inner)
  | pieces => some (.operand (pieces.map (·.token)))

/-- The chains between the operators of a level. -/
def splitAt (symbols : List String) (first : List Piece) :
    List (String × List Piece) → Chain × List (String × Chain)
  | [] => (⟨first, []⟩, [])
  | (op, operand) :: rest =>
    let (chain, chains) := splitAt symbols operand rest
    if symbols.contains op then (⟨first, []⟩, (op, chain) :: chains)
    else (⟨first, (op, chain.first) :: chain.rest⟩, chains)

def joinLeft (first : Tree) (rest : List (String × Tree)) : Tree :=
  rest.foldl (fun lhs (op, rhs) => .binary op lhs rhs) first

def joinRight (first : Tree) : List (String × Tree) → Tree
  | [] => first
  | (op, operand) :: rest => .binary op first (joinRight operand rest)

/-- The operands behind the first, each with the operator in front of it. -/
def linkTrees? (tree : Chain → Option Tree) : List (String × Chain) → Option (List (String × Tree))
  | [] => some []
  | (op, chain) :: rest => do return (op, ← tree chain) :: (← linkTrees? tree rest)

/-- A chain that may be missing altogether. -/
def boundTree? (tree : Chain → Option Tree) : Chain → Option (Option Tree)
  | ⟨[], []⟩ => some none
  | chain => some <$> tree chain

/-- The operands of one level put together; `tree` puts together each of them. -/
def Grouping.join (tree : Chain → Option Tree) (first : Chain) (rest : List (String × Chain)) :
    Grouping → Option Tree
  | left => return joinLeft (← tree first) (← linkTrees? tree rest)
  | right => return joinRight (← tree first) (← linkTrees? tree rest)
  | range =>
    match rest with
    | [] => tree first
    | [(op, upper)] => do
      let lo ← boundTree? tree first
      let hi ← boundTree? tree upper
      if op = "..=" && hi.isNone then none else return .range op lo hi
    | _ => none

/-- The chain put together by the levels. -/
def group : List Level → Chain → Option Tree
  | [], ⟨first, []⟩ => operandTree? first
  | [], _ => none
  | level :: tighter, chain =>
    let (first, rest) := splitAt level.symbols chain.first chain.rest
    level.grouping.join (group tighter) first rest

def parsePieces (pieces : List Piece) : Option Tree :=
  (read .start [] pieces).bind (group levels)

mutual

/-- The expression in parentheses. -/
def inner : TokenTree → Option Tree
  | .leaf _ => none
  | .group d inside => if d = .paren then parsePieces (piecesOf inside) else none

/-- The token trees with the expressions in their parentheses. -/
def piecesOf : List TokenTree → List Piece
  | [] => []
  | t :: ts => ⟨t, inner t⟩ :: piecesOf ts

end

def parseTrees (ts : List TokenTree) : Option Tree := parsePieces (piecesOf ts)

/-- The token trees of a text. -/
def treesOf? (text : String) : Option (List TokenTree) := (lex text).bind trees?

/-- The expression that a text is. -/
def parse (text : String) : Option Tree := (treesOf? text).bind parseTrees

theorem piecesOf_append (ts us : List TokenTree) :
    piecesOf (ts ++ us) = piecesOf ts ++ piecesOf us := by
  induction ts with
  | nil => rfl
  | cons t ts ih => rw [List.cons_append, piecesOf, ih, piecesOf, List.cons_append]

end RustLint.Precedence
