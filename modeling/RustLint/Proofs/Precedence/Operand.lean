import RustLint.Proofs.Precedence.TokenTree

set_option autoImplicit false

/- Operands and the operators between them, read from token trees from the left. An operand is all
that binds tighter than a binary operator: a path, a literal, a bracket or a block, with prefix
operators in front and field accesses, calls, indexes and question marks behind. `if`, `match` and
the loops are operands as well. Closures, `return` and `break` are none: they take in all that
follows. As in any condition, a brace behind a name begins no struct literal. -/
namespace RustLint.Precedence

/-- How an expression is put together by precedence. A range may lack its bounds. -/
inductive Tree where
  | operand (tokens : List TokenTree)
  | paren (inner : Tree)
  | binary (op : String) (lhs rhs : Tree)
  | range (op : String) (lo hi : Option Tree)

/-- A token tree, and for parentheses the expression in them, if they hold one. -/
structure Piece where
  token : TokenTree
  inner : Option Tree

/-- What is read of the current operand. -/
inductive Phase where
  /-- An operand begins here. -/
  | start
  /-- An operand may begin here: the upper bound of a range. -/
  | bound
  | prefixed
  | borrowed
  | label
  | labelled
  | name
  | colons
  | bang
  | dot
  | member
  | done
  | generics (depth : Nat)
  /-- Behind `let` or `for`, up to the `=` or the `in`. -/
  | pattern (isIf : Bool)
  /-- Between a keyword and its block. -/
  | head (isIf : Bool)
  | body
  | thenDone
  | orElse
  /-- Behind `as` a type is read in place of an operand. -/
  | typeStart
  | typeName
  | typeColons
  | typeGenerics (depth : Nat)
  | typeDone
  deriving DecidableEq, Repr

/-- What a token tree does to the operand. -/
inductive Move where
  | more (p : Phase)
  | operator (symbol : String)
  | stuck
  deriving DecidableEq, Repr

def rangeSymbols : List String := ["..", "..="]

/-- The symbols of the binary operators but `as`, which is a word. -/
def binarySymbols : List String := [
  "*", "/", "%", "+", "-", "<<", ">>", "&", "^", "|", "<", ">", "<=", ">=", "==", "!=", "&&", "||",
  "..", "..=", "=", "+=", "-=", "*=", "/=", "%=", "&=", "|=", "^=", "<<=", ">>="]

/-- Keywords that begin no operand of their own. -/
def reserved : List String := [
  "as", "break", "continue", "do", "dyn", "else", "enum", "extern", "fn", "impl", "in", "let", "mod",
  "move", "mut", "pub", "ref", "return", "static", "struct", "trait", "type", "use", "where",
  "yield"]

/-- The phases in which an operand may end. -/
def completePhases : List Phase := [.name, .member, .done, .thenDone, .typeName, .typeDone]

/-- The first token tree of an operand behind its prefix operators. -/
def beginOperand : TokenTree → Move
  | .leaf (.literal _) | .group _ _ => .more .done
  | .leaf (.lifetime _) => .more .label
  | .leaf (.punct s) =>
    if ["!", "-", "*"].contains s then .more .prefixed
    else if ["&", "&&"].contains s then .more .borrowed
    else if s = "::" then .more .colons
    else if s = "<" then .more (.generics 1)
    else if s = "<<" then .more (.generics 2)
    else .stuck
  | .leaf (.word w) =>
    if w = "if" then .more (.head true)
    else if w = "for" then .more (.pattern false)
    else if w = "match" || w = "while" then .more (.head false)
    else if ["loop", "unsafe", "async", "const"].contains w then .more .body
    else if reserved.contains w then .stuck
    else .more .name
  | _ => .stuck

/-- A binary operator. -/
def operatorMove : TokenTree → Move
  | .leaf (.punct s) => if binarySymbols.contains s then .operator s else .stuck
  | .leaf (.word w) => if w = "as" then .operator w else .stuck
  | _ => .stuck

/-- What may follow an operand: an access, a call, an index, a question mark or an operator. -/
def afterOperand : TokenTree → Move
  | .group d _ => if d = .brace then .stuck else .more .done
  | .leaf (.punct s) =>
    if s = "." then .more .dot
    else if s = "?" then .more .done
    else operatorMove (.leaf (.punct s))
  | t => operatorMove t

/-- The depth of angle brackets behind a symbol, if it does not close too many. -/
def angles (depth : Nat) (s : String) : Option Nat :=
  if s = "<" then some (depth + 1)
  else if s = "<<" then some (depth + 2)
  else if s = ">" then (if depth < 1 then none else some (depth - 1))
  else if s = ">>" then (if depth < 2 then none else some (depth - 2))
  else some depth

/-- A token tree between angle brackets, and the phase behind the last of them. -/
def insideAngles (depth : Nat) (inside : Nat → Phase) (behind : Phase) : TokenTree → Move
  | .leaf (.punct s) =>
    match angles depth s with
    | none => .stuck
    | some 0 => .more behind
    | some (d + 1) => .more (inside (d + 1))
  | _ => .more (inside depth)

/-- One more token tree. -/
def next : Phase → TokenTree → Move
  | .start, t =>
    match t with
    | .leaf (.punct s) => if rangeSymbols.contains s then .operator s else beginOperand t
    | t => beginOperand t
  | .bound, t | .prefixed, t => beginOperand t
  | .borrowed, t =>
    match t with
    | .leaf (.word "mut") => .more .prefixed
    | t => beginOperand t
  | .label, t =>
    match t with
    | .leaf (.punct ":") => .more .labelled
    | _ => .stuck
  | .labelled, t =>
    match t with
    | .leaf (.word "loop") => .more .body
    | .leaf (.word "while") => .more (.head false)
    | .leaf (.word "for") => .more (.pattern false)
    | .group .brace _ => .more .done
    | _ => .stuck
  | .name, t =>
    match t with
    | .leaf (.punct "::") => .more .colons
    | .leaf (.punct "!") => .more .bang
    | t => afterOperand t
  | .colons, t =>
    match t with
    | .leaf (.word _) => .more .name
    | .leaf (.punct "<") => .more (.generics 1)
    | .leaf (.punct "<<") => .more (.generics 2)
    | _ => .stuck
  | .bang, t =>
    match t with
    | .group _ _ => .more .done
    | _ => .stuck
  | .dot, t =>
    match t with
    | .leaf (.word _) => .more .member
    | .leaf (.literal _) => .more .done
    | _ => .stuck
  | .member, t =>
    match t with
    | .leaf (.punct "::") => .more .colons
    | t => afterOperand t
  | .done, t => afterOperand t
  | .generics depth, t => insideAngles depth .generics .member t
  | .pattern isIf, t =>
    match t with
    | .leaf (.punct "=") | .leaf (.word "in") => .more (.head isIf)
    | _ => .more (.pattern isIf)
  | .head isIf, t =>
    match t with
    | .leaf (.word "let") => .more (.pattern isIf)
    | .group .brace _ => .more (if isIf then .thenDone else .done)
    | _ => .more (.head isIf)
  | .body, t =>
    match t with
    | .leaf (.word "move") => .more .body
    | .group .brace _ => .more .done
    | _ => .stuck
  | .thenDone, t =>
    match t with
    | .leaf (.word "else") => .more .orElse
    | t => afterOperand t
  | .orElse, t =>
    match t with
    | .leaf (.word "if") => .more (.head true)
    | .group .brace _ => .more .done
    | _ => .stuck
  | .typeStart, t =>
    match t with
    | .leaf (.punct s) =>
      if ["&", "&&", "*"].contains s then .more .typeStart
      else if s = "!" then .more .typeDone
      else if s = "::" then .more .typeColons
      else if s = "<" then .more (.typeGenerics 1)
      else if s = "<<" then .more (.typeGenerics 2)
      else .stuck
    | .leaf (.word w) =>
      if ["mut", "const", "dyn", "impl"].contains w then .more .typeStart else .more .typeName
    | .leaf (.lifetime _) => .more .typeStart
    | .group d _ => if d = .brace then .stuck else .more .typeDone
    | _ => .stuck
  | .typeName, t =>
    match t with
    | .leaf (.punct "::") => .more .typeColons
    | .leaf (.punct "<") => .more (.typeGenerics 1)
    | .leaf (.punct "<<") => .more (.typeGenerics 2)
    | .group .paren _ => .more .typeDone
    | t => operatorMove t
  | .typeColons, t =>
    match t with
    | .leaf (.word _) => .more .typeName
    | .leaf (.punct "<") => .more (.typeGenerics 1)
    | .leaf (.punct "<<") => .more (.typeGenerics 2)
    | _ => .stuck
  | .typeGenerics depth, t => insideAngles depth .typeGenerics .typeDone t
  | .typeDone, t =>
    match t with
    | .leaf (.punct "::") => .more .typeColons
    | .leaf (.punct "->") => .more .typeStart
    | t => operatorMove t

/-- The phase behind an operator. -/
def behindOperator (symbol : String) : Phase :=
  if symbol = "as" then .typeStart else if rangeSymbols.contains symbol then .bound else .start

/-- Operands with the operators between them. An operand without pieces is missing. -/
structure Chain where
  first : List Piece
  rest : List (String × List Piece)

namespace Chain

def ops (c : Chain) : List String := c.rest.map (·.1)

/-- Two chains around an operator. -/
def append (c : Chain) (op : String) (d : Chain) : Chain :=
  ⟨c.first, c.rest ++ (op, d.first) :: d.rest⟩

theorem ops_append (c : Chain) (op : String) (d : Chain) :
    (c.append op d).ops = c.ops ++ op :: d.ops := by
  simp [ops, append]

end Chain

/-- The chain of the pieces, of which the operand in front has the pieces read so far. -/
def read (p : Phase) (current : List Piece) : List Piece → Option Chain
  | [] =>
    if p ∈ completePhases then some ⟨current, []⟩
    else if p = .bound && current.isEmpty then some ⟨[], []⟩
    else none
  | piece :: pieces =>
    match next p piece.token with
    | .more p' => read p' (current ++ [piece]) pieces
    | .operator op =>
      (read (behindOperator op) [] pieces).map fun c => ⟨current, (op, c.first) :: c.rest⟩
    | .stuck => none

/-- Behind a complete operand every operator is read as one. Only behind a type do `<` and `<<` open
its arguments instead. -/
theorem next_operator (p : Phase) (complete : p ∈ completePhases) (op : String)
    (known : op ∈ binarySymbols) (noAngle : op ∉ ["<", "<<"]) :
    next p (.leaf (operatorToken op)) = .operator op := by
  have all : ∀ op ∈ binarySymbols, op ∉ ["<", "<<"] → ∀ p ∈ completePhases,
      next p (.leaf (operatorToken op)) = .operator op := by decide
  exact all op known noAngle p complete

/-- A chain that ends with an operand, an operator and a further chain are read as the two chains
around the operator. -/
theorem read_operator (p : Phase) (current pieces behind : List Piece) (c d : Chain) (op : String)
    (known : op ∈ binarySymbols) (noAngle : op ∉ ["<", "<<"])
    (begun : p = .bound → current.isEmpty = false) (whole : read p current pieces = some c)
    (noRange : ∀ o ∈ c.ops, o ∉ rangeSymbols)
    (further : read (behindOperator op) [] behind = some d) :
    read p current (pieces ++ ⟨.leaf (operatorToken op), none⟩ :: behind) =
      some (c.append op d) := by
  induction pieces generalizing p current c with
  | nil =>
    by_cases complete : p ∈ completePhases
    · rw [read, if_pos complete] at whole
      cases whole
      simp [read, next_operator p complete op known noAngle, further, Chain.append]
    · have missing : (p = .bound && current.isEmpty) = false := by
        by_cases bound : p = .bound
        · rw [begun bound, Bool.and_false]
        · rw [decide_eq_false bound, Bool.false_and]
      rw [read, if_neg complete, missing] at whole
      cases whole
  | cons piece pieces ih =>
    rw [List.cons_append, read]
    rw [read] at whole
    cases move : next p piece.token with
    | more p' =>
      rw [move] at whole
      exact ih p' (current ++ [piece]) c (fun _ => by simp) whole noRange
    | operator o =>
      rw [move] at whole
      obtain ⟨rest, restOk, rfl⟩ := Option.map_eq_some_iff.mp whole
      have plain : o ∉ rangeSymbols := noRange o List.mem_cons_self
      have begins : behindOperator o ≠ .bound := by
        unfold behindOperator
        split
        · decide
        · rw [if_neg (by simpa using plain)]
          decide
      have inner := ih (behindOperator o) [] rest (fun bound => (begins bound).elim) restOk
        fun other later => noRange other (List.mem_cons_of_mem _ later)
      simp only [inner, Option.map_some]
      rfl
    | stuck =>
      rw [move] at whole
      cases whole

end RustLint.Precedence
