import RustLint.Syntax.Ty

set_option autoImplicit false

/- The syntax tree that the rules look at. Both kinds of `if` are one type, told apart by their
condition, and structs, enums and unions are one kind of definition, told apart by their form.
Expressions that no rule looks into keep only the expressions and blocks inside them. -/
namespace RustLint

/-- Who may use an item. -/
inductive Visibility where
  | hidden
  | everywhere
  | limited (text : String)
  deriving DecidableEq, Inhabited, Repr

namespace Visibility

/-- The visibility written as the text, blanks aside. -/
def ofText (text : String) : Visibility :=
  if text = "" then .hidden else if text = "pub" then .everywhere else .limited text

def text : Visibility → String
  | .hidden => ""
  | .everywhere => "pub"
  | .limited text => text

theorem text_ofText (t : String) : (ofText t).text = t := by
  unfold ofText
  split
  · next h => exact h.symm
  · split
    · next h => exact h.symm
    · rfl

end Visibility

structure FieldDef where
  name : Option String
  ty : Ty
  span : Span
  deriving Inhabited

/-- How a struct lists its fields. -/
inductive StructShape where
  | named
  | tuple
  | unit
  deriving DecidableEq, Inhabited, Repr

/-- What a type definition defines. -/
inductive TypeForm where
  | struct (shape : StructShape) (fields : List FieldDef)
  | enum
  | union (fields : List FieldDef)
  deriving Inhabited

/-- A struct, enum or union. `exported` says that no enclosing module hides it. -/
structure TypeDef where
  form : TypeForm
  name : String
  generics : Generics
  derives : List String
  vis : Visibility
  span : Span
  exported : Bool := true
  deriving Inhabited

structure TraitDef where
  name : String
  vis : Visibility
  span : Span
  deriving DecidableEq, Inhabited, Repr

structure FnSig where
  name : String
  paramCount : Int
  hasSelf : Bool
  isConst : Bool
  generics : Generics
  ret : Option Ty
  deriving Inhabited

mutual

/-- Expressions. -/
inductive Expr where
  | branch (node : If)
  | block (body : Block) (span : Span)
  | binary (op : String) (lhs rhs : Expr) (span : Span)
  | unary (op : String) (operand : Expr) (span : Span)
  | cast (value : Expr) (ty : Ty) (span : Span)
  | assign (op : String) (lhs rhs : Expr) (span : Span)
  | range (lo hi : Option Expr) (op : String) (span : Span)
  | closure (body : Expr) (span : Span)
  | paren (inner : Expr) (span : Span)
  | call (func : Expr) (args : List Expr) (span : Span)
  | methodCall (receiver : Expr) (method : String) (args : List Expr) (span : Span)
  | other (kind : String) (parts : List Part) (span : Span)

/-- An `if`, with a plain condition or one that binds a pattern. -/
structure If where
  cond : Cond
  body : Block
  els : Option Else
  span : Span

/-- What an `if` tests. -/
inductive Cond where
  | test (expr : Expr)
  | binds (pat : Span) (scrutinee : Expr)

/-- What follows `else`. -/
inductive Else where
  | block (body : Block)
  | elseIf (node : If)

/-- An expression or block inside an expression that no rule looks into. -/
inductive Part where
  | expr (e : Expr)
  | block (b : Block)

structure Block where
  stmts : List Stmt
  span : Span

/-- Statements. `semi` says that a semicolon ends the expression. -/
inductive Stmt where
  | expr (e : Expr) (semi : Bool) (span : Span)
  | binding (init : Option Expr) (els : Option Block) (span : Span)
  | item (i : Item) (span : Span)

structure FnItem where
  sig : FnSig
  vis : Visibility
  body : Option Block
  span : Span
  exported : Bool

structure ImplBlock where
  generics : Generics
  trait : Option Ty
  selfTy : Ty
  items : List Item
  span : Span
  exported : Bool

structure ModItem where
  name : String
  vis : Visibility
  items : List Item
  span : Span

/-- Items. -/
inductive Item where
  | typeDef (d : TypeDef)
  | traitDef (d : TraitDef)
  | fn (f : FnItem)
  | impl (i : ImplBlock)
  | mod (m : ModItem)
  | other (kind : String) (span : Span)

end

/-- One lowered source file. -/
structure Crate where
  items : List Item
  span : Span

namespace Expr

def span : Expr → Span
  | branch node => node.span
  | block _ span | binary _ _ _ span | unary _ _ span | cast _ _ span | assign _ _ _ span
  | range _ _ _ span | closure _ span | paren _ span | call _ _ span | methodCall _ _ _ span
  | other _ _ span => span

end Expr

def Stmt.span : Stmt → Span
  | expr _ _ span | binding _ _ span | item _ span => span

def Item.span : Item → Span
  | typeDef d => d.span
  | traitDef d => d.span
  | fn f => f.span
  | impl i => i.span
  | mod m => m.span
  | other _ span => span

end RustLint
