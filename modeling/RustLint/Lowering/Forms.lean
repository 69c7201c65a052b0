import RustLint.ParseTree
import RustLint.Syntax.Tree
import RustLint.Lowering.Error
import RustLint.Source

set_option autoImplicit false

/- What a parse node becomes. A parent decides whether a child is a type, an expression, a block or
a list of items, so every node gets its form in each of these positions, from the forms of the nodes
below it. A form that nobody asks for may be an error. -/
namespace RustLint.Lowering

/-- The forms of one node. `items` depends on whether every enclosing module is public. -/
structure Forms where
  text : String
  ty : Ty
  expr : Except LowerError Expr
  block : Except LowerError Block
  items : Bool → Except LowerError (List Item)

/-- A parse tree with the forms of its nodes. -/
abbrev FormTree := Tree Forms

/-- The kinds of nodes that are items. -/
def itemKinds : List String := [
  "struct_item", "enum_item", "union_item", "trait_item", "impl_item", "function_item",
  "function_signature_item", "mod_item", "const_item", "static_item", "type_item",
  "use_declaration", "extern_crate_declaration", "foreign_mod_item", "macro_definition",
  "associated_type"]

/-- The kinds of nodes that are expressions although their name does not tell. -/
def exprKinds : List String := [
  "identifier", "scoped_identifier", "self", "metavariable", "generic_function",
  "macro_invocation", "block", "unsafe_block", "async_block", "const_block", "try_block"]

def isItemKind (kind : String) : Bool := itemKinds.contains kind

/-- Expressions and literals are named for what they are; the other kinds are listed. -/
def isExprKind (kind : String) : Bool :=
  "_expression".toList.isSuffixOf kind.toList || "_literal".toList.isSuffixOf kind.toList ||
    exprKinds.contains kind

/-- The source of a node, empty outside the file. -/
def textOf (source : Source) (info : NodeInfo) : String := source.snippet info.span ""

end RustLint.Lowering
