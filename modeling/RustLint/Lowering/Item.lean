import RustLint.Lowering.Attribute

set_option autoImplicit false

namespace RustLint.Lowering

/-- The kinds of nodes beside the type of a field. -/
def besideFieldType : List String := ["field_identifier", "visibility_modifier", "attribute_item"]

/-- The kinds of nodes beside the types of an `impl`. -/
def besideImplTypes : List String := ["type_parameters", "where_clause", "declaration_list"]

/-- The named fields of a body. A declaration without a type is dropped. -/
def namedFieldsOf (body : FormTree) : List FieldDef :=
  body.nodes.parts.filterMap fun decl =>
    let below := decl.nodes
    let types := below.parts.filter fun t => !(besideFieldType.contains t.kind)
    if decl.kind != "field_declaration" then none
    else ((below.labelled? "type").or types.getLast?).map fun ty =>
      ⟨(below.ofKind? "field_identifier").map (·.value.text), ty.value.ty, decl.span⟩

/-- The fields of a tuple struct. -/
def tupleFieldsOf (body : FormTree) : List FieldDef :=
  let fields := body.nodes.parts.filter fun t =>
    t.kind != "visibility_modifier" && t.kind != "attribute_item"
  fields.map fun t => ⟨none, t.value.ty, t.span⟩

/-- The form of a struct: named fields, then a tuple, else a unit. -/
def structFormOf (below : Siblings Forms) : TypeForm :=
  match below.ofKind? "field_declaration_list", below.ofKind? "ordered_field_declaration_list" with
  | some body, _ => .struct .named (namedFieldsOf body)
  | none, some body => .struct .tuple (tupleFieldsOf body)
  | none, none => .struct .unit []

def unionFormOf (below : Siblings Forms) : TypeForm :=
  .union ((below.ofKind? "field_declaration_list").elim [] namedFieldsOf)

/-- A definition of the form with its name, generics, derived traits and visibility. -/
def typeDefOf (t : FormTree) (form : TypeForm) (attributes : List FormTree) (exported : Bool) :
    TypeDef where
  form := form
  name := nameOf t.children "type_identifier"
  generics := genericsOf t.children
  derives := derivesOf attributes
  vis := visOf t.children
  span := t.span
  exported := exported

/-- The signature of a function. -/
def sigOf (below : Siblings Forms) : FnSig :=
  let params := (below.ofKind? "parameters").elim [] fun list => list.nodes.parts
  let ret := (below.labelled? "return_type").or (below.rightAfter? "->")
  { name := nameOf below "identifier"
    paramCount := params.countP fun p => ["parameter", "variadic_parameter"].contains p.kind
    hasSelf := params.any (·.kind == "self_parameter")
    isConst := (below.ofKind? "function_modifiers").any fun list =>
      list.nodes.hasKind "const"
    generics := genericsOf below
    ret := ret.map (·.value.ty) }

def fnOf (t : FormTree) (exported : Bool) : Except LowerError FnItem := do
  let below := t.nodes
  let body ← match below.ofKind? "block" with
    | some body => some <$> body.value.block
    | none => .ok none
  return { sig := sigOf below, vis := visOf below, body, span := t.span, exported }

/-- The trait and the self type of an `impl`. Without a label the types stand in order, the trait
first where a `for` follows it. -/
def implTypes (below : Siblings Forms) : Option FormTree × Option FormTree :=
  match below.labelled? "type" with
  | some selfTy => (below.labelled? "trait", some selfTy)
  | none =>
    let types := below.parts.filter fun t => !(besideImplTypes.contains t.kind)
    match types, below.hasKind "for" with
    | trait :: selfTy :: _, true => (some trait, some selfTy)
    | types, _ => (below.labelled? "trait", types.head?)

/-- The items of an `impl`: functions in full, others by their kind. -/
def implItemsOf (exported : Bool) : List FormTree → Except LowerError (List Item)
  | [] => .ok []
  | t :: rest =>
    if t.kind = "function_item" then do
      let item ← fnOf t exported
      return .fn item :: (← implItemsOf exported rest)
    else if isItemKind t.kind || t.kind = "macro_invocation" then
      return .other t.kind t.span :: (← implItemsOf exported rest)
    else implItemsOf exported rest

def implOf (t : FormTree) (exported : Bool) : Except LowerError ImplBlock := do
  let below := t.nodes
  let (trait, selfTy?) := implTypes below
  match selfTy? with
  | none => .error .noSelfType
  | some selfTy =>
    let body := (below.ofKind? "declaration_list").elim [] fun list => list.nodes.parts
    return {
      generics := genericsOf below
      trait := trait.map (·.value.ty)
      selfTy := selfTy.value.ty
      items := ← implItemsOf exported body
      span := t.span
      exported }

/-- The items of a module are exported when the module is public and exported itself. -/
def modOf (t : FormTree) (exported : Bool) : Except LowerError ModItem := do
  let below := t.nodes
  let vis := visOf below
  let items ← match below.ofKind? "declaration_list" with
    | some body => body.value.items (exported && vis = .everywhere)
    | none => .ok []
  return { name := nameOf below "identifier", vis, items, span := t.span }

/-- The node as an item, with the attributes in front of it. -/
def itemOf (t : FormTree) (attributes : List FormTree) (exported : Bool) :
    Except LowerError Item :=
  let below := t.nodes
  let typeDef (form : TypeForm) : Item := .typeDef (typeDefOf t form attributes exported)
  if t.kind = "struct_item" then .ok (typeDef (structFormOf below))
  else if t.kind = "enum_item" then .ok (typeDef .enum)
  else if t.kind = "union_item" then .ok (typeDef (unionFormOf below))
  else if t.kind = "trait_item" then
    .ok (.traitDef ⟨nameOf below "type_identifier", visOf below, t.span⟩)
  else if t.kind = "impl_item" then .impl <$> implOf t exported
  else if t.kind = "function_item" then .fn <$> fnOf t exported
  else if t.kind = "mod_item" then .mod <$> modOf t exported
  else .ok (.other t.kind t.span)

/-- The items among the nodes. `attributes` are those directly in front; any node that is no
attribute ends their run. -/
def itemsOf (exported : Bool) (attributes : List FormTree) :
    List FormTree → Except LowerError (List Item)
  | [] => .ok []
  | t :: rest =>
    if t.kind = "attribute_item" then itemsOf exported (attributes ++ [t]) rest
    else if isItemKind t.kind || t.kind = "macro_invocation" then do
      let item ← itemOf t attributes exported
      return item :: (← itemsOf exported [] rest)
    else itemsOf exported [] rest

end RustLint.Lowering
