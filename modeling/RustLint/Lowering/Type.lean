import RustLint.Lowering.Forms

set_option autoImplicit false

namespace RustLint.Lowering

/-- The kinds of nodes that stand among type arguments and are no types. -/
def nonTypeArguments : List String := ["lifetime", "type_binding", "trait_bounds", "block"]

/-- `Self` is a type of its own kind. -/
def namedType (span : Span) (text : String) : Ty :=
  if text = "Self" then ⟨.self, "Self", span, [], text⟩ else ⟨.path, text, span, [], text⟩

/-- The last segment of a path names it. -/
def scopedType (span : Span) (text : String) (below : Siblings Forms) : Ty :=
  let name := (below.labelled? "name").or below.lastPart?
  ⟨.path, (name.map (·.value.text)).getD text, span, [], text⟩

/-- A generic type is named as the type in front of its arguments. -/
def genericType (span : Span) (text : String) (below : Siblings Forms) : Ty :=
  let base := (below.labelled? "type").or below.firstPart?
  let args : List FormTree := match below.ofKind? "type_arguments" with
    | some list =>
      list.nodes.parts.filter fun t => !nonTypeArguments.contains t.kind
    | none => []
  ⟨.path, (base.map (·.value.ty.name)).getD text, span, args.map (·.value.ty), text⟩

def referenceType (span : Span) (text : String) (below : Siblings Forms) : Ty :=
  let name := if below.hasKind "mutable_specifier" then "&mut" else "&"
  let target := (below.labelled? "type").or below.lastPart?
  ⟨.ref, name, span, (target.map (·.value.ty)).toList, text⟩

/-- With a semicolon an array, without one a slice. -/
def arrayType (span : Span) (text : String) (below : Siblings Forms) : Ty :=
  let kind : TyKind := if below.hasKind ";" then .array else .slice
  let element := (below.labelled? "element").or below.firstPart?
  ⟨kind, "[]", span, (element.map (·.value.ty)).toList, text⟩

/-- The node as a type. -/
def typeOf (source : Source) (info : NodeInfo) (below : Siblings Forms) : Ty :=
  let span := info.span
  let text := textOf source info
  if info.kind = "type_identifier" then namedType span text
  else if info.kind = "primitive_type" then ⟨.path, text, span, [], text⟩
  else if info.kind = "scoped_type_identifier" then scopedType span text below
  else if info.kind = "generic_type" then genericType span text below
  else if info.kind = "reference_type" then referenceType span text below
  else if info.kind = "unit_type" then ⟨.tuple, "()", span, [], text⟩
  else if info.kind = "tuple_type" then
    ⟨.tuple, "()", span, below.parts.map (·.value.ty), text⟩
  else if info.kind = "array_type" then arrayType span text below
  else if info.kind = "never_type" then ⟨.never, "!", span, [], text⟩
  else ⟨.other, info.kind, span, [], text⟩

end RustLint.Lowering
