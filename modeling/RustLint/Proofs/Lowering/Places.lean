import RustLint.Proofs.Lowering.Lookup
import RustLint.Lowering.Type
import RustLint.Lowering.Item

set_option autoImplicit false

namespace RustLint

namespace Siblings

variable {α β : Type}

/-- The types of the fields in a body with names. -/
def namedFieldTypes (below : Siblings α) : List (Tree α) :=
  below.parts.filterMap fun decl =>
    if decl.kind != "field_declaration" then none
    else (decl.nodes.labelled? "type").or
      (decl.nodes.parts.filter fun t => !(Lowering.besideFieldType.contains t.kind)).getLast?

/-- The types of the fields of a tuple struct. -/
def tupleFieldTypes (below : Siblings α) : List (Tree α) :=
  below.parts.filter fun t => t.kind != "visibility_modifier" && t.kind != "attribute_item"

/-- The types of the fields of a struct. -/
def structFieldTypes (below : Siblings α) : List (Tree α) :=
  match below.ofKind? "field_declaration_list", below.ofKind? "ordered_field_declaration_list" with
  | some body, _ => body.nodes.namedFieldTypes
  | none, some body => body.nodes.tupleFieldTypes
  | none, none => []

/-- The types of the fields of a union. -/
def unionFieldTypes (below : Siblings α) : List (Tree α) :=
  (below.ofKind? "field_declaration_list").elim [] fun body => body.nodes.namedFieldTypes

/-- The trait and the self type of an `impl`. -/
def implTypes (below : Siblings α) : Option (Tree α) × Option (Tree α) :=
  match below.labelled? "type" with
  | some selfTy => (below.labelled? "trait", some selfTy)
  | none =>
    let types := below.parts.filter fun t => !(Lowering.besideImplTypes.contains t.kind)
    match types, below.hasKind "for" with
    | trait :: selfTy :: _, true => (some trait, some selfTy)
    | types, _ => (below.labelled? "trait", types.head?)

/-- The type that a function returns. -/
def resultType? (below : Siblings α) : Option (Tree α) :=
  (below.labelled? "return_type").or (below.rightAfter? "->")

/-- The arguments of a generic type that are types. -/
def typeArguments (below : Siblings α) : List (Tree α) :=
  match below.ofKind? "type_arguments" with
  | some list => list.nodes.parts.filter fun t => !Lowering.nonTypeArguments.contains t.kind
  | none => []

end Siblings

namespace Tree

variable {α β : Type}

/-- The nodes that a type of the kind takes its name and its arguments from, each a type. -/
def typeParts (t : Tree α) : List (Tree α) :=
  if t.kind = "generic_type" then
    ((t.nodes.labelled? "type").or t.nodes.firstPart?).toList ++ t.nodes.typeArguments
  else if t.kind = "reference_type" then
    ((t.nodes.labelled? "type").or t.nodes.lastPart?).toList
  else if t.kind = "tuple_type" then t.nodes.parts
  else if t.kind = "array_type" then
    ((t.nodes.labelled? "element").or t.nodes.firstPart?).toList
  else []

/-- The nodes lowered as types for an item or an expression of the kind. -/
def statedTypes (t : Tree α) : List (Tree α) :=
  if t.kind = "struct_item" then t.nodes.structFieldTypes
  else if t.kind = "union_item" then t.nodes.unionFieldTypes
  else if t.kind = "impl_item" then t.nodes.implTypes.1.toList ++ t.nodes.implTypes.2.toList
  else if t.kind = "function_item" then t.nodes.resultType?.toList
  else if t.kind = "type_cast_expression" then
    ((t.nodes.labelled? "type").or t.nodes.lastPart?).toList
  else []

/-- The nodes taken for a block, an else clause or a list of arguments because of where they
stand. -/
def reserved (t : Tree α) : List (Tree α) :=
  if t.kind = "if_expression" ∨ t.kind = "if_let_expression" then
    (t.nodes.labelled? "consequence").toList ++ (t.nodes.labelled? "alternative").toList
  else if t.kind = "call_expression" then (t.nodes.labelled? "arguments").toList
  else if t.kind = "let_declaration" then
    ((t.nodes.labelled? "alternative").or (t.nodes.partAfter? "else")).toList
  else []

end Tree

section Annotate

variable {α β : Type} (f : NodeInfo → List (Tree β) → β)

attribute [local simp] Siblings.parts_map Siblings.labelled?_map Siblings.ofKind?_map
  Siblings.hasKind_map Siblings.firstPart?_map Siblings.lastPart?_map Siblings.partAfter?_map
  Siblings.rightAfter?_map Option.toList_map

namespace Siblings

variable (below : Siblings α)

theorem namedFieldTypes_annotate :
    namedFieldTypes (below.map (Tree.annotate f)) = (namedFieldTypes below).map (Tree.annotate f) := by
  simp only [namedFieldTypes, parts_map (Tree.info_annotate f), List.filterMap_map,
    List.map_filterMap]
  congr 1
  funext decl
  simp only [Function.comp_apply, Tree.kind_annotate, Tree.nodes, Tree.children_annotate,
    labelled?_map (Tree.info_annotate f), parts_map (Tree.info_annotate f), List.filter_map,
    List.getLast?_map, Function.comp_def, ← Option.map_or]
  split <;> rfl

theorem tupleFieldTypes_annotate :
    tupleFieldTypes (below.map (Tree.annotate f)) = (tupleFieldTypes below).map (Tree.annotate f) := by
  simp only [tupleFieldTypes, parts_map (Tree.info_annotate f), List.filter_map, Function.comp_def,
    Tree.kind_annotate]

theorem structFieldTypes_annotate :
    structFieldTypes (below.map (Tree.annotate f)) =
      (structFieldTypes below).map (Tree.annotate f) := by
  simp only [structFieldTypes, ofKind?_map (Tree.info_annotate f)]
  cases below.ofKind? "field_declaration_list" <;>
    cases below.ofKind? "ordered_field_declaration_list" <;>
    simp [namedFieldTypes_annotate, tupleFieldTypes_annotate]

theorem unionFieldTypes_annotate :
    unionFieldTypes (below.map (Tree.annotate f)) =
      (unionFieldTypes below).map (Tree.annotate f) := by
  simp only [unionFieldTypes, ofKind?_map (Tree.info_annotate f)]
  cases below.ofKind? "field_declaration_list" <;> simp [namedFieldTypes_annotate]

theorem implTypes_annotate : implTypes (below.map (Tree.annotate f)) =
    ((implTypes below).1.map (Tree.annotate f), (implTypes below).2.map (Tree.annotate f)) := by
  simp only [implTypes, labelled?_map (Tree.info_annotate f), parts_map (Tree.info_annotate f),
    hasKind_map (Tree.info_annotate f), List.filter_map, Function.comp_def, Tree.kind_annotate]
  cases below.labelled? "type" with
  | some selfTy => rfl
  | none =>
    generalize (below.parts.filter fun t => !(Lowering.besideImplTypes.contains t.kind)) = types
    rcases types with _ | ⟨trait, _ | ⟨selfTy, more⟩⟩
    · rfl
    · rfl
    · cases below.hasKind "for" <;> rfl

theorem typeArguments_annotate :
    typeArguments (below.map (Tree.annotate f)) = (typeArguments below).map (Tree.annotate f) := by
  simp only [typeArguments, ofKind?_map (Tree.info_annotate f)]
  cases below.ofKind? "type_arguments" <;>
    simp [List.filter_map, Function.comp_def]

end Siblings

namespace Tree

variable (t : Tree α)

theorem typeParts_annotate : (annotate f t).typeParts = t.typeParts.map (annotate f) := by
  simp only [typeParts, kind_annotate, nodes, children_annotate,
    Siblings.labelled?_map (info_annotate f), Siblings.firstPart?_map (info_annotate f),
    Siblings.lastPart?_map (info_annotate f), Siblings.parts_map (info_annotate f),
    Siblings.typeArguments_annotate, ← Option.map_or, Option.toList_map, ← List.map_append]
  repeat' split
  all_goals rfl

theorem statedTypes_annotate : (annotate f t).statedTypes = t.statedTypes.map (annotate f) := by
  simp only [statedTypes, kind_annotate, nodes, children_annotate,
    Siblings.structFieldTypes_annotate, Siblings.unionFieldTypes_annotate,
    Siblings.implTypes_annotate, Siblings.resultType?, Siblings.labelled?_map (info_annotate f),
    Siblings.rightAfter?_map (info_annotate f), Siblings.lastPart?_map (info_annotate f),
    ← Option.map_or, Option.toList_map, ← List.map_append]
  repeat' split
  all_goals rfl

theorem reserved_annotate : (annotate f t).reserved = t.reserved.map (annotate f) := by
  simp only [reserved, kind_annotate, nodes, children_annotate,
    Siblings.labelled?_map (info_annotate f), Siblings.partAfter?_map (info_annotate f),
    ← Option.map_or, Option.toList_map, ← List.map_append]
  repeat' split
  all_goals rfl

end Tree

end Annotate

end RustLint
