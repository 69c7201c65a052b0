import RustLint.Lowering.Forms
import RustLint.Text.Segments

set_option autoImplicit false

namespace RustLint

namespace Text

/-- What follows the word at the front, blanks before it aside. -/
def afterWord? (word cs : List Char) : Option (List Char) :=
  let cs := cs.dropWhile isBlank
  if word.isPrefixOf cs then some (cs.drop word.length) else none

end Text

namespace Lowering

/-- The list between the parentheses of a derive attribute, which is the whole text: `#`, `[`,
`derive`, `(`, the list, `)` and `]`, with blanks between them. -/
def deriveList? (attr : String) : Option (List Char) := do
  let rest ← Text.afterWord? ['#'] (Text.stripChars attr.toList)
  let rest ← Text.afterWord? ['['] rest
  let rest ← Text.afterWord? ['d', 'e', 'r', 'i', 'v', 'e'] rest
  let rest ← Text.afterWord? ['('] rest
  let rest ← Text.afterWord? [']'] rest.reverse
  let rest ← Text.afterWord? [')'] rest
  return rest.reverse

/-- The traits of a derive list: the last segments of the paths between the commas. -/
def deriveNames (list : List Char) : List String :=
  ((Text.splitAtAll (· == ',') list).map fun part => Text.squash (String.ofList part)).filter
    (· != "") |>.map Text.lastSegment

/-- The traits that the attributes derive, in order. -/
def derivesOf (attributes : List FormTree) : List String :=
  attributes.flatMap fun attr =>
    ((deriveList? attr.value.text).map deriveNames).getD []

/-- The visibility written in front of an item. -/
def visOf (below : Siblings Forms) : Visibility :=
  match below.ofKind? "visibility_modifier" with
  | some vis => .ofText (Text.squash vis.value.text)
  | none => .hidden

/-- The source of a node, empty when there is none. -/
def textOrEmpty (node : Option FormTree) : String := (node.map (·.value.text)).getD ""

/-- The name of an item whose name is a node of the kind. -/
def nameOf (below : Siblings Forms) (kind : String) : String :=
  textOrEmpty ((below.labelled? "name").or (below.ofKind? kind))

/-- One entry of a list of generic parameters, if it is a parameter. -/
def genericParamOf (t : FormTree) : Option GenericParam :=
  let below := t.nodes
  if t.kind = "type_identifier" then some ⟨.type, t.value.text⟩
  else if ["type_parameter", "constrained_type_parameter", "optional_type_parameter"].contains
      t.kind then
    let name := ((below.labelled? "name").or (below.labelled? "left")).or
      (below.ofKind? "type_identifier")
    some ⟨.type, textOrEmpty name⟩
  else if t.kind = "lifetime" || t.kind = "lifetime_parameter" then
    some ⟨.lifetime, t.value.text⟩
  else if t.kind = "const_parameter" then
    some ⟨.const, textOrEmpty (below.ofKind? "identifier")⟩
  else none

def genericsOf (below : Siblings Forms) : Generics :=
  match below.ofKind? "type_parameters" with
  | some list =>
    { params := (list.nodes.parts).filterMap genericParamOf, text := list.value.text }
  | none => {}

end Lowering

end RustLint
