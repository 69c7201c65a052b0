import RustLint.Span

set_option autoImplicit false

/- Parse trees, and values computed for their nodes from the leaves up. A tree carries a value at
each node; a plain parse tree carries nothing. `Tree.annotate` gives each node a value that may
depend on the annotated nodes below it, and the lookups among the children of a node are the same
whatever the values are. -/
namespace RustLint

/-- What the grammar says of one node. `label` is the name under which its parent knows it. -/
structure NodeInfo where
  kind : String
  named : Bool
  start : Int
  stop : Int
  label : Option String
  deriving DecidableEq, Inhabited, Repr

/-- A parse tree with a value at each node. -/
structure Tree (α : Type) where
  info : NodeInfo
  value : α
  children : List (Tree α)

/-- A tree as the parser yields it. -/
abbrev ParseTree := Tree Unit

/-- The bytes of the node; parsed code is never a macro expansion. -/
def NodeInfo.span (info : NodeInfo) : Span := ⟨info.start, info.stop, 0⟩

/-- Comments may stand anywhere and mean nothing. -/
def NodeInfo.isComment (info : NodeInfo) : Bool :=
  info.kind == "line_comment" || info.kind == "block_comment"

/-- Named nodes and not comments carry the meaning of their parent. -/
def NodeInfo.isPart (info : NodeInfo) : Bool := info.named && !info.isComment

namespace Tree

variable {α β : Type}

def kind (t : Tree α) : String := t.info.kind

def span (t : Tree α) : Span := t.info.span

mutual

/-- The tree with new values, each computed from the node and the new subtrees below it. -/
def annotate (f : NodeInfo → List (Tree β) → β) : Tree α → Tree β
  | ⟨info, _, children⟩ =>
    let below := annotateAll f children
    ⟨info, f info below, below⟩

/-- The subtrees with new values. -/
def annotateAll (f : NodeInfo → List (Tree β) → β) : List (Tree α) → List (Tree β)
  | [] => []
  | t :: ts => annotate f t :: annotateAll f ts

end

theorem annotateAll_eq_map (f : NodeInfo → List (Tree β) → β) (ts : List (Tree α)) :
    annotateAll f ts = ts.map (annotate f) := by
  induction ts with
  | nil => rfl
  | cons t ts ih => rw [annotateAll, ih, List.map_cons]

@[simp] theorem info_annotate (f : NodeInfo → List (Tree β) → β) (t : Tree α) :
    (annotate f t).info = t.info := by
  cases t; rw [annotate]

@[simp] theorem children_annotate (f : NodeInfo → List (Tree β) → β) (t : Tree α) :
    (annotate f t).children = t.children.map (annotate f) := by
  cases t; rw [annotate, annotateAll_eq_map]

theorem value_annotate (f : NodeInfo → List (Tree β) → β) (t : Tree α) :
    (annotate f t).value = f t.info (t.children.map (annotate f)) := by
  cases t; rw [annotate, annotateAll_eq_map]

mutual

/-- The number of nodes. -/
def size : Tree α → Nat
  | ⟨_, _, children⟩ => sizeAll children + 1

/-- The number of nodes in all the trees. -/
def sizeAll : List (Tree α) → Nat
  | [] => 0
  | t :: ts => size t + sizeAll ts

end

theorem sizeAll_append (ts us : List (Tree α)) : sizeAll (ts ++ us) = sizeAll ts + sizeAll us := by
  induction ts with
  | nil => simp [sizeAll]
  | cons t ts ih => simp [sizeAll, ih]; omega

theorem sizeAll_filter_le (p : Tree α → Bool) (ts : List (Tree α)) :
    sizeAll (ts.filter p) ≤ sizeAll ts := by
  induction ts with
  | nil => simp [sizeAll]
  | cons t ts ih =>
    rw [List.filter_cons]
    split <;> simp only [sizeAll] <;> omega

theorem sizeAll_children_lt (t : Tree α) : sizeAll t.children < size t := by
  cases t; simp [size]

end Tree

/-- The children of one node, in order. -/
abbrev Siblings (α : Type) := List (Tree α)

namespace Siblings

variable {α : Type}

/-- The named children that are no comments. -/
def parts (ts : Siblings α) : List (Tree α) := ts.filter (·.info.isPart)

/-- All children but the comments. -/
def spoken (ts : Siblings α) : List (Tree α) := ts.filter (!·.info.isComment)

def labelled? (ts : Siblings α) (label : String) : Option (Tree α) :=
  ts.find? (·.info.label == some label)

def ofKind? (ts : Siblings α) (kind : String) : Option (Tree α) := ts.find? (·.kind == kind)

def hasKind (ts : Siblings α) (kind : String) : Bool := ts.any (·.kind == kind)

def firstPart? (ts : Siblings α) : Option (Tree α) := ts.parts.head?

def lastPart? (ts : Siblings α) : Option (Tree α) := ts.parts.getLast?

/-- The first part behind an unnamed child of the kind. -/
def partAfter? (ts : Siblings α) (kind : String) : Option (Tree α) :=
  let isToken (t : Tree α) := t.kind == kind && !t.info.named
  (ts.dropWhile (!isToken ·)).find? (·.info.isPart)

/-- The child right behind the first child of the kind that has one. -/
def rightAfter? (kind : String) : Siblings α → Option (Tree α)
  | t :: u :: ts => if t.kind == kind then some u else rightAfter? kind (u :: ts)
  | _ => none

end Siblings

/-- The children of a node, to look among. -/
abbrev Tree.nodes {α : Type} (t : Tree α) : Siblings α := t.children

end RustLint
