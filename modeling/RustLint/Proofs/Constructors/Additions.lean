import Mathlib.Data.List.Basic
import RustLint.Proofs.Edits
import RustLint.Proofs.Index.Entries
import RustLint.Rules.NewWithoutDefault

set_option autoImplicit false

namespace RustLint.NewWithoutDefault

open CrateIndex (typeDef? traitName? written? typesIn traitsIn writtenIn Derives Writes Uses
  bareName)
open Node (Replaced gather)

/-! What index and rule read off a tree. -/

/-- What the function finds in the node, when that is an item. -/
def ofItem {α : Type} (g : Item → Option α) (n : Node) : List α := (n.item?.bind g).toList

def impl? : Item → Option ImplBlock
  | .impl i => some i
  | _ => none

/-- The node as a method in an `impl` that no macro produced. -/
def candidatesIn (impl : ImplBlock) : Node → List Candidate
  | .item (.fn method) => if method.span.inMacro then [] else [.ofMethod method impl]
  | _ => []

/-- The candidates in the node, when that is an `impl` of no trait. -/
def candidatesOf (n : Node) : List Candidate :=
  (ofItem impl? n).flatMap fun impl =>
    if impl.trait.isSome then [] else n.children.flatMap (candidatesIn impl)

theorem items_filterMap {α : Type} (g : Item → Option α) (root : Node) :
    root.items.filterMap g = gather (ofItem g) root := by
  rw [Node.items, Node.walk_eq_preorder, List.filterMap_filterMap, List.filterMap_eq_flatMap_toList]
  rfl

theorem methodsOf_map (impl : ImplBlock) : (methodsOf impl).map (Candidate.ofMethod · impl) =
    (Node.item (.impl impl)).children.flatMap (candidatesIn impl) := by
  rw [methodsOf, List.filterMap_eq_flatMap_toList, List.map_flatMap, Node.children,
    Node.childrenOfItem, List.flatMap_map]
  congr 1
  funext item
  cases item with
  | fn method => cases produced : method.span.inMacro <;> simp [candidatesIn, produced]
  | _ => rfl

theorem candidates_eq_gather (crate : Crate) :
    (candidates crate).map Prod.snd = gather candidatesOf (.crate crate) := by
  rw [candidates, List.map_flatMap, Node.items, Node.walk_eq_preorder,
    List.filterMap_eq_flatMap_toList, List.flatMap_assoc, gather]
  congr 1
  funext n
  cases n with
  | item i =>
    cases i with
    | impl impl =>
      cases ofTrait : impl.trait with
      | some trait => simp [candidatesOf, ofItem, Node.item?, impl?, ofTrait]
      | none =>
        simp [candidatesOf, ofItem, Node.item?, impl?, ofTrait, ← methodsOf_map, Function.comp_def]
    | _ => rfl
  | _ => rfl

/-! What each of these depends on. -/

theorem ofItem_outline {α : Type} (g : Item → Option α)
    (depends : ∀ i, g (Node.outlineItem i) = g i) (n : Node) : ofItem g n.outline = ofItem g n := by
  cases n with
  | item i => exact congrArg Option.toList (depends i)
  | _ => rfl

theorem ofItem_of_replaced {α : Type} (g : Item → Option α)
    (depends : ∀ i, g (Node.outlineItem i) = g i) {old new : List Node} (n n' : Node)
    (replaced : Replaced old new n n') : ofItem g n' = ofItem g n := by
  rw [← ofItem_outline g depends n', ← Node.outline_eq_of_replaced replaced,
    ofItem_outline g depends n]

/-- A method is a candidate whatever its body is. -/
theorem candidatesIn_outline (impl : ImplBlock) (n : Node) :
    candidatesIn impl n.outline = candidatesIn impl n := by
  cases n with
  | item i => cases i <;> rfl
  | _ => rfl

/-- The `impl` without what stands in it. -/
def frame (impl : ImplBlock) : ImplBlock := { impl with items := [] }

theorem impl?_outline (n : Node) : ofItem impl? n.outline = (ofItem impl? n).map frame := by
  cases n with
  | item i => cases i <;> rfl
  | _ => rfl

theorem candidatesOf_eq (n : Node) : candidatesOf n =
    ((ofItem impl? n).map frame).flatMap fun impl =>
      if impl.trait.isSome then [] else n.children.flatMap (candidatesIn impl) := by
  have sameMethods (impl : ImplBlock) : candidatesIn (frame impl) = candidatesIn impl := by
    funext m
    cases m with
    | item i => cases i <;> rfl
    | _ => rfl
  rw [candidatesOf, List.flatMap_map]
  simp only [sameMethods]
  rfl

/-- Where no methods are replaced, no `impl` of the tree gets other candidates. -/
theorem candidatesOf_of_replaced {old new : List Node}
    (noMethods : ∀ impl, old.flatMap (candidatesIn impl) = new.flatMap (candidatesIn impl))
    (n n' : Node) (replaced : Replaced old new n n') : candidatesOf n' = candidatesOf n := by
  have sameFrames : (ofItem impl? n').map frame = (ofItem impl? n).map frame := by
    rw [← impl?_outline, ← impl?_outline, Node.outline_eq_of_replaced replaced]
  have sameMethods (impl : ImplBlock) :
      n'.children.flatMap (candidatesIn impl) = n.children.flatMap (candidatesIn impl) := by
    cases replaced with
    | here _ _ _ spliced =>
      have methods := spliced.flatMap (candidatesIn impl)
      rw [noMethods impl] at methods
      exact methods.eq_of_same
    | inside _ _ child child' _ spliced deeper =>
      have methods := spliced.flatMap (candidatesIn impl)
      have same : candidatesIn impl child' = candidatesIn impl child := by
        rw [← candidatesIn_outline impl child', ← Node.outline_eq_of_replaced deeper,
          candidatesIn_outline impl child]
      rw [List.flatMap_singleton, List.flatMap_singleton, same] at methods
      exact methods.eq_of_same
  rw [candidatesOf_eq, candidatesOf_eq, sameFrames]
  simp only [sameMethods]

theorem spliced_items {α : Type} (g : Item → Option α)
    (depends : ∀ i, g (Node.outlineItem i) = g i) {old new : List Node} {c c' : Crate}
    (replaced : Replaced old new (.crate c) (.crate c')) :
    Spliced (old.flatMap (gather (ofItem g))) (new.flatMap (gather (ofItem g)))
      ((Node.crate c).items.filterMap g) ((Node.crate c').items.filterMap g) := by
  rw [items_filterMap, items_filterMap]
  exact Node.gather_of_replaced (ofItem g) (ofItem_of_replaced g depends) replaced

theorem spliced_candidates {old new : List Node} {c c' : Crate}
    (noMethods : ∀ impl, old.flatMap (candidatesIn impl) = new.flatMap (candidatesIn impl))
    (replaced : Replaced old new (.crate c) (.crate c')) :
    Spliced (old.flatMap (gather candidatesOf)) (new.flatMap (gather candidatesOf))
      ((candidates c).map Prod.snd) ((candidates c').map Prod.snd) := by
  rw [candidates_eq_gather, candidates_eq_gather]
  exact Node.gather_of_replaced candidatesOf (candidatesOf_of_replaced noMethods) replaced

theorem typeDef?_outline (i : Item) : typeDef? (Node.outlineItem i) = typeDef? i := by
  cases i <;> rfl

theorem traitName?_outline (i : Item) : traitName? (Node.outlineItem i) = traitName? i := by
  cases i <;> rfl

theorem written?_outline (i : Item) : written? (Node.outlineItem i) = written? i := by
  cases i <;> rfl

/-! Two crates of which the second says one thing more. -/

/-- The definition without the traits that it derives. -/
def face (d : TypeDef) : TypeDef := { d with derives := [] }

/-- The second crate has the types, traits and candidates of the first; only, in it the type of the
name implements the trait as well. -/
structure Adds (trait name : String) (c c' : Crate) : Prop where
  types : (typesIn c').map face = (typesIn c).map face
  traits : traitsIn c' = traitsIn c
  candidates : (candidates c').map Prod.snd = (candidates c).map Prod.snd
  uses : ∀ x m, Uses c' x m ↔ Uses c x m ∨ (x = bareName trait ∧ m = name)

/-- The definition with one trait more that it derives. -/
def alsoDeriving (d : TypeDef) (trait : String) : TypeDef :=
  { d with derives := d.derives ++ [trait] }

theorem adds_of_derive (c c' : Crate) (d : TypeDef) (trait : String)
    (replaced : Replaced [.item (.typeDef d)] [.item (.typeDef (alsoDeriving d trait))]
      (.crate c) (.crate c')) : Adds trait d.name c c' := by
  have types : Spliced [d] [alsoDeriving d trait] (typesIn c) (typesIn c') :=
    spliced_items typeDef? typeDef?_outline replaced
  have traits : traitsIn c' = traitsIn c :=
    (spliced_items traitName? traitName?_outline replaced).eq_of_same
  have written : writtenIn c' = writtenIn c :=
    (spliced_items written? written?_outline replaced).eq_of_same
  have noMethods (impl : ImplBlock) : [.item (.typeDef d)].flatMap (candidatesIn impl) =
      [.item (.typeDef (alsoDeriving d trait))].flatMap (candidatesIn impl) := rfl
  obtain ⟨front, back, before, after⟩ := types
  refine ⟨?_, traits, (spliced_candidates noMethods replaced).eq_of_same, ?_⟩
  · simp only [before, after, List.map_append]
    rfl
  · intro x m
    have derives : Derives c' x m ↔ Derives c x m ∨ (x = bareName trait ∧ m = d.name) := by
      rw [Derives, Derives, before, after]
      simp only [List.mem_append, List.mem_singleton, or_and_right, exists_or, exists_eq_left,
        alsoDeriving, and_or_left]
      have swap : (d.name = m ∧ bareName trait = x) ↔ (x = bareName trait ∧ m = d.name) := by
        rw [and_comm, eq_comm, eq_comm (a := m)]
      rw [swap, ← or_assoc, or_right_comm]
    have writes : Writes c' x m ↔ Writes c x m := by rw [Writes, Writes, written]
    rw [Uses, Uses, derives, writes, or_right_comm]

/-- An `impl` of the trait for the type in which no type and no trait is defined and no further
`impl` stands. -/
structure Gives (added : ImplBlock) (trait : String) (selfTy : Ty) : Prop where
  trait : ∃ written, added.trait = some written ∧ written.name = trait
  selfTy : added.selfTy.name = selfTy.name
  plain : ∀ child ∈ (Node.item (.impl added)).children, ∀ i ∈ child.items,
    typeDef? i = none ∧ traitName? i = none ∧ impl? i = none

/-- One `impl` stands right behind the other, as an item or as a statement. -/
inductive Behind (impl added : ImplBlock) : List Node → List Node → Prop
  | item : Behind impl added [.item (.impl impl)] [.item (.impl impl), .item (.impl added)]
  | stmt (span span' : Span) : Behind impl added [.stmt (.item (.impl impl) span)]
      [.stmt (.item (.impl impl) span), .stmt (.item (.impl added) span')]

section

variable {impl added : ImplBlock} {trait : String} {selfTy : Ty} {old new : List Node}

theorem ofItem_eq_nil {α : Type} (g : Item → Option α) (root n : Node)
    (nothing : ∀ i ∈ root.items, g i = none) (visited : n ∈ root.preorder) : ofItem g n = [] := by
  cases found : n.item? with
  | none => rw [ofItem, found]; rfl
  | some i =>
    have listed : i ∈ root.items := by
      rw [Node.items, Node.walk_eq_preorder]
      exact List.mem_filterMap.mpr ⟨n, visited, found⟩
    rw [ofItem, found, Option.bind_some, nothing i listed]
    rfl

/-- The node comes from a tree with no type, trait or `impl` in it. -/
def IsPlain (n : Node) : Prop :=
  ofItem typeDef? n = [] ∧ ofItem traitName? n = [] ∧ ofItem impl? n = []

/-- Of the added `impl` no more is seen than its head. -/
theorem Gives.gather_eq {α : Type} (gives : Gives added trait selfTy) (f : Node → List α)
    (onlyHeads : ∀ n, IsPlain n → f n = []) :
    gather f (.item (.impl added)) = f (.item (.impl added)) := by
  rw [Node.gather_eq]
  have nothing : (Node.item (.impl added)).children.flatMap (Node.gather f) = [] := by
    rw [List.flatMap_eq_nil_iff]
    intro child listed
    rw [Node.gather, List.flatMap_eq_nil_iff]
    intro n visited
    have plain := gives.plain child listed
    apply onlyHeads
    exact ⟨ofItem_eq_nil typeDef? child n (fun i inChild => (plain i inChild).1) visited,
      ofItem_eq_nil traitName? child n (fun i inChild => (plain i inChild).2.1) visited,
      ofItem_eq_nil impl? child n (fun i inChild => (plain i inChild).2.2) visited⟩
  rw [nothing, List.append_nil]

theorem ofItem_written?_of_plain (n : Node) (plain : IsPlain n) : ofItem written? n = [] := by
  cases n with
  | item i =>
    cases i with
    | impl impl => cases plain.2.2
    | _ => rfl
  | _ => rfl

/-- What is read off the tree grows by what is read off the head of the added `impl`. -/
theorem Behind.spliced {α : Type} (behind : Behind impl added old new)
    (gives : Gives added trait selfTy) (f : Node → List α) (onlyItems : ∀ s, f (.stmt s) = [])
    (onlyHeads : ∀ n, IsPlain n → f n = []) (before after : List α)
    (spliced : Spliced (old.flatMap (gather f)) (new.flatMap (gather f)) before after) :
    Spliced [] (f (.item (.impl added))) before after := by
  have stmt (item : Item) (span : Span) :
      gather f (.stmt (.item item span)) = gather f (.item item) := by
    rw [Node.gather_eq, onlyItems, Node.children, Node.childrenOfStmt, List.flatMap_singleton]
    rfl
  have head := gives.gather_eq f onlyHeads
  obtain ⟨front, back, rfl, rfl⟩ := spliced
  refine ⟨front ++ gather f (.item (.impl impl)), back, ?_, ?_⟩
  · cases behind <;> simp [stmt]
  · cases behind <;> simp [stmt, head]

theorem adds_of_impl (c c' : Crate) (gives : Gives added trait selfTy)
    (behind : Behind impl added old new)
    (replaced : Replaced old new (.crate c) (.crate c')) : Adds trait selfTy.name c c' := by
  obtain ⟨name, ofTrait, rfl⟩ := gives.trait
  have head : ofItem written? (.item (.impl added)) = [(name.name, selfTy.name)] := by
    simp [ofItem, Node.item?, written?, ofTrait, gives.selfTy]
  have noCandidates : candidatesOf (.item (.impl added)) = [] := by
    simp [candidatesOf, ofItem, Node.item?, impl?, ofTrait]
  have onlyImpls (n : Node) (plain : IsPlain n) : candidatesOf n = [] := by
    rw [candidatesOf, plain.2.2, List.flatMap_nil]
  have noMethods (other : ImplBlock) :
      old.flatMap (candidatesIn other) = new.flatMap (candidatesIn other) := by
    cases behind <;> rfl
  have types : typesIn c' = typesIn c :=
    (behind.spliced gives (ofItem typeDef?) (fun _ => rfl) (fun _ plain => plain.1) _ _
      (spliced_items typeDef? typeDef?_outline replaced)).eq_of_same
  have traits : traitsIn c' = traitsIn c :=
    (behind.spliced gives (ofItem traitName?) (fun _ => rfl) (fun _ plain => plain.2.1) _ _
      (spliced_items traitName? traitName?_outline replaced)).eq_of_same
  have methods := behind.spliced gives candidatesOf (fun _ => rfl) onlyImpls _ _
    (spliced_candidates noMethods replaced)
  have writes := behind.spliced gives (ofItem written?) (fun _ => rfl) ofItem_written?_of_plain _ _
    (spliced_items written? written?_outline replaced)
  rw [noCandidates] at methods
  rw [head] at writes
  obtain ⟨front, back, before, after⟩ := writes
  refine ⟨by rw [types], traits, methods.eq_of_same, ?_⟩
  intro x m
  have written : Writes c' x m ↔ Writes c x m ∨ (x = bareName name.name ∧ m = selfTy.name) := by
    have listed (w : String) : (w, m) ∈ writtenIn c' ↔
        (w, m) ∈ writtenIn c ∨ (w = name.name ∧ m = selfTy.name) := by
      rw [writtenIn, writtenIn, before, after, List.append_nil, ← Prod.mk.injEq]
      simp only [List.mem_append, List.mem_singleton]
      exact or_right_comm
    simp only [Writes, listed, or_and_right, exists_or]
    refine or_congr_right ⟨?_, ?_⟩
    · rintro ⟨w, ⟨same, self⟩, bare⟩
      rw [← bare, same]
      exact ⟨rfl, self⟩
    · rintro ⟨bare, self⟩
      exact ⟨name.name, ⟨rfl, self⟩, bare.symm⟩
  rw [Uses, Uses, Derives, Derives, types, written, or_assoc]

end

end RustLint.NewWithoutDefault
