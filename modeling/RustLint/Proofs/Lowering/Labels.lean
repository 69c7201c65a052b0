import Mathlib.Data.List.Flatten
import Mathlib.Data.List.Nodup
import Mathlib.Data.List.Perm.Subperm
import Mathlib.Data.List.TakeWhile
import RustLint.Proofs.Lowering.Evaluation

set_option autoImplicit false

namespace RustLint

namespace Tree

variable {α β : Type}

mutual

/-- A node and all nodes below it, each before those below it. -/
def preorder : Tree α → List (Tree α)
  | ⟨info, value, children⟩ => ⟨info, value, children⟩ :: preorderAll children

def preorderAll : List (Tree α) → List (Tree α)
  | [] => []
  | t :: ts => preorder t ++ preorderAll ts

end

theorem preorderAll_eq_flatMap (ts : List (Tree α)) : preorderAll ts = ts.flatMap preorder := by
  induction ts with
  | nil => rfl
  | cons t ts ih => rw [preorderAll, ih, List.flatMap_cons]

theorem preorder_eq_cons (t : Tree α) : t.preorder = t :: t.children.flatMap preorder := by
  cases t
  rw [preorder, preorderAll_eq_flatMap]

theorem mem_preorder_self (t : Tree α) : t ∈ t.preorder := by
  rw [preorder_eq_cons]
  exact List.mem_cons_self

theorem holds_of_mem_preorder (t u : Tree α) (listed : u ∈ t.preorder) : t.Holds u := by
  induction t using inductionOnChildren with
  | step t ih =>
    rw [preorder_eq_cons] at listed
    rcases List.mem_cons.mp listed with rfl | deeper
    · exact .refl
    · obtain ⟨child, below, inside⟩ := List.mem_flatMap.mp deeper
      exact .head below (ih child below inside)

theorem preorder_annotate (f : NodeInfo → List (Tree β) → β) (t : Tree α) :
    (annotate f t).preorder = t.preorder.map (annotate f) := by
  induction t using inductionOnChildren with
  | step t ih =>
    rw [preorder_eq_cons, preorder_eq_cons t, children_annotate, List.map_cons, List.flatMap_map,
      List.map_flatMap]
    congr 1
    exact List.flatMap_congr ih

/-- The nodes of the first trees are among those of the others, each in a place of its own. -/
def Within (us ts : List (Tree α)) : Prop :=
  (us.flatMap preorder).Subperm (ts.flatMap preorder)

theorem Within.trans {us vs ts : List (Tree α)} (inner : Within us vs) (outer : Within vs ts) :
    Within us ts := List.Subperm.trans inner outer

theorem Within.append {us vs ts ws : List (Tree α)} (first : Within us ts) (second : Within vs ws) :
    Within (us ++ vs) (ts ++ ws) := by
  rw [Within, List.flatMap_append, List.flatMap_append]
  exact List.Subperm.append first second

theorem Within.of_subperm {us ts : List (Tree α)} (among : us.Subperm ts) : Within us ts := by
  obtain ⟨vs, same, part⟩ := among
  exact (same.flatMap_right preorder).symm.subperm.trans (part.flatMap preorder).subperm

theorem Within.refl (ts : List (Tree α)) : Within ts ts := .of_subperm (.refl ts)

theorem Within.children (t : Tree α) : Within t.children [t] := by
  rw [Within, List.flatMap_singleton, preorder_eq_cons]
  exact (List.sublist_cons_self t _).subperm

theorem Within.of_holds {t u : Tree α} (holds : t.Holds u) : Within [u] [t] := by
  induction holds with
  | refl => exact .refl [t]
  | tail _ child ih =>
    exact ((Within.of_subperm (List.singleton_subperm_iff.mpr child)).trans (.children _)).trans ih

/-- Trees that come from inside one of the trees each come from inside all of them. -/
theorem Within.flatMap {f : Tree α → List (Tree α)} (ts : List (Tree α))
    (inside : ∀ t ∈ ts, Within (f t) [t]) : Within (ts.flatMap f) ts := by
  induction ts with
  | nil => exact .refl []
  | cons t ts ih =>
    rw [List.flatMap_cons]
    have others := ih fun u later => inside u (List.mem_cons_of_mem t later)
    exact (inside t List.mem_cons_self).append others

theorem Within.parts (t : Tree α) : Within t.nodes.parts [t] :=
  (Within.of_subperm List.filter_sublist.subperm).trans (.children t)

theorem Within.holds {us : List (Tree α)} {t u : Tree α} (within : Within us [t])
    (listed : u ∈ us) : t.Holds u := by
  have inside := within.subset (List.mem_flatMap_of_mem listed (mem_preorder_self u))
  rw [List.flatMap_singleton] at inside
  exact holds_of_mem_preorder t u inside

end Tree

/-! Labels. -/

namespace Siblings

variable {α : Type}

def hasLabel (ts : Siblings α) (label : String) : Bool := (ts.labelled? label).isSome

/-- An unnamed child of the kind. -/
def hasToken (ts : Siblings α) (kind : String) : Bool :=
  ts.any fun t => t.kind == kind && !t.info.named

theorem label_of_labelled? {ts : Siblings α} {label : String} {t : Tree α}
    (found : ts.labelled? label = some t) : t.info.label = some label := by
  simpa using List.find?_some found

theorem exists_of_hasLabel {ts : Siblings α} {label : String} (has : ts.hasLabel label = true) :
    ∃ t, ts.labelled? label = some t := Option.isSome_iff_exists.mp has

/-- Children found under different labels are different children. -/
theorem subperm_of_labels {ts us : Siblings α} (labels : List String) (distinct : labels.Nodup)
    (found : List.Forall₂ (fun label u => ts.labelled? label = some u) labels us) :
    us.Subperm ts := by
  have named : us.map (fun u => u.info.label) = labels.map some := by
    clear distinct
    induction found with
    | nil => rfl
    | cons here _ ih => rw [List.map_cons, List.map_cons, label_of_labelled? here, ih]
  have apart : us.Nodup := by
    refine List.Nodup.of_map (fun u : Tree α => u.info.label) ?_
    rw [named]
    exact distinct.map fun _ _ => Option.some.inj
  have children : ∀ u ∈ us, u ∈ ts := by
    clear distinct named apart
    induction found with
    | nil => exact List.forall_mem_nil _
    | cons here _ ih => exact List.forall_mem_cons.mpr ⟨mem_of_labelled? ts _ _ here, ih⟩
  exact List.subperm_of_subset apart children

theorem hasToken_map {β : Type} {g : Tree α → Tree β} (keeps : ∀ t, (g t).info = t.info)
    (ts : Siblings α) (kind : String) : hasToken (ts.map g) kind = hasToken ts kind := by
  simp [hasToken, Tree.kind, Function.comp_def, keeps]

/-- Behind a token that is not there stands nothing. -/
theorem partAfter?_of_noToken {ts : Siblings α} {kind : String} (none : ts.hasToken kind = false) :
    ts.partAfter? kind = Option.none := by
  have passed : ts.dropWhile (fun t => !(t.kind == kind && !t.info.named)) = [] := by
    rw [List.dropWhile_eq_nil_iff]
    intro t listed
    have noToken := List.any_eq_false.mp none t listed
    rw [Bool.not_eq_true] at noToken
    rw [noToken, Bool.not_false]
  rw [partAfter?, passed, List.find?_nil]

end Siblings

namespace Lowering

variable {α β : Type}

/-- The kinds of nodes that are an `if`. -/
def ifKinds : List String := ["if_expression", "if_let_expression"]

/-- The labels that a node has to have: its operands, the function of a call, the parts of an `if`,
and of a `let` what its tokens announce. -/
def labelsOf (t : Tree α) : List String :=
  let alternative := if t.nodes.hasKind "else_clause" then ["alternative"] else []
  if t.kind ∈ binaryKinds then ["left", "right"]
  else if t.kind = "call_expression" then ["function"]
  else if t.kind = "if_expression" then ["condition", "consequence"] ++ alternative
  else if t.kind = "if_let_expression" then ["pattern", "value", "consequence"] ++ alternative
  else if t.kind = "let_declaration" then
    (if t.nodes.hasToken "=" then ["value"] else []) ++
      (if t.nodes.hasToken "else" then ["alternative"] else [])
  else []

/-- The node has its labels, and the function of a call is not its list of arguments. -/
def Labelled (t : Tree α) : Prop :=
  (∀ label ∈ labelsOf t, t.nodes.hasLabel label = true) ∧
    (t.kind = "call_expression" →
      (t.nodes.labelled? "function").all (·.kind != "arguments") = true)

instance (t : Tree α) : Decidable (Labelled t) :=
  inferInstanceAs (Decidable ((∀ label ∈ labelsOf t, t.nodes.hasLabel label = true) ∧
    (t.kind = "call_expression" →
      (t.nodes.labelled? "function").all (·.kind != "arguments") = true)))

theorem labelled_annotate (f : NodeInfo → List (Tree β) → β) (t : Tree α) (labelled : Labelled t) :
    Labelled (Tree.annotate f t) := by
  have keeps := Tree.info_annotate (α := α) f
  have same : labelsOf (Tree.annotate f t) = labelsOf t := by
    simp only [labelsOf, Tree.nodes, Tree.kind_annotate, Tree.children_annotate,
      Siblings.hasKind_map keeps, Siblings.hasToken_map keeps]
  refine ⟨fun label listed => ?_, fun kind => ?_⟩
  · rw [same] at listed
    rw [Tree.nodes, Tree.children_annotate, Siblings.hasLabel, Siblings.labelled?_map keeps,
      Option.isSome_map]
    exact labelled.1 label listed
  · rw [Tree.kind_annotate] at kind
    rw [Tree.nodes, Tree.children_annotate, Siblings.labelled?_map keeps, Option.all_map]
    simpa [Function.comp_def] using labelled.2 kind

end Lowering

end RustLint
