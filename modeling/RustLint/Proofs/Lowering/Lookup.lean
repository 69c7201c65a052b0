import RustLint.ParseTree
import Mathlib.Logic.Relation

set_option autoImplicit false

namespace RustLint

namespace Siblings

variable {α β : Type}

theorem mem_parts_iff (ts : Siblings α) (t : Tree α) :
    t ∈ ts.parts ↔ t ∈ ts ∧ t.info.isPart = true := List.mem_filter

theorem mem_of_labelled? (ts : Siblings α) (label : String) (t : Tree α)
    (found : ts.labelled? label = some t) : t ∈ ts := List.mem_of_find?_eq_some found

theorem mem_of_ofKind? (ts : Siblings α) (kind : String) (t : Tree α)
    (found : ts.ofKind? kind = some t) : t ∈ ts := List.mem_of_find?_eq_some found

theorem kind_of_ofKind? (ts : Siblings α) (kind : String) (t : Tree α)
    (found : ts.ofKind? kind = some t) : t.kind = kind := by
  simpa using List.find?_some found

theorem mem_parts_of_firstPart? (ts : Siblings α) (t : Tree α) (found : ts.firstPart? = some t) :
    t ∈ ts.parts := List.mem_of_head? found

theorem mem_parts_of_lastPart? (ts : Siblings α) (t : Tree α) (found : ts.lastPart? = some t) :
    t ∈ ts.parts := List.mem_of_getLast? found

theorem mem_of_mem_parts (ts : Siblings α) (t : Tree α) (listed : t ∈ ts.parts) : t ∈ ts :=
  ((mem_parts_iff ts t).mp listed).1

theorem mem_of_firstPart? (ts : Siblings α) (t : Tree α) (found : ts.firstPart? = some t) :
    t ∈ ts := mem_of_mem_parts ts t (mem_parts_of_firstPart? ts t found)

theorem mem_of_lastPart? (ts : Siblings α) (t : Tree α) (found : ts.lastPart? = some t) :
    t ∈ ts := mem_of_mem_parts ts t (mem_parts_of_lastPart? ts t found)

theorem mem_of_partAfter? (ts : Siblings α) (kind : String) (t : Tree α)
    (found : ts.partAfter? kind = some t) : t ∈ ts :=
  (List.dropWhile_sublist _).subset (List.mem_of_find?_eq_some found)

theorem mem_of_rightAfter? (ts : Siblings α) (kind : String) (t : Tree α)
    (found : ts.rightAfter? kind = some t) : t ∈ ts := by
  induction ts with
  | nil => cases found
  | cons u us ih =>
    cases us with
    | nil => cases found
    | cons v vs =>
      rw [rightAfter?] at found
      split at found
      · cases found
        exact List.mem_cons_of_mem _ List.mem_cons_self
      · exact List.mem_cons_of_mem _ (ih found)

/-- What is found by one of two lookups is a child when both find children. -/
theorem mem_of_or {ts : Siblings α} {first second : Option (Tree α)} {t : Tree α}
    (found : first.or second = some t) (left : ∀ t, first = some t → t ∈ ts)
    (right : ∀ t, second = some t → t ∈ ts) : t ∈ ts := by
  rcases Option.or_eq_some_iff.mp found with here | ⟨-, there⟩
  · exact left t here
  · exact right t there

section Map

/-! A map of trees that leaves what the grammar says of each node leaves the lookups. -/

variable {g : Tree α → Tree β} (keeps : ∀ t, (g t).info = t.info) (ts : Siblings α)

include keeps

theorem parts_map : parts (ts.map g) = (parts ts).map g := by
  simp [parts, List.filter_map, Function.comp_def, keeps]

theorem spoken_map : spoken (ts.map g) = (spoken ts).map g := by
  simp [spoken, List.filter_map, Function.comp_def, keeps]

theorem labelled?_map (label : String) :
    labelled? (ts.map g) label = (labelled? ts label).map g := by
  have same (t : Tree α) : ((g t).info.label == some label) = (t.info.label == some label) := by
    rw [keeps]
  rw [labelled?, labelled?, List.find?_map]
  exact congrArg (fun p => (ts.find? p).map g) (funext same)

theorem ofKind?_map (kind : String) : ofKind? (ts.map g) kind = (ofKind? ts kind).map g := by
  have same (t : Tree α) : ((g t).kind == kind) = (t.kind == kind) := by
    rw [Tree.kind, keeps, Tree.kind]
  rw [ofKind?, ofKind?, List.find?_map]
  exact congrArg (fun p => (ts.find? p).map g) (funext same)

theorem hasKind_map (kind : String) : hasKind (ts.map g) kind = hasKind ts kind := by
  simp [hasKind, Tree.kind, Function.comp_def, keeps]

theorem firstPart?_map : firstPart? (ts.map g) = (firstPart? ts).map g := by
  rw [firstPart?, parts_map keeps, List.head?_map, firstPart?]

theorem lastPart?_map : lastPart? (ts.map g) = (lastPart? ts).map g := by
  rw [lastPart?, parts_map keeps, List.getLast?_map, lastPart?]

theorem partAfter?_map (kind : String) : partAfter? (ts.map g) kind = (partAfter? ts kind).map g := by
  simp [partAfter?, List.dropWhile_map, Tree.kind, Function.comp_def, keeps]

theorem rightAfter?_map (kind : String) :
    rightAfter? kind (ts.map g) = (rightAfter? kind ts).map g := by
  induction ts with
  | nil => rfl
  | cons t ts ih =>
    cases ts with
    | nil => rfl
    | cons u us =>
      rw [List.map_cons] at ih ⊢
      rw [List.map_cons, rightAfter?, rightAfter?, ih, Tree.kind, keeps, Tree.kind]
      split <;> rfl

end Map

end Siblings

namespace Tree

variable {α β : Type}

@[simp] theorem kind_annotate (f : NodeInfo → List (Tree β) → β) (t : Tree α) :
    (annotate f t).kind = t.kind := by
  rw [kind, info_annotate, kind]

@[simp] theorem span_annotate (f : NodeInfo → List (Tree β) → β) (t : Tree α) :
    (annotate f t).span = t.span := by
  rw [span, info_annotate, span]

/-- The node is in the tree: it is the root, or it stands below it. -/
abbrev Holds (t u : Tree α) : Prop := Relation.ReflTransGen (fun t u => u ∈ t.children) t u

theorem Holds.child {t u : Tree α} (child : u ∈ t.children) : Holds t u := .single child

theorem sizeAll_of_mem (ts : List (Tree α)) (t : Tree α) (listed : t ∈ ts) :
    size t ≤ sizeAll ts := by
  induction ts with
  | nil => cases listed
  | cons u us ih =>
    rw [sizeAll]
    rcases List.mem_cons.mp listed with rfl | later
    · omega
    · have := ih later
      omega

/-- What holds of a node whenever it holds of all its children, holds of every node. -/
theorem inductionOnChildren {P : Tree α → Prop}
    (step : ∀ t : Tree α, (∀ child ∈ t.children, P child) → P t) (t : Tree α) : P t :=
  step t fun child _ => inductionOnChildren step child
termination_by size t
decreasing_by
  have := sizeAll_of_mem t.children child ‹_›
  have := sizeAll_children_lt t
  omega

/-- What holds of a node whenever it holds of all nodes further down, holds of every node. -/
theorem inductionOnHeld {P : Tree α → Prop}
    (step : ∀ t : Tree α, (∀ child ∈ t.children, ∀ u, child.Holds u → P u) → P t) (t : Tree α) :
    P t := by
  have all (t : Tree α) : ∀ u, t.Holds u → P u := by
    induction t using inductionOnChildren with
    | step t ih =>
      intro u holds
      rcases holds.cases_head with rfl | ⟨child, below, rest⟩
      · exact step t ih
      · exact ih child below u rest
  exact all t t .refl

mutual

/-- The check that all nodes of the tree pass. -/
def all (p : Tree α → Bool) : Tree α → Bool
  | ⟨info, value, children⟩ => p ⟨info, value, children⟩ && allIn p children

/-- The check that all nodes of all the trees pass. -/
def allIn (p : Tree α → Bool) : List (Tree α) → Bool
  | [] => true
  | t :: ts => all p t && allIn p ts

end

theorem allIn_iff (p : Tree α → Bool) (ts : List (Tree α)) :
    allIn p ts = true ↔ ∀ t ∈ ts, all p t = true := by
  induction ts with
  | nil => simp [allIn]
  | cons t ts ih => simp [allIn, ih]

theorem all_iff (p : Tree α → Bool) (t : Tree α) : all p t = true ↔ ∀ u, t.Holds u → p u = true := by
  induction t using inductionOnChildren with
  | step t ih =>
    have unfolded : all p t = true ↔ p t = true ∧ ∀ child ∈ t.children, all p child = true := by
      rw [← allIn_iff, ← Bool.and_eq_true]
      cases t
      rfl
    rw [unfolded]
    constructor
    · rintro ⟨here, below⟩ u holds
      rcases holds.cases_head with rfl | ⟨child, isChild, rest⟩
      · exact here
      · exact (ih child isChild).mp (below child isChild) u rest
    · intro everywhere
      refine ⟨everywhere t .refl, fun child isChild => (ih child isChild).mpr ?_⟩
      intro u holds
      exact everywhere u (.head isChild holds)

/-- What can be decided for each node can be decided for all nodes of a tree. -/
instance (P : Tree α → Prop) [DecidablePred P] (t : Tree α) : Decidable (∀ u, t.Holds u → P u) :=
  decidable_of_iff (all (fun u => decide (P u)) t = true) (by simp [all_iff])

end Tree

end RustLint
