import RustLint.Proofs.Lowering.Congruence

set_option autoImplicit false

namespace RustLint

namespace Tree

variable {α : Type}

mutual

/-- The tree cut off at its macro invocations: they hold nothing and carry another value. -/
def cut (value : NodeInfo → α → α) : Tree α → Tree α
  | ⟨info, old, children⟩ =>
    if info.kind = "macro_invocation" then ⟨info, value info old, []⟩
    else ⟨info, old, cutAll value children⟩

/-- The trees, each cut off. -/
def cutAll (value : NodeInfo → α → α) : List (Tree α) → List (Tree α)
  | [] => []
  | t :: ts => cut value t :: cutAll value ts

end

/-- The tree without what its macro invocations hold. -/
def withoutBodies (t : Tree α) : Tree α := t.cut fun _ value => value

variable (value : NodeInfo → α → α)

theorem cutAll_eq_map (ts : List (Tree α)) : cutAll value ts = ts.map (cut value) := by
  induction ts with
  | nil => rfl
  | cons t ts ih => rw [cutAll, ih, List.map_cons]

theorem cut_invocation (t : Tree α) (kind : t.kind = "macro_invocation") :
    t.cut value = ⟨t.info, value t.info t.value, []⟩ := by
  obtain ⟨info, old, children⟩ := t
  exact if_pos kind

theorem cut_other (t : Tree α) (kind : t.kind ≠ "macro_invocation") :
    t.cut value = ⟨t.info, t.value, t.children.map (cut value)⟩ := by
  obtain ⟨info, old, children⟩ := t
  rw [← cutAll_eq_map]
  exact if_neg kind

theorem info_cut (t : Tree α) : (t.cut value).info = t.info := by
  by_cases kind : t.kind = "macro_invocation"
  · rw [cut_invocation value t kind]
  · rw [cut_other value t kind]

/-- No macro invocation stands in a place where the node expects a block, an else clause or a list
of arguments. -/
structure Reserves (t : Tree α) : Prop where
  label : ∀ child ∈ t.children, child.kind = "macro_invocation" →
    child.info.label ∉ [some "consequence", some "alternative", some "arguments"]
  letElse : t.kind = "let_declaration" →
    ∀ u ∈ t.nodes.partAfter? "else", u.kind ≠ "macro_invocation"

theorem reserves_iff (t : Tree α) : t.Reserves ↔
    (∀ child ∈ t.children, child.kind = "macro_invocation" →
      child.info.label ∉ [some "consequence", some "alternative", some "arguments"]) ∧
    (t.kind = "let_declaration" →
      ∀ u ∈ t.nodes.partAfter? "else", u.kind ≠ "macro_invocation") :=
  ⟨fun ⟨label, letElse⟩ => ⟨label, letElse⟩, fun ⟨label, letElse⟩ => ⟨label, letElse⟩⟩

instance (t : Tree α) : Decidable t.Reserves := decidable_of_iff _ (reserves_iff t).symm

/-- What stands in the place of a block, an else clause or a list of arguments is none. -/
theorem Reserves.kind_ne {t : Tree α} (reserves : t.Reserves) (u : Tree α)
    (isReserved : u ∈ t.reserved) : u.kind ≠ "macro_invocation" := by
  have under {label : String} (isLabel : label ∈ ["consequence", "alternative", "arguments"])
      (found : t.nodes.labelled? label = some u) : u.kind ≠ "macro_invocation" := by
    intro kind
    have isLabelled : u.info.label = some label := by simpa using List.find?_some found
    apply reserves.label u (Siblings.mem_of_labelled? t.nodes label u found) kind
    rw [isLabelled]
    simpa using isLabel
  unfold reserved at isReserved
  split at isReserved
  · simp only [List.mem_append, Option.mem_toList] at isReserved
    rcases isReserved with body | els
    · exact under (by decide) body
    · exact under (by decide) els
  split at isReserved
  · exact under (by decide) (Option.mem_toList.mp isReserved)
  split at isReserved
  · next isLet =>
    rcases Option.or_eq_some_iff.mp (Option.mem_toList.mp isReserved) with els | ⟨-, behind⟩
    · exact under (by decide) els
    · exact reserves.letElse isLet u behind
  · cases isReserved

end Tree

namespace Lowering

/-- A macro invocation may hold anything. -/
def bodiless : View where
  strict := true
  dropped := fun _ => False
  kept := fun t => t.kind ≠ "macro_invocation"
  typed := fun _ => True
  kept_of_kind := fun t notLoose kind => notLoose (by rw [kind]; decide)
  typed_of_mem_typeParts := fun _ _ _ _ => trivial

theorem fits_of_reserves (source : Source) (t : ParseTree) (reserves : t.Reserves) :
    Fits bodiless (forms source t) := by
  refine fits_forms source t (fun _ _ _ => id) (fun _ _ _ _ => id) ?_ fun _ _ => trivial
  intro u isReserved kind
  exact reserves.kind_ne u isReserved ((Tree.kind_annotate _ u).symm.trans kind)

/-- As a type and as an expression an invocation is only its kind. -/
theorem alike_invocation (source : Source) (info : NodeInfo) (kind : info.kind = "macro_invocation")
    {below below' : Siblings Forms} (fits : Fits bodiless ⟨info, formsOf source info below, below⟩) :
    Alike bodiless ⟨info, formsOf source info below, below⟩
      ⟨info, formsOf source info below', below'⟩ := by
  have changed : ¬bodiless.kept ⟨info, formsOf source info below, below⟩ := not_not.mpr kind
  refine .mk _ _ ⟨rfl, rfl, rfl, .inl rfl, rfl, fun _ => ?_, ?_, fun kept => absurd kept changed,
    fun kept => absurd kept changed, fits⟩ fun kept => absurd kept changed
  · simp only [formsOf, typeOf, kind, String.reduceEq, if_false]
  · simp only [formsOf, exprOf_macroCall kind]
    exact .refl _

/-- Without what the invocations hold a tree is the same to whoever reads it. -/
theorem alike_withoutBodies (source : Source) (t : ParseTree)
    (reserves : ∀ u, t.Holds u → u.Reserves) :
    Alike bodiless (forms source t) (forms source t.withoutBodies) := by
  induction t using Tree.inductionOnChildren with
  | step t ih =>
    have fits := fits_of_reserves source t (reserves t .refl)
    obtain ⟨info, value, children⟩ := t
    rw [forms_eq] at fits ⊢
    -- An invocation loses its children, and no form that a parent reads depends on them. Every other
    -- node keeps its children, which by induction are alike.
    by_cases kind : info.kind = "macro_invocation"
    · rw [Tree.withoutBodies, Tree.cut_invocation _ ⟨info, value, children⟩ kind, forms_eq]
      exact alike_invocation source info kind fits
    · have cut : Tree.withoutBodies ⟨info, value, children⟩ =
          ⟨info, value, children.map Tree.withoutBodies⟩ := Tree.cut_other _ _ kind
      rw [cut, forms_eq]
      refine .ofChildren source info fits (.of_forall₂ ?_)
      rw [List.map_map, List.forall₂_map_left_iff, List.forall₂_map_right_iff, List.forall₂_same]
      intro child isChild
      exact ih child isChild fun u holds => reserves u (.head isChild holds)

theorem ofTree_withoutBodies (source : Source) (t : ParseTree)
    (reserves : ∀ u, t.Holds u → u.Reserves) :
    Crate.ofTree source t.withoutBodies = Crate.ofTree source t := by
  have info : t.withoutBodies.info = t.info := Tree.info_cut _ t
  have alike := alike_withoutBodies source t reserves
  exact (alike.crate fun _ => by rw [Tree.kind, info, Tree.kind]).eq_of_strict.symm

/-- Two files that differ only in what their macro invocations hold are lowered to the same crate,
or to the same error. -/
theorem ofTree_eq_of_withoutBodies_eq (source : Source) (t t' : ParseTree)
    (same : t.withoutBodies = t'.withoutBodies) (reserves : ∀ u, t.Holds u → u.Reserves)
    (reserves' : ∀ u, t'.Holds u → u.Reserves) :
    Crate.ofTree source t = Crate.ofTree source t' := by
  rw [← ofTree_withoutBodies source t reserves, same, ofTree_withoutBodies source t' reserves']

/-- The file `fn f() { m!(if) }` where the macro holds the trees. -/
def invoking (inside : List ParseTree) : ParseTree :=
  ⟨⟨"source_file", true, 0, 17, none⟩, (), [
    ⟨⟨"function_item", true, 0, 17, none⟩, (), [
      ⟨⟨"identifier", true, 3, 4, some "name"⟩, (), []⟩,
      ⟨⟨"block", true, 7, 17, some "body"⟩, (), [
        ⟨⟨"macro_invocation", true, 9, 15, none⟩, (), inside⟩]⟩]⟩]⟩

/-- A macro that holds an `if` and one that holds nothing make no difference. -/
theorem invoking_ofTree_eq :
    let held : ParseTree := ⟨⟨"if_expression", true, 12, 14, none⟩, (), []⟩
    (invoking [held]).withoutBodies = (invoking []).withoutBodies ∧
      Crate.ofTree ⟨"fn f() \x7b m!(if) \x7d", none⟩ (invoking [held]) =
        Crate.ofTree ⟨"fn f() \x7b m!(if) \x7d", none⟩ (invoking []) :=
  ⟨rfl, ofTree_eq_of_withoutBodies_eq _ _ _ rfl (by decide) (by decide)⟩

end Lowering

end RustLint
