import RustLint.Proofs.Lowering.Congruence

set_option autoImplicit false

namespace RustLint

namespace Tree

variable {α : Type}

mutual

/-- The tree without the comments below its nodes, at any depth. -/
def withoutComments : Tree α → Tree α
  | ⟨info, value, children⟩ => ⟨info, value, withoutCommentsIn children⟩

/-- The trees that are no comments, each without the comments below. -/
def withoutCommentsIn : List (Tree α) → List (Tree α)
  | [] => []
  | t :: ts =>
    if t.info.isComment then withoutCommentsIn ts else withoutComments t :: withoutCommentsIn ts

end

/-- No comment below the node stands where it would be taken for something else. -/
structure CommentsApart (t : Tree α) : Prop where
  unlabelled : ∀ child ∈ t.children, child.info.isComment = true → child.info.label = none
  operator : t.kind = "unary_expression" → ∀ u ∈ t.children.head?, ¬u.info.isComment = true
  result : t.kind = "function_item" → t.nodes.labelled? "return_type" = none →
    ∀ u ∈ t.nodes.rightAfter? "->", ¬u.info.isComment = true

theorem commentsApart_iff (t : Tree α) : t.CommentsApart ↔
    (∀ child ∈ t.children, child.info.isComment = true → child.info.label = none) ∧
    (t.kind = "unary_expression" → ∀ u ∈ t.children.head?, ¬u.info.isComment = true) ∧
    (t.kind = "function_item" → t.nodes.labelled? "return_type" = none →
      ∀ u ∈ t.nodes.rightAfter? "->", ¬u.info.isComment = true) :=
  ⟨fun ⟨unlabelled, operator, result⟩ => ⟨unlabelled, operator, result⟩,
    fun ⟨unlabelled, operator, result⟩ => ⟨unlabelled, operator, result⟩⟩

instance (t : Tree α) : Decidable t.CommentsApart :=
  have (t? : Option (Tree α)) : Decidable (t? = none) := decidable_of_iff _ Option.isNone_iff_eq_none
  decidable_of_iff _ (commentsApart_iff t).symm

end Tree

namespace Lowering

/-- Comments are dropped, and nothing else changes. -/
def silent : View where
  strict := true
  dropped := fun t => t.info.isComment = true
  kept := fun _ => True
  typed := fun _ => True
  kept_of_kind := fun _ _ => trivial
  typed_of_mem_typeParts := fun _ _ _ _ => trivial

theorem isComment_forms (source : Source) (t : ParseTree) :
    silent.dropped (forms source t) ↔ t.info.isComment = true := by
  rw [← Tree.info_annotate (formsOf source) t]
  rfl

theorem fits_of_commentsApart (source : Source) (t : ParseTree) (apart : t.CommentsApart) :
    Fits silent (forms source t) := by
  refine fits_forms source t ?_ ?_ (fun _ _ => trivial) fun _ _ => trivial
  · intro kind u first
    exact mt (isComment_forms source u).mp (apart.operator kind u first)
  · intro kind unlabelled u behind
    exact mt (isComment_forms source u).mp (apart.result kind unlabelled u behind)

/-- Children that are alike are still paired without the comments between them. -/
theorem paired_withoutCommentsIn (source : Source) (ts : List ParseTree)
    (unlabelled : ∀ t ∈ ts, t.info.isComment = true → t.info.label = none)
    (alike : ∀ t ∈ ts, Alike silent (forms source t) (forms source t.withoutComments)) :
    Paired silent (Alike silent) (ts.map (forms source))
      ((Tree.withoutCommentsIn ts).map (forms source)) := by
  induction ts with
  | nil => exact .nil
  | cons t ts ih =>
    have rest := ih (fun u later => unlabelled u (List.mem_cons_of_mem _ later))
      fun u later => alike u (List.mem_cons_of_mem _ later)
    have info : (forms source t).info = t.info := Tree.info_annotate _ t
    rw [Tree.withoutCommentsIn]
    split
    · next comment =>
      rw [← info] at comment
      refine .skip _ _ _ comment comment ?_ rest
      rw [info] at comment ⊢
      exact unlabelled t List.mem_cons_self comment
    · exact .cons _ _ _ _ (alike t List.mem_cons_self) rest

theorem alike_withoutComments (source : Source) (t : ParseTree)
    (apart : ∀ u, t.Holds u → u.CommentsApart) :
    Alike silent (forms source t) (forms source t.withoutComments) := by
  induction t using Tree.inductionOnChildren with
  | step t ih =>
    have fits := fits_of_commentsApart source t (apart t .refl)
    have unlabelled := (apart t .refl).unlabelled
    obtain ⟨info, value, children⟩ := t
    rw [Tree.withoutComments]
    rw [forms_eq] at fits ⊢
    rw [forms_eq]
    refine .ofChildren source info fits ?_
    refine paired_withoutCommentsIn source children unlabelled ?_
    intro child isChild
    exact ih child isChild fun u holds => apart u (.head isChild holds)

/-- Without the comments below its nodes a file is lowered to the same crate, or to the same
error. -/
theorem ofTree_withoutComments (source : Source) (t : ParseTree)
    (apart : ∀ u, t.Holds u → u.CommentsApart) :
    Crate.ofTree source t.withoutComments = Crate.ofTree source t := by
  have info : t.withoutComments.info = t.info := by
    cases t
    rw [Tree.withoutComments]
  have alike := alike_withoutComments source t apart
  exact (alike.crate fun _ => by rw [Tree.kind, info, Tree.kind]).eq_of_strict.symm

/-- The file `fn f() { !a }` with the comment `/**/` behind its operator or nowhere. -/
def negating (comments : List ParseTree) : ParseTree :=
  ⟨⟨"source_file", true, 0, 18, none⟩, (), [
    ⟨⟨"function_item", true, 0, 18, none⟩, (), [
      ⟨⟨"identifier", true, 3, 4, some "name"⟩, (), []⟩,
      ⟨⟨"parameters", true, 4, 6, some "parameters"⟩, (), []⟩,
      ⟨⟨"block", true, 7, 18, some "body"⟩, (), [
        ⟨⟨"unary_expression", true, 9, 15, none⟩, (),
          ⟨⟨"!", false, 9, 10, none⟩, (), []⟩ :: comments ++
            [⟨⟨"identifier", true, 14, 15, none⟩, (), []⟩]⟩]⟩]⟩]⟩

/-- The comment between an operator and its operand makes no difference. -/
theorem negating_ofTree_eq :
    let comment : ParseTree := ⟨⟨"block_comment", true, 10, 14, none⟩, (), []⟩
    (negating [comment]).withoutComments = negating [] ∧
      Crate.ofTree ⟨"fn f() \x7b !/**/a \x7d", none⟩ (negating []) =
        Crate.ofTree ⟨"fn f() \x7b !/**/a \x7d", none⟩ (negating [comment]) := by
  intro comment
  have bare : (negating [comment]).withoutComments = negating [] := rfl
  refine ⟨bare, ?_⟩
  rw [← bare]
  exact ofTree_withoutComments _ (negating [comment]) (by decide)

end Lowering

end RustLint
