import RustLint.Proofs.Lowering.Congruence.Expressions
import RustLint.Proofs.Lowering.Congruence.Items

set_option autoImplicit false

namespace RustLint.Lowering

variable {view : View}

/-! Statements and blocks. -/

theorem formOf?_alike {α : Type} (form : FormTree → Except LowerError α) {t? u? : Option FormTree}
    (rel : Option.Rel (Alike view) t? u?)
    (same : ∀ t ∈ t?, ∀ u, Alike view t u → Agree view.strict Eq (form t) (form u)) :
    Agree view.strict Eq (formOf? form t?) (formOf? form u?) := by
  cases rel with
  | none => exact .refl _
  | some here => exact (same _ rfl _ here).map some

section Statement

variable {t u : FormTree} (alike : Alike view t u)

include alike

theorem exprStmtOf_alike (kept : view.kept t) :
    Agree view.strict Eq (exprStmtOf t) (exprStmtOf u) := by
  have paired := alike.nodes kept
  have first := paired.firstPart?
  unfold exprStmtOf
  rw [paired.hasKind ";" (by decide), alike.common.span]
  generalize t.nodes.firstPart? = t?, u.nodes.firstPart? = u? at first
  cases first with
  | none => exact .refl _
  | some here => exact here.common.expr.bindEq fun e => .pure rfl

theorem bindingOf_alike (kind : t.kind = "let_declaration") :
    Agree view.strict Eq (bindingOf t) (bindingOf u) := by
  have paired := alike.nodes (view.kept_of_kind_eq kind (by decide))
  have reserved := alike.common.fits.reserved
  simp only [Tree.reserved, kind, String.reduceEq, or_self, if_true, if_false,
    Option.mem_toList] at reserved
  have value := formOf?_alike (·.value.expr)
    (rel_or (paired.labelled? "value") fun _ => paired.partAfter? "=" (by decide))
    fun t _ u alike => alike.common.expr
  have els := formOf?_alike (·.value.block)
    (rel_or (paired.labelled? "alternative") fun _ => paired.partAfter? "else" (by decide))
    fun t found u alike => alike.common.block (reserved t found)
  rw [bindingOf_eq, bindingOf_eq, alike.common.span]
  exact value.bindEq fun init => els.bindEq fun els => .pure rfl

theorem stmtOf_alike {attributes attributes' : List FormTree}
    (front : List.Forall₂ (Alike view) attributes attributes') :
    Agree view.strict Eq (stmtOf t attributes) (stmtOf u attributes') := by
  have asExpr : Agree view.strict Eq
      (do return some (Stmt.expr (← t.value.expr) false t.span))
      (do return some (Stmt.expr (← u.value.expr) false u.span)) := by
    rw [alike.common.span]
    exact alike.common.expr.bindEq fun e => .pure rfl
  unfold stmtOf
  refine .ite (alike.pass_iff emptyStmtKinds.contains (by decide)) (fun _ => .refl _) fun _ => ?_
  refine .ite (alike.kind_iff (by decide)) (fun kind => ?_) fun _ => ?_
  · exact exprStmtOf_alike alike (view.kept_of_kind_eq kind (by decide))
  refine .ite (alike.kind_iff (by decide)) (fun kind => bindingOf_alike alike kind) fun _ => ?_
  refine .ite (alike.pass_iff isItemKind (by decide)) (fun kind => ?_) fun _ => asExpr
  have kept := view.kept_of_pass isItemKind kind (by decide)
  rw [alike.common.span]
  exact (itemOf_alike alike kept false front).bindEq fun item => .pure rfl

end Statement

theorem stmtsOf_alike {ts us attributes attributes' : List FormTree}
    (all : List.Forall₂ (Alike view) ts us)
    (front : List.Forall₂ (Alike view) attributes attributes') :
    Agree view.strict Eq (stmtsOf attributes ts) (stmtsOf attributes' us) := by
  induction all generalizing attributes attributes' with
  | nil => exact .refl _
  | @cons t u _ _ here _ ih =>
    rw [stmtsOf, stmtsOf]
    refine .ite (here.kind_iff (by decide)) (fun _ => ?_) fun _ => ?_
    · exact ih (List.rel_append front (.cons here .nil))
    · exact (stmtOf_alike here front).bindEq fun stmt? => (ih .nil).bindEq fun stmts => .pure rfl

theorem blockOf_alike (info : NodeInfo) {below below' : Siblings Forms}
    (paired : Paired view (Alike view) below below') :
    Agree view.strict Eq (blockOf info below) (blockOf info below') :=
  (stmtsOf_alike paired.parts .nil).bindEq fun _ => .pure rfl

/-! A whole node. -/

/-- What has to hold of a tree of forms is a matter of the tree. -/
theorem fits_forms (source : Source) (t : ParseTree)
    (operator : t.kind = "unary_expression" →
      ∀ u ∈ t.children.head?, ¬view.dropped (forms source u))
    (result : t.kind = "function_item" → t.nodes.labelled? "return_type" = none →
      ∀ u ∈ t.nodes.rightAfter? "->", ¬view.dropped (forms source u))
    (reserved : ∀ u ∈ t.reserved, view.kept (forms source u))
    (types : ∀ u ∈ t.statedTypes, view.typed (forms source u)) : Fits view (forms source t) where
  operator := by
    intro kind v first
    rw [forms, Tree.kind_annotate] at kind
    rw [forms, Tree.children_annotate, List.head?_map] at first
    obtain ⟨u, isFirst, rfl⟩ := Option.map_eq_some_iff.mp first
    exact operator kind u isFirst
  result := by
    intro kind unlabelled v behind
    rw [forms, Tree.kind_annotate] at kind
    rw [labelled?_forms, Option.map_eq_none_iff] at unlabelled
    rw [forms, Tree.nodes, Tree.children_annotate, Siblings.rightAfter?_map (Tree.info_annotate _)]
      at behind
    obtain ⟨u, isBehind, rfl⟩ := Option.map_eq_some_iff.mp behind
    exact result kind unlabelled u isBehind
  reserved := by
    intro v listed
    rw [forms, Tree.reserved_annotate] at listed
    obtain ⟨u, isReserved, rfl⟩ := List.mem_map.mp listed
    exact reserved u isReserved
  types := by
    intro v listed
    rw [forms, Tree.statedTypes_annotate] at listed
    obtain ⟨u, isType, rfl⟩ := List.mem_map.mp listed
    exact types u isType

/-- A node is like another with the same name, place and text when its children are. -/
theorem Alike.ofChildren (source : Source) (info : NodeInfo) {below below' : Siblings Forms}
    (fits : Fits view ⟨info, formsOf source info below, below⟩)
    (paired : Paired view (Alike view) below below') :
    Alike view ⟨info, formsOf source info below, below⟩
      ⟨info, formsOf source info below', below'⟩ := by
  refine .mk _ _ ⟨rfl, rfl, rfl, .inl rfl, rfl, ?_, ?_, ?_, ?_, fits⟩ fun _ => paired
  · intro typed
    exact typeOf_alike source ⟨info, formsOf source info below, below⟩ below' paired
      (view.typed_of_mem_typeParts _ typed)
  · exact exprOf_alike ⟨info, formsOf source info below, below⟩ fits paired
      (blockOf_alike info paired)
  · exact fun _ => blockOf_alike info paired
  · exact fun _ exported => itemsOf_alike exported paired.parts .nil

/-- Files that are alike are lowered to the same crate. -/
theorem Alike.crate {source : Source} {t u : ParseTree}
    (alike : Alike view (forms source t) (forms source u))
    (kinds : view.strict = true → u.kind = t.kind) :
    Agree view.strict Eq (Crate.ofTree source t) (Crate.ofTree source u) := by
  have isFile := alike.kind_iff (by decide : "source_file" ∉ unclear)
  have span := alike.common.span
  simp only [forms, Tree.kind_annotate, Tree.span_annotate] at isFile span
  rw [Crate.ofTree, Crate.ofTree, span]
  refine .ite isFile (fun kind => ?_) fun _ => ?_
  · have isKind : (forms source t).kind = "source_file" := (Tree.kind_annotate _ t).trans kind
    have kept := view.kept_of_kind_eq isKind (by decide)
    exact (alike.common.items kept true).bindEq fun items => .pure rfl
  · exact .error _ _ fun strict => by rw [kinds strict]

end RustLint.Lowering
