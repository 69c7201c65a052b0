import RustLint.Proofs.Lowering.Likeness

set_option autoImplicit false

namespace RustLint.Lowering

variable {view : View}

/-! Types. -/

section Types

variable {below below' : Siblings Forms} (paired : Paired view (Alike view) below below')
  (span : Span) (text : String)

include paired

theorem typeArguments_alike : List.Forall₂ (Alike view) below.typeArguments below'.typeArguments := by
  unfold Siblings.typeArguments
  have list := paired.ofKind? "type_arguments" (by decide)
  have isKind := Siblings.kind_of_ofKind? below "type_arguments"
  generalize below.ofKind? "type_arguments" = first, below'.ofKind? "type_arguments" = second
    at list isKind
  cases list with
  | none => exact .nil
  | some here =>
    have kept := view.kept_of_kind_eq (isKind _ rfl) (by decide)
    exact rel_filter (here.nodes kept).parts (fun kind => !nonTypeArguments.contains kind)
      (by decide)

theorem scopedType_alike : scopedType span text below' = scopedType span text below := by
  have name := option_map_eq
    (rel_or (paired.labelled? "name") fun _ => paired.lastPart?) (·.value.text)
    fun t _ u alike => alike.common.text
  simp only [scopedType, name]

omit paired in
theorem genericType_eq : genericType span text below =
    ⟨.path, (((below.labelled? "type").or below.firstPart?).map (·.value.ty.name)).getD text, span,
      below.typeArguments.map (·.value.ty), text⟩ := by
  unfold genericType Siblings.typeArguments
  cases below.ofKind? "type_arguments" <;> rfl

theorem genericType_alike
    (base : ∀ u ∈ (below.labelled? "type").or below.firstPart?, view.typed u)
    (args : ∀ u ∈ below.typeArguments, view.typed u) :
    genericType span text below' = genericType span text below := by
  have name := option_map_eq
    (rel_or (paired.labelled? "type") fun _ => paired.firstPart?) (·.value.ty.name)
    fun t found u alike => by rw [alike.common.ty (base t found)]
  have types := map_eq (typeArguments_alike paired) (·.value.ty)
    fun t listed u alike => alike.common.ty (args t listed)
  rw [genericType_eq, genericType_eq, name, types]

theorem referenceType_alike
    (target : ∀ u ∈ (below.labelled? "type").or below.lastPart?, view.typed u) :
    referenceType span text below' = referenceType span text below := by
  have types := option_map_eq
    (rel_or (paired.labelled? "type") fun _ => paired.lastPart?) (·.value.ty)
    fun t found u alike => alike.common.ty (target t found)
  simp only [referenceType, types, paired.hasKind "mutable_specifier" (by decide)]

theorem arrayType_alike
    (element : ∀ u ∈ (below.labelled? "element").or below.firstPart?, view.typed u) :
    arrayType span text below' = arrayType span text below := by
  have types := option_map_eq
    (rel_or (paired.labelled? "element") fun _ => paired.firstPart?) (·.value.ty)
    fun t found u alike => alike.common.ty (element t found)
  simp only [arrayType, types, paired.hasKind ";" (by decide)]

end Types

theorem typeOf_alike (source : Source) (t : FormTree) (below' : Siblings Forms)
    (paired : Paired view (Alike view) t.nodes below') (typed : ∀ u ∈ t.typeParts, view.typed u) :
    typeOf source t.info below' = typeOf source t.info t.nodes := by
  unfold typeOf
  dsimp only
  split
  · rfl
  split
  · rfl
  split
  · rw [scopedType_alike paired]
  split
  · next kind =>
    have kind : t.kind = "generic_type" := kind
    simp only [Tree.typeParts, if_pos kind, List.mem_append, Option.mem_toList] at typed
    rw [genericType_alike paired _ _ (fun u found => typed u (.inl found))
      fun u listed => typed u (.inr listed)]
  split
  · next kind =>
    have kind : t.kind = "reference_type" := kind
    simp only [Tree.typeParts, kind, String.reduceEq, if_true, if_false,
      Option.mem_toList] at typed
    rw [referenceType_alike paired _ _ typed]
  split
  · rfl
  split
  · next kind =>
    have kind : t.kind = "tuple_type" := kind
    simp only [Tree.typeParts, kind, String.reduceEq, if_true, if_false] at typed
    rw [map_eq paired.parts (·.value.ty) fun t listed u alike => alike.common.ty (typed t listed)]
  split
  · next kind =>
    have kind : t.kind = "array_type" := kind
    simp only [Tree.typeParts, kind, String.reduceEq, if_true, if_false,
      Option.mem_toList] at typed
    rw [arrayType_alike paired _ _ typed]
  · rfl

/-! Expressions. -/

/-- The worklists hold the same parts. -/
theorem flatten_alike {todo todo' : List FormTree} (all : List.Forall₂ (Alike view) todo todo')
    (found : List Part) :
    Agree view.strict Eq (flatten todo found) (flatten todo' found) := by
  have skips {t u : FormTree} (alike : Alike view t u) :=
    alike.pass_iff (fun kind => isItemKind kind || decide (kind = "attribute_item")) (by decide)
  have isExpr {t u : FormTree} (alike : Alike view t u) := alike.pass_iff isExprKind (by decide)
  induction todo, found using flatten.induct generalizing todo' with
  | case1 found =>
    cases all
    exact .refl _
  | case2 found t rest skipped ih =>
    cases all with
    | cons here later =>
      rw [flatten, flatten]
      exact .ite (skips here) (fun _ => ih later) fun considered => absurd skipped considered
  | case3 found t rest considered kind ih =>
    cases all with
    | cons here later =>
      rw [flatten, flatten]
      refine .ite (skips here) (fun skipped => absurd skipped considered) fun _ => ?_
      refine .ite (here.kind_iff (by decide)) (fun _ => ?_) fun noBlock => absurd kind noBlock
      have kept := view.kept_of_kind_eq kind (by decide)
      exact (here.common.block kept).bindEq fun block => ih block later
  | case4 found t rest considered noBlock kind ih =>
    cases all with
    | cons here later =>
      rw [flatten, flatten]
      refine .ite (skips here) (fun skipped => absurd skipped considered) fun _ => ?_
      refine .ite (here.kind_iff (by decide)) (fun isBlock => absurd isBlock noBlock) fun _ => ?_
      refine .ite (isExpr here) (fun _ => ?_) fun noExpr => absurd kind noExpr
      exact here.common.expr.bindEq fun e => ih e later
  | case5 found t rest considered noBlock noExpr ih =>
    cases all with
    | cons here later =>
      rw [flatten, flatten]
      refine .ite (skips here) (fun skipped => absurd skipped considered) fun _ => ?_
      refine .ite (here.kind_iff (by decide)) (fun isBlock => absurd isBlock noBlock) fun _ => ?_
      refine .ite (isExpr here) (fun kind => absurd kind noExpr) fun _ => ?_
      have kept : view.kept t := by
        refine view.kept_of_pass (!isExprKind ·) ?_ (by decide)
        simpa using noExpr
      exact ih (List.rel_append (here.nodes kept).parts later)

theorem exprsOf_alike {ts us : List FormTree} (all : List.Forall₂ (Alike view) ts us) :
    Agree view.strict Eq (exprsOf ts) (exprsOf us) := by
  induction all with
  | nil => exact .refl _
  | cons here _ ih =>
    exact here.common.expr.bindEq fun e => ih.bindEq fun es => .pure rfl

theorem aroundOf_alike (info : NodeInfo) {t? u? : Option FormTree}
    (operand : Option.Rel (Alike view) t? u?) (build : Expr → Expr) :
    Agree view.strict Eq (aroundOf info t? build) (aroundOf info u? build) := by
  cases operand with
  | none => exact .refl _
  | some here => exact here.common.expr.bindEq fun e => .pure rfl

theorem add_alike (parts : RangeParts) {t u : FormTree} (alike : Alike view t u) :
    Agree view.strict Eq (parts.add t) (parts.add u) := by
  have isOp := alike.ofKind rangeOps.contains (by decide)
  unfold RangeParts.add
  rw [alike.common.named, isOp]
  split
  · next operator =>
    -- An operator is no `if`, so it is written the same way.
    rw [Bool.and_eq_true] at operator
    rw [alike.kind_of_pass rangeOps.contains operator.2 (by decide)]
    exact .refl _
  · split
    · exact alike.common.expr.bindEq fun e => .pure rfl
    · exact alike.common.expr.bindEq fun e => .pure rfl

theorem fold_alike {ts us : List FormTree} (all : List.Forall₂ (Alike view) ts us)
    (parts : RangeParts) :
    Agree view.strict Eq (ts.foldlM RangeParts.add parts) (us.foldlM RangeParts.add parts) := by
  induction all generalizing parts with
  | nil => exact .refl _
  | cons here _ ih =>
    rw [List.foldlM_cons, List.foldlM_cons]
    exact (add_alike parts here).bindEq ih

theorem argumentsOf_alike {list list' : FormTree} (alike : Alike view list list')
    (kept : view.kept list) :
    Agree view.strict Eq (argumentsOf list) (argumentsOf list') := by
  refine Agree.outOfArguments (exprsOf_alike ?_)
  exact rel_filter (alike.nodes kept).parts (· != "attribute_item") (by decide)

theorem condOf_alike {cond cond' : FormTree} (alike : Alike view cond cond') :
    Agree view.strict Eq (condOf cond) (condOf cond') := by
  unfold condOf
  refine .ite (alike.kind_iff (by decide)) (fun kind => ?_) fun _ => ?_
  · have paired := alike.nodes (view.kept_of_kind_eq kind (by decide))
    have pattern := option_map_eq (rel_or (paired.labelled? "pattern") fun _ => paired.firstPart?)
      Tree.span fun t _ u alike => alike.common.span
    have value := rel_or (paired.labelled? "value") fun _ => paired.lastPart?
    dsimp only
    rw [pattern, alike.common.span]
    generalize (cond.nodes.labelled? "value").or cond.nodes.lastPart? = first,
      (cond'.nodes.labelled? "value").or cond'.nodes.lastPart? = second at value
    cases value with
    | none => exact .refl _
    | some here => exact here.common.expr.bindEq fun e => .pure rfl
  refine .ite (alike.kind_iff (by decide)) (fun kind => ?_) fun _ => ?_
  · have paired := alike.nodes (view.kept_of_kind_eq kind (by decide))
    rw [alike.common.span]
    exact (flatten_alike paired.parts []).bindEq fun parts => .pure rfl
  · exact alike.common.expr.bindEq fun e => .pure rfl

theorem elseOf_alike {clause clause' : FormTree} (alike : Alike view clause clause')
    (kept : view.kept clause) : Agree view.strict Eq (elseOf clause) (elseOf clause') := by
  have first := (alike.nodes kept).firstPart?
  unfold elseOf
  generalize clause.nodes.firstPart? = t?, clause'.nodes.firstPart? = u? at first
  cases first with
  | none => exact .refl _
  | some here =>
    dsimp only
    refine .ite (here.kind_iff (by decide)) (fun kind => ?_) fun _ => ?_
    · exact (here.common.block (view.kept_of_kind_eq kind (by decide))).bindEq fun b => .pure rfl
    · refine .ite (here.pass_iff (fun kind => decide (kind = "if_expression") ||
        decide (kind = "if_let_expression")) (by decide)) (fun _ => ?_) fun _ => .refl _
      exact here.common.expr.bindEq fun e => .refl _

theorem elseOf?_alike {t? u? : Option FormTree}
    (rel : Option.Rel (fun t u => Alike view t u ∧ view.kept t) t? u?) :
    Agree view.strict Eq (elseOf? t?) (elseOf? u?) := by
  cases rel with
  | none => exact .refl _
  | some here => exact elseOf_alike here.1 here.2

/-- The first and the last child that is no comment. -/
def outerOperands (below : Siblings Forms) : Except LowerError (FormTree × FormTree) :=
  match below.spoken.head?, below.spoken.getLast? with
  | some lhs, some rhs => .ok (lhs, rhs)
  | _, _ => .error .noOperand

/-- The operands of a binary expression. -/
def operands (below : Siblings Forms) : Except LowerError (FormTree × FormTree) :=
  match below.labelled? "left", below.labelled? "right" with
  | some lhs, some rhs => .ok (lhs, rhs)
  | _, _ => outerOperands below

/-- The first and the last of the nodes; where there are fewer than two, what is labelled. -/
def outerParts (rest : List FormTree) (labelled : Option FormTree × Option FormTree) :
    Option FormTree × Option FormTree :=
  match rest with
  | first :: second :: more => (some first, some ((second :: more).getLast (List.cons_ne_nil _ _)))
  | _ => labelled

theorem outerParts_alike {ts us : List FormTree} (rest : List.Forall₂ (Alike view) ts us)
    {p? v? p?' v?' : Option FormTree} (pattern : Option.Rel (Alike view) p? p?')
    (value : Option.Rel (Alike view) v? v?') :
    Option.Rel (Alike view) (outerParts ts (p?, v?)).1 (outerParts us (p?', v?')).1 ∧
      Option.Rel (Alike view) (outerParts ts (p?, v?)).2 (outerParts us (p?', v?')).2 := by
  cases rest with
  | nil => exact ⟨pattern, value⟩
  | cons first others =>
    have last := rel_getLast? others
    cases others with
    | nil => exact ⟨pattern, value⟩
    | cons _ _ =>
      rw [List.getLast?_eq_some_getLast (List.cons_ne_nil _ _),
        List.getLast?_eq_some_getLast (List.cons_ne_nil _ _)] at last
      exact ⟨.some first, last⟩

section Expressions

variable (info : NodeInfo) {below below' : Siblings Forms}
  (paired : Paired view (Alike view) below below')

include paired

theorem keepParts_alike : Agree view.strict Eq (keepParts info below) (keepParts info below') :=
  (flatten_alike paired.parts []).bindEq fun _ => .pure rfl

omit paired in
/-- The operands of a binary expression, and then its operator. -/
theorem binaryParts_eq (below : Siblings Forms) : binaryParts below = (do
    let (lhs, rhs) ← operands below
    match (below.labelled? "operator").or (below.spoken.find? (!·.info.named)) with
    | some op => .ok (lhs, op.value.text, rhs)
    | none => .error (.noOperator false)) := by
  simp only [binaryParts, operands, outerOperands]
  cases below.labelled? "left" <;> cases below.labelled? "right" <;>
    cases below.spoken.head? <;> cases below.spoken.getLast? <;> rfl

theorem outerOperands_alike :
    Agree view.strict (fun x y => Alike view x.1 y.1 ∧ Alike view x.2 y.2)
      (outerOperands below) (outerOperands below') := by
  have first := rel_head? paired.spoken
  have last := rel_getLast? paired.spoken
  unfold outerOperands
  generalize below.spoken.head? = t?, below'.spoken.head? = u? at first
  generalize below.spoken.getLast? = v?, below'.spoken.getLast? = w? at last
  cases first with
  | none => exact .error _ _ fun _ => rfl
  | some isFirst =>
    cases last with
    | none => exact .error _ _ fun _ => rfl
    | some isLast => exact .ok _ _ ⟨isFirst, isLast⟩

theorem operands_alike :
    Agree view.strict (fun x y => Alike view x.1 y.1 ∧ Alike view x.2 y.2)
      (operands below) (operands below') := by
  have outer := outerOperands_alike paired
  have left := paired.labelled? "left"
  have right := paired.labelled? "right"
  unfold operands
  generalize below.labelled? "left" = t?, below'.labelled? "left" = u? at left
  generalize below.labelled? "right" = v?, below'.labelled? "right" = w? at right
  cases left with
  | none => exact outer
  | some isLeft =>
    cases right with
    | none => exact outer
    | some isRight => exact .ok _ _ ⟨isLeft, isRight⟩

theorem binaryParts_alike :
    Agree view.strict (fun x y => Alike view x.1 y.1 ∧ y.2.1 = x.2.1 ∧ Alike view x.2.2 y.2.2)
      (binaryParts below) (binaryParts below') := by
  have operator := rel_or (paired.labelled? "operator") fun _ =>
    rel_find? paired.spoken (!·.info.named) fun t u alike => congrArg _ alike.common.named
  rw [binaryParts_eq, binaryParts_eq]
  refine (operands_alike paired).bind ?_
  rintro ⟨l, r⟩ ⟨l', r'⟩ ⟨isLeft, isRight⟩
  dsimp only
  generalize (below.labelled? "operator").or (below.spoken.find? (!·.info.named)) = op?,
    (below'.labelled? "operator").or (below'.spoken.find? (!·.info.named)) = op?' at operator
  cases operator with
  | none => exact .error _ _ fun _ => rfl
  | some here => exact .ok _ _ ⟨isLeft, here.common.text, isRight⟩

/-- Two operands and their operator are put together alike. -/
theorem operation_alike (build : String → Expr → Expr → Expr) :
    Agree view.strict Eq
      (do
        let parts ← binaryParts below
        return build parts.2.1 (← parts.1.value.expr) (← parts.2.2.value.expr))
      (do
        let parts ← binaryParts below'
        return build parts.2.1 (← parts.1.value.expr) (← parts.2.2.value.expr)) := by
  refine (binaryParts_alike paired).bind ?_
  rintro ⟨l, op, r⟩ ⟨l', op', r'⟩ ⟨left, same, right⟩
  dsimp only at same ⊢
  rw [same]
  exact left.common.expr.bindEq fun lhs => right.common.expr.bindEq fun rhs => .pure rfl

theorem rangeOf_alike : Agree view.strict Eq (rangeOf info below) (rangeOf info below') :=
  (fold_alike paired.spoken {}).bindEq fun _ => .pure rfl

theorem castOf_alike
    (typed : ∀ u ∈ (below.labelled? "type").or below.lastPart?, view.typed u) :
    Agree view.strict Eq (castOf info below) (castOf info below') := by
  have value := rel_or (paired.labelled? "value") fun _ => paired.firstPart?
  have type := rel_or (paired.labelled? "type") fun _ => paired.lastPart?
  unfold castOf
  generalize (below.labelled? "value").or below.firstPart? = t?,
    (below'.labelled? "value").or below'.firstPart? = u? at value
  generalize (below.labelled? "type").or below.lastPart? = v?,
    (below'.labelled? "type").or below'.lastPart? = w? at type typed
  cases value with
  | none => exact .refl _
  | some isValue =>
    cases type with
    | none => exact .refl _
    | some isType =>
      dsimp only
      rw [isType.common.ty (typed _ rfl)]
      exact isValue.common.expr.bindEq fun e => .pure rfl

theorem callWith_alike (args : List Expr) :
    Agree view.strict Eq (callWith info below args) (callWith info below' args) := by
  have function := rel_or (paired.labelled? "function") fun _ => paired.firstPart?
  unfold callWith
  generalize (below.labelled? "function").or below.firstPart? = f?,
    (below'.labelled? "function").or below'.firstPart? = f?' at function
  cases function with
  | none => exact .refl _
  | @some func func' here =>
    have asFunction : Agree view.strict Eq
        (do return Expr.call (← func.value.expr) args info.span)
        (do return Expr.call (← func'.value.expr) args info.span) :=
      here.common.expr.bindEq fun e => .pure rfl
    dsimp only
    by_cases kind : func.kind = "field_expression"
    · rw [if_pos kind, if_pos ((here.kind_iff (by decide)).mpr kind)]
      have inside := here.nodes (view.kept_of_kind_eq kind (by decide))
      have receiver := rel_or (inside.labelled? "value") fun _ => inside.firstPart?
      have method := rel_or (inside.labelled? "field") fun _ => inside.lastPart?
      generalize (func.nodes.labelled? "value").or func.nodes.firstPart? = r?,
        (func'.nodes.labelled? "value").or func'.nodes.firstPart? = r?' at receiver
      generalize (func.nodes.labelled? "field").or func.nodes.lastPart? = m?,
        (func'.nodes.labelled? "field").or func'.nodes.lastPart? = m?' at method
      cases receiver with
      | none => exact asFunction
      | some isReceiver =>
        cases method with
        | none => exact asFunction
        | some isMethod =>
          dsimp only
          rw [isMethod.common.text]
          exact isReceiver.common.expr.bindEq fun e => .pure rfl
    · rw [if_neg kind, if_neg (mt (here.kind_iff (by decide)).mp kind)]
      exact asFunction

theorem callOf_alike (reserved : ∀ u ∈ below.labelled? "arguments", view.kept u) :
    Agree view.strict Eq (callOf info below) (callOf info below') := by
  have arguments := paired.place? "arguments" "arguments" (by decide) reserved
  rw [callOf_eq, callOf_eq]
  generalize (below.labelled? "arguments").or (below.ofKind? "arguments") = t?,
    (below'.labelled? "arguments").or (below'.ofKind? "arguments") = u? at arguments
  cases arguments with
  | none => exact Agree.bindEq (.refl _) (callWith_alike info paired)
  | some here => exact (argumentsOf_alike here.1 here.2).bindEq (callWith_alike info paired)

omit paired in
theorem letParts_eq (below : Siblings Forms) : letParts below =
    match below.labelled? "pattern", below.labelled? "value" with
    | some pattern, some value => (some pattern, some value)
    | pattern?, value? => outerParts (branchRest below) (pattern?, value?) := by
  simp only [letParts, outerParts]
  cases below.labelled? "pattern" <;> cases below.labelled? "value" <;>
    rcases branchRest below with _ | ⟨first, _ | ⟨second, more⟩⟩ <;> rfl

theorem letParts_alike :
    Option.Rel (Alike view) (letParts below).1 (letParts below').1 ∧
      Option.Rel (Alike view) (letParts below).2 (letParts below').2 := by
  have pattern := paired.labelled? "pattern"
  have value := paired.labelled? "value"
  rw [letParts_eq, letParts_eq]
  generalize below.labelled? "pattern" = p?, below'.labelled? "pattern" = p?' at pattern
  generalize below.labelled? "value" = v?, below'.labelled? "value" = v?' at value
  have outer := outerParts_alike paired.branchRest pattern value
  cases pattern with
  | none => exact outer
  | some isPattern =>
    cases value with
    | none => exact outer
    | some isValue => exact ⟨.some isPattern, .some isValue⟩

theorem ifOf_alike (body : ∀ u ∈ below.labelled? "consequence", view.kept u)
    (els : ∀ u ∈ below.labelled? "alternative", view.kept u) :
    Agree view.strict Eq (ifOf info below) (ifOf info below') := by
  have alternative := elseOf?_alike (paired.place? "alternative" "else_clause" (by decide) els)
  rcases rel_cases paired.condition? with
    ⟨noCond, noCond'⟩ | ⟨cond, cond', isCond, isCond', condAlike⟩
  · rw [ifOf_eq_keepParts info below (.inl noCond), ifOf_eq_keepParts info below' (.inl noCond')]
    exact keepParts_alike info paired
  rcases rel_cases (paired.place? "consequence" "block" (by decide) body) with
    ⟨noBody, noBody'⟩ | ⟨body, body', isBody, isBody', bodyAlike, kept⟩
  · rw [ifOf_eq_keepParts info below (.inr noBody), ifOf_eq_keepParts info below' (.inr noBody')]
    exact keepParts_alike info paired
  · rw [ifOf_eq info below cond body isCond isBody, ifOf_eq info below' cond' body' isCond' isBody']
    exact alternative.bindEq fun els => (condOf_alike condAlike).bindEq fun tested =>
      (bodyAlike.common.block kept).bindEq fun block => .pure rfl

theorem ifLetOf_alike (body : ∀ u ∈ below.labelled? "consequence", view.kept u)
    (els : ∀ u ∈ below.labelled? "alternative", view.kept u) :
    Agree view.strict Eq (ifLetOf info below) (ifLetOf info below') := by
  have alternative := elseOf?_alike (paired.place? "alternative" "else_clause" (by decide) els)
  have consequence := paired.place? "consequence" "block" (by decide) body
  obtain ⟨pattern, value⟩ := letParts_alike paired
  rw [ifLetOf_eq, ifLetOf_eq]
  generalize (letParts below).1 = p?, (letParts below').1 = p?' at pattern
  generalize (letParts below).2 = v?, (letParts below').2 = v?' at value
  generalize (below.labelled? "consequence").or (below.ofKind? "block") = b?,
    (below'.labelled? "consequence").or (below'.ofKind? "block") = b?' at consequence
  cases pattern with
  | none => exact .refl _
  | some isPattern =>
    cases value with
    | none => exact .refl _
    | some isValue =>
      cases consequence with
      | none => exact .refl _
      | some isBody =>
        dsimp only
        rw [isPattern.common.span]
        exact isValue.common.expr.bindEq fun scrutinee =>
          (isBody.1.common.block isBody.2).bindEq fun block =>
          alternative.bindEq fun els => .pure rfl

end Expressions

/-- What stands in the reserved places of an `if` keeps its kind. -/
theorem kept_of_ifFits {t : FormTree} (fits : Fits view t)
    (kind : t.kind = "if_expression" ∨ t.kind = "if_let_expression") :
    (∀ u ∈ t.nodes.labelled? "consequence", view.kept u) ∧
      ∀ u ∈ t.nodes.labelled? "alternative", view.kept u := by
  have reserved := fits.reserved
  simp only [Tree.reserved, if_pos kind, List.mem_append, Option.mem_toList] at reserved
  exact ⟨fun u found => reserved u (.inl found), fun u found => reserved u (.inr found)⟩

theorem exprOf_alike (t : FormTree) (fits : Fits view t) {below' : Siblings Forms}
    (paired : Paired view (Alike view) t.nodes below') {block block' : Except LowerError Block}
    (blocks : Agree view.strict Eq block block') :
    Agree view.strict Eq (exprOf block t.info t.nodes) (exprOf block' t.info below') := by
  unfold exprOf
  dsimp only
  refine .ite .rfl (fun kind => ?_) fun _ => ?_
  · obtain ⟨body, els⟩ := kept_of_ifFits fits (.inl kind)
    exact ifOf_alike t.info paired body els
  refine .ite .rfl (fun kind => ?_) fun _ => ?_
  · obtain ⟨body, els⟩ := kept_of_ifFits fits (.inr kind)
    exact ifLetOf_alike t.info paired body els
  refine .ite .rfl (fun _ => blocks.bindEq fun b => .pure rfl) fun _ => ?_
  refine .ite .rfl (fun _ => ?_) fun _ => ?_
  · exact operation_alike paired fun op lhs rhs => .binary op lhs rhs t.info.span
  refine .ite .rfl (fun _ => ?_) fun _ => ?_
  · exact operation_alike paired fun op lhs rhs => .assign op lhs rhs t.info.span
  refine .ite .rfl (fun kind => ?_) fun _ => ?_
  · have operator := option_map_eq (paired.head? (fits.operator kind)) (·.value.text)
      fun u _ v alike => alike.common.text
    rw [unaryOf, unaryOf, operator]
    exact aroundOf_alike t.info paired.lastPart? _
  refine .ite .rfl (fun _ => ?_) fun _ => ?_
  · rw [referenceOf, referenceOf, paired.hasKind "mutable_specifier" (by decide)]
    exact aroundOf_alike t.info (rel_or (paired.labelled? "value") fun _ => paired.lastPart?) _
  refine .ite .rfl (fun kind => ?_) fun _ => ?_
  · have types := fits.types
    have kind : t.kind = "type_cast_expression" := kind
    simp only [Tree.statedTypes, kind, String.reduceEq, if_true, if_false,
      Option.mem_toList] at types
    exact castOf_alike t.info paired types
  refine .ite .rfl (fun _ => rangeOf_alike t.info paired) fun _ => ?_
  refine .ite .rfl (fun _ => ?_) fun _ => ?_
  · exact aroundOf_alike t.info (rel_or (paired.labelled? "body") fun _ => paired.lastPart?) _
  refine .ite .rfl (fun _ => aroundOf_alike t.info paired.firstPart? _) fun _ => ?_
  refine .ite .rfl (fun kind => ?_) fun _ => ?_
  · have reserved := fits.reserved
    have kind : t.kind = "call_expression" := kind
    simp only [Tree.reserved, kind, String.reduceEq, or_self, if_true, if_false,
      Option.mem_toList] at reserved
    exact callOf_alike t.info paired reserved
  refine .ite .rfl (fun _ => .refl _) fun _ => ?_
  exact keepParts_alike t.info paired

end RustLint.Lowering
