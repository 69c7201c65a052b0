import RustLint.Proofs.Lowering.Likeness

set_option autoImplicit false

namespace RustLint.Lowering

variable {view : View}

/-! Around an item. -/

section Around

variable {below below' : Siblings Forms} (paired : Paired view (Alike view) below below')

include paired

theorem visOf_alike : visOf below' = visOf below := by
  have modifier := paired.ofKind? "visibility_modifier" (by decide)
  unfold visOf
  generalize below.ofKind? "visibility_modifier" = t?,
    below'.ofKind? "visibility_modifier" = u? at modifier
  cases modifier with
  | none => rfl
  | some here =>
    dsimp only
    rw [here.common.text]

theorem nameOf_alike (kind : String) (clear : kind ∉ unclear) :
    nameOf below' kind = nameOf below kind := by
  rw [nameOf, nameOf, textOrEmpty, textOrEmpty, option_map_eq
    (rel_or (paired.labelled? "name") fun _ => paired.ofKind? kind clear) (·.value.text)
    fun t _ u alike => alike.common.text]

omit paired in
theorem genericParamOf_alike {t u : FormTree} (alike : Alike view t u) :
    genericParamOf u = genericParamOf t := by
  by_cases loose : t.kind ∈ looseKinds
  · have nothing (v : FormTree) (kind : v.kind ∈ "if_let_expression" :: looseKinds) :
        genericParamOf v = none := by
      simp only [looseKinds, List.mem_cons, List.not_mem_nil, or_false] at kind
      rcases kind with kind | kind | kind <;> simp [genericParamOf, kind]
    have loose' := alike.ofKind (· ∈ "if_let_expression" :: looseKinds) (by decide)
    rw [nothing t (List.mem_cons_of_mem _ loose), nothing u (loose' ▸ List.mem_cons_of_mem _ loose)]
  · have kept := view.kept_of_kind t loose
    have kind := alike.kind_of_kept kept
    have inside := alike.nodes kept
    have name := option_map_eq (rel_or (rel_or (inside.labelled? "name") fun _ =>
      inside.labelled? "left") fun _ => inside.ofKind? "type_identifier" (by decide))
      (·.value.text) fun t _ u alike => alike.common.text
    have constant := option_map_eq (inside.ofKind? "identifier" (by decide)) (·.value.text)
      fun t _ u alike => alike.common.text
    simp only [genericParamOf, textOrEmpty, kind, alike.common.text, name, constant]

theorem genericsOf_alike : genericsOf below' = genericsOf below := by
  have list := paired.ofKind? "type_parameters" (by decide)
  have isKind := Siblings.kind_of_ofKind? below "type_parameters"
  unfold genericsOf
  generalize below.ofKind? "type_parameters" = t?, below'.ofKind? "type_parameters" = u?
    at list isKind
  cases list with
  | none => rfl
  | some here =>
    have inside := here.nodes (view.kept_of_kind_eq (isKind _ rfl) (by decide))
    dsimp only
    rw [here.common.text, filterMap_eq inside.parts genericParamOf
      fun t _ u alike => genericParamOf_alike alike]

omit paired in
theorem derivesOf_alike {ts us : List FormTree} (all : List.Forall₂ (Alike view) ts us) :
    derivesOf us = derivesOf ts := by
  have texts (l : List FormTree) : derivesOf l =
      (l.map (·.value.text)).flatMap fun text => ((deriveList? text).map deriveNames).getD [] := by
    rw [derivesOf, List.flatMap_map]
  rw [texts, texts, map_eq all (·.value.text) fun t _ u alike => alike.common.text]

/-- The types beside the names and attributes of a field. -/
theorem fieldType_alike :
    Option.Rel (Alike view)
      ((below.labelled? "type").or
        (below.parts.filter fun t => !(besideFieldType.contains t.kind)).getLast?)
      ((below'.labelled? "type").or
        (below'.parts.filter fun t => !(besideFieldType.contains t.kind)).getLast?) :=
  rel_or (paired.labelled? "type") fun _ => rel_getLast?
    (rel_filter paired.parts (fun kind => !(besideFieldType.contains kind)) (by decide))

omit paired in
theorem namedFieldsOf_alike {body body' : FormTree} (alike : Alike view body body')
    (kept : view.kept body) (typed : ∀ u ∈ body.nodes.namedFieldTypes, view.typed u) :
    namedFieldsOf body' = namedFieldsOf body := by
  refine filterMap_eq (alike.nodes kept).parts _ ?_
  intro decl listed decl' here
  dsimp only
  by_cases isField : decl.kind = "field_declaration"
  · have declKept := view.kept_of_kind_eq isField (by decide)
    have inside := here.nodes declKept
    have name := option_map_eq (inside.ofKind? "field_identifier" (by decide)) (·.value.text)
      fun t _ u alike => alike.common.text
    have type := option_map_eq (fieldType_alike inside)
      (fun ty => FieldDef.mk ((decl.nodes.ofKind? "field_identifier").map (·.value.text))
        ty.value.ty decl.span) ?_
    · simp only [here.kind_of_kept declKept, name, here.common.span]
      rw [type]
    · intro t found u alike
      have isType : t ∈ body.nodes.namedFieldTypes := by
        refine List.mem_filterMap.mpr ⟨decl, listed, ?_⟩
        rw [if_neg (by simpa using isField)]
        exact found
      rw [alike.common.ty (typed t isType)]
  · have other : decl'.kind ≠ "field_declaration" := mt (here.kind_iff (by decide)).mp isField
    simp [isField, other]

omit paired in
theorem tupleFieldsOf_alike {body body' : FormTree} (alike : Alike view body body')
    (kept : view.kept body) (typed : ∀ u ∈ body.nodes.tupleFieldTypes, view.typed u) :
    tupleFieldsOf body' = tupleFieldsOf body := by
  have fields := rel_filter (alike.nodes kept).parts
    (fun kind => kind != "visibility_modifier" && kind != "attribute_item") (by decide)
  refine map_eq fields _ ?_
  intro t listed u alike
  rw [alike.common.ty (typed t listed), alike.common.span]

theorem structFormOf_alike (typed : ∀ u ∈ below.structFieldTypes, view.typed u) :
    structFormOf below' = structFormOf below := by
  have named := paired.ofKind? "field_declaration_list" (by decide)
  have tuple := paired.ofKind? "ordered_field_declaration_list" (by decide)
  have isNamed := Siblings.kind_of_ofKind? below "field_declaration_list"
  have isTuple := Siblings.kind_of_ofKind? below "ordered_field_declaration_list"
  unfold structFormOf
  unfold Siblings.structFieldTypes at typed
  generalize below.ofKind? "field_declaration_list" = n?,
    below'.ofKind? "field_declaration_list" = n?' at named isNamed typed
  generalize below.ofKind? "ordered_field_declaration_list" = t?,
    below'.ofKind? "ordered_field_declaration_list" = t?' at tuple isTuple typed
  cases named with
  | some here =>
    have kept := view.kept_of_kind_eq (isNamed _ rfl) (by decide)
    dsimp only
    rw [namedFieldsOf_alike here kept typed]
  | none =>
    cases tuple with
    | none => rfl
    | some here =>
      have kept := view.kept_of_kind_eq (isTuple _ rfl) (by decide)
      dsimp only
      rw [tupleFieldsOf_alike here kept typed]

theorem unionFormOf_alike (typed : ∀ u ∈ below.unionFieldTypes, view.typed u) :
    unionFormOf below' = unionFormOf below := by
  have named := paired.ofKind? "field_declaration_list" (by decide)
  have isNamed := Siblings.kind_of_ofKind? below "field_declaration_list"
  unfold unionFormOf
  unfold Siblings.unionFieldTypes at typed
  generalize below.ofKind? "field_declaration_list" = n?,
    below'.ofKind? "field_declaration_list" = n?' at named isNamed typed
  cases named with
  | none => rfl
  | some here =>
    have kept := view.kept_of_kind_eq (isNamed _ rfl) (by decide)
    rw [Option.elim_some, Option.elim_some, namedFieldsOf_alike here kept typed]

/-- The parts of a list that is found by its kind. -/
theorem listParts_alike (kind : String) (clear : kind ∉ unclear) :
    List.Forall₂ (Alike view) ((below.ofKind? kind).elim [] fun list => list.nodes.parts)
      ((below'.ofKind? kind).elim [] fun list => list.nodes.parts) := by
  have list := paired.ofKind? kind clear
  have isKind := Siblings.kind_of_ofKind? below kind
  generalize below.ofKind? kind = t?, below'.ofKind? kind = u? at list isKind
  cases list with
  | none => exact .nil
  | some here =>
    exact (here.nodes (view.kept_of_kind_eq (isKind _ rfl) clear)).parts

theorem isConst_alike :
    ((below'.ofKind? "function_modifiers").any fun list => list.nodes.hasKind "const") =
      (below.ofKind? "function_modifiers").any fun list => list.nodes.hasKind "const" := by
  have list := paired.ofKind? "function_modifiers" (by decide)
  have isKind := Siblings.kind_of_ofKind? below "function_modifiers"
  generalize below.ofKind? "function_modifiers" = t?, below'.ofKind? "function_modifiers" = u?
    at list isKind
  cases list with
  | none => rfl
  | some here =>
    exact (here.nodes (view.kept_of_kind_eq (isKind _ rfl) (by decide))).hasKind "const" (by decide)

omit paired in
/-- Only the kinds of parameters are looked at. -/
theorem params_alike {ts us : List FormTree} (all : List.Forall₂ (Alike view) ts us)
    (p : String → Bool) (same : p "if_let_expression" = p "if_expression") :
    us.countP (p ·.kind) = ts.countP (p ·.kind) ∧ us.any (p ·.kind) = ts.any (p ·.kind) := by
  have kinds := map_eq all (p ·.kind) fun t _ u alike => alike.ofKind p same
  have count (l : List FormTree) : l.countP (p ·.kind) = (l.map (p ·.kind)).countP id := by
    rw [List.countP_map, Function.id_comp]
  have some? (l : List FormTree) : l.any (p ·.kind) = (l.map (p ·.kind)).any id := by
    rw [List.any_map, Function.id_comp]
  exact ⟨by rw [count, count, kinds], by rw [some?, some?, kinds]⟩

theorem sigOf_alike
    (result : below.labelled? "return_type" = none →
      ∀ u ∈ below.rightAfter? "->", ¬view.dropped u)
    (typed : ∀ u ∈ below.resultType?, view.typed u) : sigOf below' = sigOf below := by
  have params := listParts_alike paired "parameters" (by decide)
  have count := (params_alike params ["parameter", "variadic_parameter"].contains (by decide)).1
  have hasSelf := (params_alike params (· == "self_parameter") (by decide)).2
  have ret := option_map_eq (rel_or (paired.labelled? "return_type") fun unlabelled =>
    paired.rightAfter? "->" (by decide) (result unlabelled)) (·.value.ty)
    fun t found u alike => alike.common.ty (typed t found)
  simp only [sigOf, nameOf_alike paired "identifier" (by decide), genericsOf_alike paired,
    isConst_alike paired, count, hasSelf, ret]

omit paired in
theorem implTypes_eq (below : Siblings Forms) : below.implTypes = implTypes below := by
  simp only [Siblings.implTypes, implTypes]
  cases below.labelled? "type" with
  | some selfTy => rfl
  | none =>
    generalize (below.parts.filter fun t => !(besideImplTypes.contains t.kind)) = types
    rcases types with _ | ⟨trait, _ | ⟨selfTy, more⟩⟩
    · rfl
    · rfl
    · cases below.hasKind "for" <;> rfl

theorem implTypes_alike :
    Option.Rel (Alike view) (implTypes below).1 (implTypes below').1 ∧
      Option.Rel (Alike view) (implTypes below).2 (implTypes below').2 := by
  have trait := paired.labelled? "trait"
  have selfTy := paired.labelled? "type"
  have types := rel_filter paired.parts (fun kind => !(besideImplTypes.contains kind)) (by decide)
  unfold implTypes
  dsimp only
  rw [paired.hasKind "for" (by decide)]
  generalize below.labelled? "type" = s?, below'.labelled? "type" = s?' at selfTy
  generalize (below.parts.filter fun t => !(besideImplTypes.contains t.kind)) = ts,
    (below'.parts.filter fun t => !(besideImplTypes.contains t.kind)) = us at types
  cases selfTy with
  | some here => exact ⟨trait, .some here⟩
  | none =>
    cases types with
    | nil => exact ⟨trait, .none⟩
    | cons first others =>
      cases others with
      | nil => exact ⟨trait, .some first⟩
      | cons second _ =>
        cases below.hasKind "for" with
        | true => exact ⟨.some first, .some second⟩
        | false => exact ⟨trait, .some first⟩

end Around

/-! Items. -/

/-- Items and macro invocations are listed in the body of an `impl` and in a module. -/
def isListed (kind : String) : Bool := isItemKind kind || decide (kind = "macro_invocation")

section Items

variable {t u : FormTree} (alike : Alike view t u) (kept : view.kept t) (exported : Bool)

include alike kept

theorem typeDefOf_alike (form : TypeForm) {attributes attributes' : List FormTree}
    (all : List.Forall₂ (Alike view) attributes attributes') :
    typeDefOf u form attributes' exported = typeDefOf t form attributes exported := by
  have paired := alike.nodes kept
  simp only [typeDefOf, nameOf_alike paired "type_identifier" (by decide), genericsOf_alike paired,
    derivesOf_alike all, visOf_alike paired, alike.common.span]

theorem fnOf_alike (kind : t.kind = "function_item") :
    Agree view.strict Eq (fnOf t exported) (fnOf u exported) := by
  have paired := alike.nodes kept
  have types := alike.common.fits.types
  simp only [Tree.statedTypes, kind, String.reduceEq, if_true, if_false,
    Option.mem_toList] at types
  have body := paired.ofKind? "block" (by decide)
  have isKind := Siblings.kind_of_ofKind? t.nodes "block"
  simp only [fnOf, sigOf_alike paired (alike.common.fits.result kind) types, visOf_alike paired,
    alike.common.span]
  generalize t.nodes.ofKind? "block" = t?, u.nodes.ofKind? "block" = u? at body isKind
  cases body with
  | none => exact .refl _
  | some here =>
    have block := here.common.block (view.kept_of_kind_eq (isKind _ rfl) (by decide))
    exact (block.map some).bindEq fun body => .pure rfl

theorem modOf_alike : Agree view.strict Eq (modOf t exported) (modOf u exported) := by
  have paired := alike.nodes kept
  have list := paired.ofKind? "declaration_list" (by decide)
  have isKind := Siblings.kind_of_ofKind? t.nodes "declaration_list"
  simp only [modOf, nameOf_alike paired "identifier" (by decide), visOf_alike paired,
    alike.common.span]
  generalize t.nodes.ofKind? "declaration_list" = t?, u.nodes.ofKind? "declaration_list" = u?
    at list isKind
  cases list with
  | none => exact .refl _
  | some here =>
    have kept := view.kept_of_kind_eq (isKind _ rfl) (by decide)
    exact (here.common.items kept _).bindEq fun items => .pure rfl

omit alike kept in
theorem implItemsOf_alike {ts us : List FormTree} (all : List.Forall₂ (Alike view) ts us) :
    Agree view.strict Eq (implItemsOf exported ts) (implItemsOf exported us) := by
  induction all with
  | nil => exact .refl _
  | @cons t u _ _ here _ ih =>
    rw [implItemsOf, implItemsOf]
    refine .ite (here.kind_iff (by decide)) (fun kind => ?_) fun _ => ?_
    · have kept := view.kept_of_kind_eq kind (by decide)
      exact (fnOf_alike here kept exported kind).bindEq fun f => ih.bindEq fun rest => .pure rfl
    refine .ite (here.pass_iff isListed (by decide)) (fun kind => ?_) fun _ => ih
    rw [here.kind_of_pass isListed kind (by decide), here.common.span]
    exact ih.bindEq fun rest => .pure rfl

theorem implOf_alike (kind : t.kind = "impl_item") :
    Agree view.strict Eq (implOf t exported) (implOf u exported) := by
  have paired := alike.nodes kept
  have typed := alike.common.fits.types
  simp only [Tree.statedTypes, kind, String.reduceEq, if_true, if_false, List.mem_append,
    Option.mem_toList, implTypes_eq] at typed
  obtain ⟨trait, selfTy⟩ := implTypes_alike paired
  have traitType := option_map_eq trait (·.value.ty)
    fun v found w alike => alike.common.ty (typed v (.inl found))
  have selfTyped : ∀ v ∈ (implTypes t.nodes).2, view.typed v := fun v found => typed v (.inr found)
  have body := implItemsOf_alike exported (listParts_alike paired "declaration_list" (by decide))
  simp only [implOf, traitType, genericsOf_alike paired, alike.common.span]
  generalize (implTypes t.nodes).2 = t?, (implTypes u.nodes).2 = u? at selfTy selfTyped
  cases selfTy with
  | none => exact .refl _
  | some here =>
    dsimp only
    rw [here.common.ty (selfTyped _ rfl)]
    exact body.bindEq fun items => .pure rfl

theorem itemOf_alike {attributes attributes' : List FormTree}
    (all : List.Forall₂ (Alike view) attributes attributes') :
    Agree view.strict Eq (itemOf t attributes exported) (itemOf u attributes' exported) := by
  have paired := alike.nodes kept
  have types := alike.common.fits.types
  unfold itemOf
  dsimp only
  rw [alike.kind_of_kept kept]
  refine .ite .rfl (fun isStruct => ?_) fun _ => ?_
  · simp only [Tree.statedTypes, if_pos isStruct] at types
    rw [structFormOf_alike paired types, typeDefOf_alike alike kept exported _ all]
    exact .refl _
  refine .ite .rfl (fun _ => ?_) fun _ => ?_
  · rw [typeDefOf_alike alike kept exported _ all]
    exact .refl _
  refine .ite .rfl (fun isUnion => ?_) fun _ => ?_
  · simp only [Tree.statedTypes, isUnion, String.reduceEq, if_true, if_false] at types
    rw [unionFormOf_alike paired types, typeDefOf_alike alike kept exported _ all]
    exact .refl _
  refine .ite .rfl (fun _ => ?_) fun _ => ?_
  · rw [nameOf_alike paired "type_identifier" (by decide), visOf_alike paired, alike.common.span]
    exact .refl _
  refine .ite .rfl (fun isImpl => (implOf_alike alike kept exported isImpl).map _) fun _ => ?_
  refine .ite .rfl (fun isFn => (fnOf_alike alike kept exported isFn).map _) fun _ => ?_
  refine .ite .rfl (fun _ => (modOf_alike alike kept exported).map _) fun _ => ?_
  rw [alike.common.span]
  exact .refl _

omit alike kept in
theorem itemOf_invocation (t : FormTree) (attributes : List FormTree) (exported : Bool)
    (kind : t.kind = "macro_invocation") :
    itemOf t attributes exported = .ok (.other "macro_invocation" t.span) := by
  simp [itemOf, kind]

end Items

/-- The attributes in front of an item are read alike too. -/
theorem itemsOf_alike (exported : Bool) {ts us attributes attributes' : List FormTree}
    (all : List.Forall₂ (Alike view) ts us)
    (front : List.Forall₂ (Alike view) attributes attributes') :
    Agree view.strict Eq (itemsOf exported attributes ts) (itemsOf exported attributes' us) := by
  induction all generalizing attributes attributes' with
  | nil => exact .refl _
  | @cons t u _ _ here _ ih =>
    rw [itemsOf, itemsOf]
    refine .ite (here.kind_iff (by decide)) (fun _ => ?_) fun _ => ?_
    · exact ih (List.rel_append front (.cons here .nil))
    refine .ite (here.pass_iff isListed (by decide)) (fun kind => ?_) fun _ => ih .nil
    have item : Agree view.strict Eq (itemOf t attributes exported)
        (itemOf u attributes' exported) := by
      rcases Bool.or_eq_true_iff.mp kind with isItem | isMacro
      · exact itemOf_alike here (view.kept_of_pass isItemKind isItem (by decide)) exported front
      · have isMacro := of_decide_eq_true isMacro
        have same := here.kind_of_pass isListed kind (by decide)
        rw [itemOf_invocation t _ _ isMacro, itemOf_invocation u _ _ (same.trans isMacro), here.common.span]
        exact .refl _
    exact item.bindEq fun item => (ih .nil).bindEq fun rest => .pure rfl

end RustLint.Lowering
