import Mathlib.Tactic.Choose
import RustLint.Proofs.Lowering.Congruence

set_option autoImplicit false

namespace RustLint

/-- The labels that stand inside the condition in the newer grammar. -/
def conditionLabels : List String := ["pattern", "value"]

/-- The labels that stand beside the condition. -/
def branchLabels : List String := ["consequence", "alternative"]

namespace Tree

variable {α β : Type}

/-- The condition of an `if` with a pattern, as the newer grammar writes it. -/
def letCondition? (t : Tree α) : Option (Tree α) :=
  if t.kind = "if_expression" then
    (t.nodes.labelled? "condition").filter (·.kind == "let_condition")
  else none

/-- The node is an `if` with a pattern, as the newer grammar writes it. -/
abbrev IsIfLet (t : Tree α) : Prop := t.letCondition?.isSome = true

theorem letCondition?_eq_some_iff (t cond : Tree α) : t.letCondition? = some cond ↔
    t.kind = "if_expression" ∧ t.nodes.labelled? "condition" = some cond ∧
      cond.kind = "let_condition" := by
  unfold letCondition?
  split
  · next kind => simp [kind, Option.filter_eq_some_iff]
  · next other => simp [other]

theorem letCondition?_annotate (f : NodeInfo → List (Tree β) → β) (t : Tree α) :
    (annotate f t).letCondition? = t.letCondition?.map (annotate f) := by
  simp only [letCondition?, kind_annotate, nodes, children_annotate,
    Siblings.labelled?_map (info_annotate f)]
  split
  · rw [Option.filter_map]
    simp only [Function.comp_def, kind_annotate]
  · rfl

theorem isIfLet_annotate (f : NodeInfo → List (Tree β) → β) (t : Tree α) :
    (annotate f t).IsIfLet ↔ t.IsIfLet := by
  rw [IsIfLet, letCondition?_annotate, Option.isSome_map]

/-- The second node is lowered as a type when the first is. -/
abbrev HoldsType (t u : Tree α) : Prop := Relation.ReflTransGen (fun t u => u ∈ t.typeParts) t u

/-- The parts of an `if` and of a `let` in its condition are labelled, and no `if` is a type. -/
structure LabelsIfs (t : Tree α) : Prop where
  parts : t.kind = "if_expression" → ∀ label ∈ ["condition", "consequence"],
    (t.nodes.labelled? label).isSome = true
  alternative : t.kind = "if_expression" → t.nodes.hasKind "else_clause" = true →
    (t.nodes.labelled? "alternative").isSome = true
  binding : t.kind = "let_condition" → ∀ label ∈ conditionLabels,
    ∃ u ∈ t.nodes.labelled? label, u.kind ≠ "else_clause"
  types : ∀ u ∈ t.statedTypes, ∀ v, u.HoldsType v → v.kind ≠ "if_expression"

end Tree

/-- The second tree is the first with every `if` with a pattern in the shape of the older grammar:
a node of its own over the same bytes, with the labelled parts and any children without a label. -/
inductive Older : ParseTree → ParseTree → Prop
  | same (t : ParseTree) (below : List ParseTree) (other : ¬t.IsIfLet)
      (children : List.Forall₂ Older t.children below) : Older t ⟨t.info, t.value, below⟩
  | ifLet (t cond u : ParseTree) (condition : t.letCondition? = some cond)
      (info : u.info = { t.info with kind := "if_let_expression" })
      (inside : ∀ label ∈ conditionLabels,
        Option.Rel Older (cond.nodes.labelled? label) (u.nodes.labelled? label))
      (beside : ∀ label ∈ branchLabels,
        Option.Rel Older (t.nodes.labelled? label) (u.nodes.labelled? label))
      (rest : ∀ child ∈ u.children,
        (∃ label ∈ conditionLabels ++ branchLabels, u.nodes.labelled? label = some child) ∨
        child.info.label = none ∧ child.kind ≠ "else_clause") : Older t u

namespace Older

/-- Nothing but the kind of an `if` changes. -/
theorem info {t u : ParseTree} (older : Older t u) :
    u.info = t.info ∨ u.info = { t.info with kind := "if_let_expression" } := by
  cases older with
  | same => exact .inl rfl
  | ifLet _ _ _ _ info => exact .inr info

theorem label {t u : ParseTree} (older : Older t u) : u.info.label = t.info.label := by
  rcases older.info with same | same
  · rw [same]
  · rw [same]

/-- What is rewritten is no else clause unless it was one. -/
theorem kind_ne {t u : ParseTree} (older : Older t u) (other : t.kind ≠ "else_clause") :
    u.kind ≠ "else_clause" := by
  rcases older.info with same | same
  · rwa [Tree.kind, same]
  · rw [Tree.kind, same]
    exact (by decide : "if_let_expression" ≠ "else_clause")

theorem inside (info : NodeInfo) (children below : List ParseTree)
    (other : info.kind ≠ "if_expression") (all : List.Forall₂ Older children below) :
    Older ⟨info, (), children⟩ ⟨info, (), below⟩ :=
  .same ⟨info, (), children⟩ below (by simp [Tree.letCondition?, Tree.kind, other]) all

/-- A tree without such an `if` has the shape of the older grammar already. -/
theorem refl (t : ParseTree) (none : ∀ u, t.Holds u → ¬u.IsIfLet) : Older t t := by
  induction t using Tree.inductionOnChildren with
  | step t ih =>
    have children : List.Forall₂ Older t.children t.children := by
      refine List.forall₂_same.mpr fun child isChild => ?_
      exact ih child isChild fun u holds => none u (.head isChild holds)
    obtain ⟨info, value, below⟩ := t
    exact .same _ below (none _ .refl) children

/-! Every tree can be brought into the shape of the older grammar. -/

theorem exists_forall₂ (ts : List ParseTree) (each : ∀ t ∈ ts, ∃ u, Older t u) :
    ∃ us, List.Forall₂ Older ts us := by
  induction ts with
  | nil => exact ⟨[], .nil⟩
  | cons t ts ih =>
    obtain ⟨u, here⟩ := each t List.mem_cons_self
    obtain ⟨us, later⟩ := ih fun v listed => each v (List.mem_cons_of_mem _ listed)
    exact ⟨u :: us, .cons here later⟩

/-- What stands under a label is rewritten to something under the same label. -/
theorem exists_rel (ts : Siblings Unit) (label : String) (each : ∀ t ∈ ts, ∃ u, Older t u) :
    ∃ u?, Option.Rel Older (ts.labelled? label) u? ∧ ∀ u ∈ u?, u.info.label = some label := by
  cases found : ts.labelled? label with
  | none => exact ⟨none, .none, nofun⟩
  | some t =>
    obtain ⟨u, older⟩ := each t (Siblings.mem_of_labelled? ts label t found)
    refine ⟨some u, .some older, fun v isHere => ?_⟩
    obtain rfl := Option.some.inj isHere
    rw [older.label]
    simpa using List.find?_some found

/-- Among children that are listed by their labels each is found under its own. -/
theorem labelled?_flatMap (part? : String → Option ParseTree)
    (labelled : ∀ label, ∀ t ∈ part? label, t.info.label = some label) (labels : List String)
    (wanted : String) :
    Siblings.labelled? (labels.flatMap fun label => (part? label).toList) wanted =
      if wanted ∈ labels then part? wanted else none := by
  induction labels with
  | nil => rfl
  | cons label labels ih =>
    have front : Siblings.labelled? (part? label).toList wanted =
        if label = wanted then part? label else none := by
      cases found : part? label with
      | none => simp [Siblings.labelled?]
      | some t => simp [Siblings.labelled?, labelled label t found]
    rw [Siblings.labelled?, List.flatMap_cons, List.find?_append]
    rw [Siblings.labelled?] at front ih
    rw [front, ih]
    by_cases here : label = wanted
    · subst here
      cases part? label <;> simp
    · simp [here, Ne.symm here]

/-- The labelled parts of a rewritten `if`: some from its condition, some from beside it. -/
theorem exists_parts (ts us : Siblings Unit) (inside : ∀ t ∈ ts, ∃ u, Older t u)
    (beside : ∀ t ∈ us, ∃ u, Older t u) : ∃ part? : String → Option ParseTree,
      (∀ label ∈ conditionLabels, Option.Rel Older (ts.labelled? label) (part? label)) ∧
      (∀ label ∈ branchLabels, Option.Rel Older (us.labelled? label) (part? label)) ∧
      ∀ label, ∀ u ∈ part? label, u.info.label = some label := by
  choose inner innerRel innerLabel using fun label => exists_rel ts label inside
  choose outer outerRel outerLabel using fun label => exists_rel us label beside
  refine ⟨fun label => if label ∈ conditionLabels then inner label else outer label,
    fun label isInner => ?_, fun label isOuter => ?_, fun label u isPart => ?_⟩
  · dsimp only
    rw [if_pos isInner]
    exact innerRel label
  · have apart : ∀ label ∈ branchLabels, label ∉ conditionLabels := by decide
    dsimp only
    rw [if_neg (apart label isOuter)]
    exact outerRel label
  · dsimp only at isPart
    split at isPart
    · exact innerLabel label u isPart
    · exact outerLabel label u isPart

theorem exists_older (t : ParseTree) : ∃ u, Older t u := by
  induction t using Tree.inductionOnHeld with
  | step t ih =>
    have child (u : ParseTree) (isChild : u ∈ t.children) : ∃ v, Older u v :=
      ih u isChild u .refl
    cases condition : t.letCondition? with
    | none =>
      obtain ⟨below, children⟩ := exists_forall₂ t.children child
      exact ⟨_, .same t below (by simp [condition]) children⟩
    | some cond =>
      have isCond := (Tree.letCondition?_eq_some_iff t cond).mp condition
      have isChild := Siblings.mem_of_labelled? t.nodes "condition" cond isCond.2.1
      obtain ⟨part?, inner, outer, labelled⟩ := exists_parts cond.nodes t.nodes
        (fun u below => ih cond isChild u (.child below)) child
      have found := labelled?_flatMap part? labelled (conditionLabels ++ branchLabels)
      let below := (conditionLabels ++ branchLabels).flatMap fun label => (part? label).toList
      refine ⟨⟨{ t.info with kind := "if_let_expression" }, (), below⟩,
        .ifLet t cond _ condition rfl ?_ ?_ ?_⟩
      · intro label isInner
        rw [Tree.nodes, Tree.nodes, found, if_pos (List.mem_append_left _ isInner)]
        exact inner label isInner
      · intro label isOuter
        rw [Tree.nodes, Tree.nodes, found, if_pos (List.mem_append_right _ isOuter)]
        exact outer label isOuter
      · intro u listed
        obtain ⟨label, isLabel, isPart⟩ := List.mem_flatMap.mp listed
        refine .inl ⟨label, isLabel, ?_⟩
        rw [Tree.nodes, found, if_pos isLabel]
        exact Option.mem_toList.mp isPart

end Older

namespace Lowering

/-- An `if` with a pattern may be written either way, and of two errors any may be reported. -/
def reshaped : View where
  strict := false
  dropped := fun _ => False
  kept := fun t => ¬t.IsIfLet
  typed := fun t => ∀ u, t.HoldsType u → u.kind ≠ "if_expression"
  kept_of_kind := by
    intro t notLoose isIfLet
    obtain ⟨cond, condition⟩ := Option.isSome_iff_exists.mp isIfLet
    have kind := ((Tree.letCondition?_eq_some_iff t cond).mp condition).1
    exact notLoose (by rw [kind]; decide)
  typed_of_mem_typeParts := fun _ typed _ part v holds => typed v (.head part holds)

/-- Nodes that are types in the tree of forms are types in the tree. -/
theorem holdsType_forms (source : Source) (t : ParseTree) (v : FormTree)
    (holds : (forms source t).HoldsType v) : ∃ u, t.HoldsType u ∧ v = forms source u := by
  induction holds with
  | refl => exact ⟨t, .refl, rfl⟩
  | tail _ part ih =>
    obtain ⟨u, inside, rfl⟩ := ih
    rw [forms, Tree.typeParts_annotate] at part
    obtain ⟨w, isPart, rfl⟩ := List.mem_map.mp part
    exact ⟨w, inside.tail isPart, rfl⟩

theorem fits_of_labelsIfs (source : Source) (t : ParseTree) (labels : t.LabelsIfs)
    (placed : ∀ u ∈ t.reserved, ¬u.IsIfLet) : Fits reshaped (forms source t) := by
  refine fits_forms source t (fun _ _ _ => id) (fun _ _ _ _ => id) ?_ ?_
  · intro u isReserved isIfLet
    exact placed u isReserved ((Tree.isIfLet_annotate _ u).mp isIfLet)
  · intro u isType v holds
    obtain ⟨w, inside, rfl⟩ := holdsType_forms source u v holds
    rw [forms, Tree.kind_annotate]
    exact labels.types u isType w inside

/-- The rewritten children are paired with the children. -/
theorem paired_of_older (source : Source) {ts us : List ParseTree}
    (all : List.Forall₂ Older ts us)
    (alike : ∀ t ∈ ts, ∀ u, Older t u → Alike reshaped (forms source t) (forms source u)) :
    Paired reshaped (Alike reshaped) (ts.map (forms source)) (us.map (forms source)) := by
  induction all with
  | nil => exact .nil
  | @cons t u ts us here _ ih =>
    refine .cons _ _ _ _ (alike t List.mem_cons_self u here) ?_
    exact ih fun v later => alike v (List.mem_cons_of_mem _ later)

/-- An `if` with a labelled pattern in its condition, its parts in the order they are lowered in. -/
theorem ifOf_letCondition (info : NodeInfo) {below : Siblings Forms}
    {cond pattern value body : FormTree} (condition : below.labelled? "condition" = some cond)
    (isLet : cond.kind = "let_condition")
    (isPattern : cond.nodes.labelled? "pattern" = some pattern)
    (isValue : cond.nodes.labelled? "value" = some value)
    (isBody : below.labelled? "consequence" = some body) :
    ifOf info below = (do
      let els ← elseOf? ((below.labelled? "alternative").or (below.ofKind? "else_clause"))
      let scrutinee ← value.value.expr
      let block ← body.value.block
      return .branch ⟨.binds pattern.span scrutinee, block, els, info.span⟩) := by
  have first : condition? below = some cond := by rw [condition?, condition, Option.some_or]
  have then? : (below.labelled? "consequence").or (below.ofKind? "block") = some body := by
    rw [isBody, Option.some_or]
  rw [ifOf_eq info below cond body first then?]
  simp only [condOf, if_pos isLet, isValue, isPattern, Option.some_or, Option.map_some,
    Option.getD_some, bind_assoc, pure_bind]

/-- The same in the older grammar, where the else clause is lowered last. -/
theorem ifLetOf_labelled (info : NodeInfo) {below : Siblings Forms} {pattern value body : FormTree}
    (isPattern : below.labelled? "pattern" = some pattern)
    (isValue : below.labelled? "value" = some value)
    (isBody : below.labelled? "consequence" = some body) :
    ifLetOf info below = (do
      let scrutinee ← value.value.expr
      let block ← body.value.block
      let els ← elseOf? ((below.labelled? "alternative").or (below.ofKind? "else_clause"))
      return .branch ⟨.binds pattern.span scrutinee, block, els, info.span⟩) := by
  rw [ifLetOf_eq, letParts_eq, isPattern, isValue, isBody, Option.some_or]

/-- The order in which the parts of a branch are lowered decides which error is reported, and
nothing else. -/
theorem branch_agree {els els' : Except LowerError (Option Else)}
    {scrutinee scrutinee' : Except LowerError Expr} {block block' : Except LowerError Block}
    (elsAgree : Agree false Eq els els') (scrutineeAgree : Agree false Eq scrutinee scrutinee')
    (blockAgree : Agree false Eq block block') (build : Option Else → Expr → Block → Expr) :
    Agree false Eq
      (do
        let e ← els
        let s ← scrutinee
        let b ← block
        return build e s b)
      (do
        let s ← scrutinee'
        let b ← block'
        let e ← els'
        return build e s b) := by
  refine .of_ok_iff fun result => ?_
  simp only [bind_eq_ok, pure_eq_ok, elsAgree.ok_iff, scrutineeAgree.ok_iff, blockAgree.ok_iff]
  constructor
  · rintro ⟨e, isElse, s, isScrutinee, b, isBlock, same⟩
    exact ⟨s, isScrutinee, b, isBlock, e, isElse, same⟩
  · rintro ⟨s, isScrutinee, b, isBlock, e, isElse, same⟩
    exact ⟨e, isElse, s, isScrutinee, b, isBlock, same⟩

/-- What stands under a label stands there in the rewritten tree too. -/
theorem exists_labelled {ts us : Siblings Unit} {label : String} {t : ParseTree}
    (rel : Option.Rel Older (ts.labelled? label) (us.labelled? label))
    (found : ts.labelled? label = some t) : ∃ u, us.labelled? label = some u ∧ Older t u := by
  rw [found] at rel
  rcases rel_cases rel with ⟨missing, -⟩ | ⟨_, u, same, isHere, here⟩
  · cases missing
  · cases same
    exact ⟨u, isHere, here⟩

/-! An `if` with a pattern and its counterpart. -/

section IfLet

variable {source : Source} {t cond u : ParseTree} (condition : t.letCondition? = some cond)
  (inside : ∀ label ∈ conditionLabels,
    Option.Rel Older (cond.nodes.labelled? label) (u.nodes.labelled? label))
  (beside : ∀ label ∈ branchLabels,
    Option.Rel Older (t.nodes.labelled? label) (u.nodes.labelled? label))
  (rest : ∀ child ∈ u.children,
    (∃ label ∈ conditionLabels ++ branchLabels, u.nodes.labelled? label = some child) ∨
    child.info.label = none ∧ child.kind ≠ "else_clause")
  (labels : t.LabelsIfs) (labelsCond : cond.LabelsIfs)

include condition labels in
theorem noElse_of_missing (missing : t.nodes.labelled? "alternative" = none) :
    t.nodes.ofKind? "else_clause" = none := by
  obtain ⟨kind, -, -⟩ := (Tree.letCondition?_eq_some_iff t cond).mp condition
  refine List.find?_eq_none.mpr fun child listed isElse => ?_
  have found := labels.alternative kind (List.any_eq_true.mpr ⟨child, listed, isElse⟩)
  rw [missing] at found
  cases found

include condition inside beside rest labels labelsCond in
/-- Without a labelled else clause the counterpart has none at all. -/
theorem noElse_of_rest (missing : t.nodes.labelled? "alternative" = none) :
    u.nodes.ofKind? "else_clause" = none := by
  have noElse := noElse_of_missing condition labels missing
  obtain ⟨-, -, isLet⟩ := (Tree.letCondition?_eq_some_iff t cond).mp condition
  refine List.find?_eq_none.mpr fun child listed isElse => ?_
  have isElse : child.kind = "else_clause" := by simpa using isElse
  rcases rest child listed with ⟨label, isLabel, found⟩ | ⟨-, other⟩
  · rcases List.mem_append.mp isLabel with isInner | isOuter
    · obtain ⟨v, isHere, other⟩ := labelsCond.binding isLet label isInner
      obtain ⟨w, isThere, older⟩ := exists_labelled (inside label isInner) isHere
      cases found.symm.trans isThere
      exact older.kind_ne other isElse
    · have rel := beside label isOuter
      rw [found] at rel
      rcases rel_cases rel with ⟨-, none⟩ | ⟨v, _, isHere, same, older⟩
      · cases none
      · cases same
        refine older.kind_ne (fun isElse => ?_) isElse
        have unfound := List.find?_eq_none.mp noElse v (Siblings.mem_of_labelled? _ _ v isHere)
        exact unfound (by simpa using isElse)
  · exact other isElse

variable (placed : ∀ v ∈ t.reserved, ¬v.IsIfLet)
  (child : ∀ v ∈ t.children, ∀ w, Older v w → Alike reshaped (forms source v) (forms source w))
  (inCond : ∀ v ∈ cond.children, ∀ w, Older v w →
    Alike reshaped (forms source v) (forms source w))

include condition placed in
theorem kept_of_placed {label : String} (isOuter : label ∈ branchLabels) (v : ParseTree)
    (found : t.nodes.labelled? label = some v) : reshaped.kept (forms source v) := by
  obtain ⟨kind, -, -⟩ := (Tree.letCondition?_eq_some_iff t cond).mp condition
  refine mt (Tree.isIfLet_annotate _ v).mp (placed v ?_)
  rw [Tree.reserved, if_pos (.inl kind), List.mem_append, Option.mem_toList, Option.mem_toList]
  have which : label = "consequence" ∨ label = "alternative" := by
    simpa [branchLabels] using isOuter
  rcases which with rfl | rfl
  · exact .inl found
  · exact .inr found

include condition inside beside rest labels labelsCond placed child in
/-- The else clauses stand under the same label, or there is none. -/
theorem els_agree :
    Agree false Eq
      (elseOf? (((forms source t).nodes.labelled? "alternative").or
        ((forms source t).nodes.ofKind? "else_clause")))
      (elseOf? (((forms source u).nodes.labelled? "alternative").or
        ((forms source u).nodes.ofKind? "else_clause"))) := by
  have isOuter : "alternative" ∈ branchLabels := by decide
  simp only [labelled?_forms, ofKind?_forms]
  rcases rel_cases (beside _ isOuter) with ⟨missing, missing'⟩ | ⟨v, w, isElse, isElse', older⟩
  · rw [missing, missing', noElse_of_missing condition labels missing,
      noElse_of_rest condition inside beside rest labels labelsCond missing]
    exact .refl _
  · rw [isElse, isElse']
    have alike := child v (Siblings.mem_of_labelled? _ _ v isElse) w older
    exact elseOf?_alike (.some ⟨alike, kept_of_placed condition placed isOuter v isElse⟩)

include condition inside beside rest labels labelsCond placed child inCond in
/-- The counterpart reads the same parts, in another order. -/
theorem agree_of_ifLet (info : u.info = { t.info with kind := "if_let_expression" }) :
    Agree false Eq (forms source t).value.expr (forms source u).value.expr := by
  have els := els_agree condition inside beside rest labels labelsCond placed child
  obtain ⟨kind, isCond, isLet⟩ := (Tree.letCondition?_eq_some_iff t cond).mp condition
  have isInner : "pattern" ∈ conditionLabels ∧ "value" ∈ conditionLabels := by decide
  have isOuter : "consequence" ∈ branchLabels := by decide
  obtain ⟨p, isPattern, -⟩ := labelsCond.binding isLet _ isInner.1
  obtain ⟨v, isValue, -⟩ := labelsCond.binding isLet _ isInner.2
  obtain ⟨b, isBody⟩ := Option.isSome_iff_exists.mp (labels.parts kind "consequence" (by decide))
  obtain ⟨p', isPattern', patternOlder⟩ := exists_labelled (inside _ isInner.1) isPattern
  obtain ⟨v', isValue', valueOlder⟩ := exists_labelled (inside _ isInner.2) isValue
  obtain ⟨b', isBody', bodyOlder⟩ := exists_labelled (beside _ isOuter) isBody
  have pattern := inCond p (Siblings.mem_of_labelled? _ _ p isPattern) p' patternOlder
  have value := inCond v (Siblings.mem_of_labelled? _ _ v isValue) v' valueOlder
  have body := child b (Siblings.mem_of_labelled? _ _ b isBody) b' bodyOlder
  have found {x y : ParseTree} {label : String} (isHere : x.nodes.labelled? label = some y) :
      (forms source x).nodes.labelled? label = some (forms source y) := by
    rw [labelled?_forms, isHere, Option.map_some]
  have infoT : (forms source t).info = t.info := Tree.info_annotate _ t
  have infoU : (forms source u).info = u.info := Tree.info_annotate _ u
  have span : u.info.span = t.info.span := by rw [info]; rfl
  have asIf := (formed_forms source t).expr.trans ((exprOf_if (infoT ▸ kind)).trans
    (ifOf_letCondition _ (found isCond) ((Tree.kind_annotate _ cond).trans isLet)
      (found isPattern) (found isValue) (found isBody)))
  have asIfLet := (formed_forms source u).expr.trans ((exprOf_ifLet (by rw [infoU, info])).trans
    (ifLetOf_labelled _ (found isPattern') (found isValue') (found isBody')))
  rw [asIf, asIfLet, pattern.common.span, infoT, infoU, span]
  exact branch_agree els value.common.expr
    (body.common.block (kept_of_placed condition placed isOuter b isBody))
    fun e s b => .branch ⟨.binds (forms source p).span s, b, e, t.info.span⟩

end IfLet

/-- A tree in the shape of the older grammar is the same to whoever reads it. -/
theorem alike_of_older (source : Source) (t u : ParseTree) (older : Older t u)
    (labels : ∀ v, t.Holds v → v.LabelsIfs)
    (placed : ∀ v, t.Holds v → ∀ w ∈ v.reserved, ¬w.IsIfLet) :
    Alike reshaped (forms source t) (forms source u) := by
  -- The pattern and the value stand two levels below the `if`, so the induction is on all nodes that
  -- a node holds.
  induction t using Tree.inductionOnHeld generalizing u with
  | step t ih =>
    have fits := fits_of_labelsIfs source t (labels t .refl) (placed t .refl)
    have below (child : ParseTree) (isChild : child ∈ t.children) (v : ParseTree)
        (holds : child.Holds v) (w : ParseTree) (rewritten : Older v w) :
        Alike reshaped (forms source v) (forms source w) := by
      have held : t.Holds v := .head isChild holds
      exact ih child isChild v holds w rewritten (fun x inside => labels x (held.trans inside))
        fun x inside => placed x (held.trans inside)
    cases older with
    | same _ us other children =>
      obtain ⟨info, value, ts⟩ := t
      rw [forms_eq] at fits ⊢
      rw [forms_eq]
      refine .ofChildren source info fits (paired_of_older source children ?_)
      exact fun v isChild => below v isChild v .refl
    | ifLet _ cond _ condition info inside beside rest =>
      obtain ⟨kind, isCond, isLet⟩ := (Tree.letCondition?_eq_some_iff t cond).mp condition
      have isChild := Siblings.mem_of_labelled? t.nodes "condition" cond isCond
      have expr := agree_of_ifLet condition inside beside rest (labels t .refl)
        (labels cond (.child isChild)) (placed t .refl) (fun v isChild => below v isChild v .refl)
        (fun v isInner => below cond isChild v (.child isInner)) info
      have infoT : (forms source t).info = t.info := Tree.info_annotate _ t
      have infoU : (forms source u).info = { t.info with kind := "if_let_expression" } :=
        (Tree.info_annotate _ u).trans info
      have kindT : (forms source t).kind = "if_expression" := (congrArg _ infoT).trans kind
      have changed : ¬reshaped.kept (forms source t) :=
        not_not.mpr ((Tree.isIfLet_annotate _ t).mpr (Option.isSome_of_mem condition))
      have noType : ¬reshaped.typed (forms source t) := fun typed => typed _ .refl kindT
      refine .mk _ _ ⟨?_, ?_, ?_, .inr ⟨changed, kindT, ?_⟩, ?_, fun typed => absurd typed noType,
        expr, fun kept => absurd kept changed, fun kept => absurd kept changed, fits⟩
        fun kept => absurd kept changed
      · rw [infoT, infoU]
      · rw [infoT, infoU]
      · rw [Tree.span, Tree.span, infoT, infoU]
        rfl
      · rw [Tree.kind, infoU]
      · rw [text_forms, text_forms, info]
        rfl

/-- A file can be brought into the shape of the older grammar, and either shape is lowered to the
same crate, if no `if` with a pattern stands where a block, an else clause or a list of arguments is
read. -/
theorem ofTree_older (source : Source) (t : ParseTree) (labels : ∀ v, t.Holds v → v.LabelsIfs)
    (placed : ∀ v, t.Holds v → ∀ w ∈ v.reserved, ¬w.IsIfLet) :
    (∃ u, Older t u) ∧ ∀ u, Older t u → ∀ crate,
      Crate.ofTree source t = .ok crate ↔ Crate.ofTree source u = .ok crate := by
  refine ⟨Older.exists_older t, fun u older crate => ?_⟩
  exact ((alike_of_older source t u older labels placed).crate nofun).ok_iff crate

/-! Two files in both shapes. -/

/-- The file `fn f() { .. }` with the expression in the body of its function. -/
def inBody (e : ParseTree) : ParseTree :=
  ⟨⟨"source_file", true, 0, 40, none⟩, (), [
    ⟨⟨"function_item", true, 0, 40, none⟩, (), [
      ⟨⟨"identifier", true, 3, 4, some "name"⟩, (), []⟩,
      ⟨⟨"parameters", true, 4, 6, some "parameters"⟩, (), []⟩,
      ⟨⟨"block", true, 7, 40, some "body"⟩, (), [e]⟩]⟩]⟩

/-- The expression `if a!() ..` with the node in the place of its block. -/
def asBlock (body : ParseTree) : ParseTree :=
  ⟨⟨"if_expression", true, 9, 38, none⟩, (), [
    ⟨⟨"macro_invocation", true, 12, 16, some "condition"⟩, (), []⟩, body]⟩

/-- The `let b!() = c!()` in a condition. -/
def letCondition : ParseTree :=
  ⟨⟨"let_condition", true, 20, 35, some "condition"⟩, (), [
    ⟨⟨"macro_invocation", true, 24, 28, some "pattern"⟩, (), []⟩,
    ⟨⟨"macro_invocation", true, 31, 35, some "value"⟩, (), []⟩]⟩

/-- The expression `if let b!() = c!() {}` of the newer grammar. -/
def newerIf (label : Option String) : ParseTree :=
  ⟨⟨"if_expression", true, 17, 38, label⟩, (), [letCondition,
    ⟨⟨"block", true, 36, 38, some "consequence"⟩, (), []⟩]⟩

/-- The same expression of the older grammar. -/
def olderIf (label : Option String) : ParseTree :=
  ⟨⟨"if_let_expression", true, 17, 38, label⟩, (), [
    ⟨⟨"macro_invocation", true, 24, 28, some "pattern"⟩, (), []⟩,
    ⟨⟨"macro_invocation", true, 31, 35, some "value"⟩, (), []⟩,
    ⟨⟨"block", true, 36, 38, some "consequence"⟩, (), []⟩]⟩

theorem older_newerIf (label : Option String) : Older (newerIf label) (olderIf label) := by
  have leaf (info : NodeInfo) (other : info.kind ≠ "if_expression") :
      Older ⟨info, (), []⟩ ⟨info, (), []⟩ := .inside info [] [] other .nil
  refine .ifLet (newerIf label) letCondition (olderIf label) rfl rfl ?_ ?_ ?_
  · simp only [conditionLabels, List.mem_cons, List.not_mem_nil, or_false, forall_eq_or_imp,
      forall_eq]
    exact ⟨.some (leaf _ (by decide)), .some (leaf _ (by decide))⟩
  · simp only [branchLabels, List.mem_cons, List.not_mem_nil, or_false, forall_eq_or_imp,
      forall_eq]
    exact ⟨.some (leaf _ (by decide)), .none⟩
  · simp only [olderIf, List.mem_cons, List.not_mem_nil, or_false, forall_eq_or_imp, forall_eq]
    exact ⟨.inl ⟨"pattern", by decide, rfl⟩, .inl ⟨"value", by decide, rfl⟩,
      .inl ⟨"consequence", by decide, rfl⟩⟩

theorem older_inBody {t u : ParseTree} (older : Older t u) : Older (inBody t) (inBody u) := by
  have block := Older.inside ⟨"block", true, 7, 40, some "body"⟩ [t] [u] (by decide)
    (.cons older .nil)
  exact .inside _ _ _ (by decide) (.cons (.inside _ _ _ (by decide) (.cons (.refl _ (by decide))
    (.cons (.refl _ (by decide)) (.cons block .nil)))) .nil)

/-- Both files satisfy what the grammar says of labels. -/
theorem labelsIfs_inBody : ∀ e ∈ [newerIf none, asBlock (newerIf (some "consequence"))],
    ∀ v, (inBody e).Holds v → v.LabelsIfs := by
  have checked : ∀ e ∈ [newerIf none, asBlock (newerIf (some "consequence"))],
      ∀ v, (inBody e).Holds v →
        (v.kind = "if_expression" → ∀ label ∈ ["condition", "consequence"],
          (v.nodes.labelled? label).isSome = true) ∧
        (v.kind = "if_expression" → v.nodes.hasKind "else_clause" = true →
          (v.nodes.labelled? "alternative").isSome = true) ∧
        (v.kind = "let_condition" → ∀ label ∈ conditionLabels,
          ∃ u ∈ v.nodes.labelled? label, u.kind ≠ "else_clause") ∧ v.statedTypes = [] := by
    decide
  intro e listed v holds
  obtain ⟨parts, alternative, binding, untyped⟩ := checked e listed v holds
  exact ⟨parts, alternative, binding, by rw [untyped]; nofun⟩

/-- The file `fn f() { if let b!() = c!() {} }` is lowered alike in both shapes. -/
theorem newerIf_ofTree_iff :
    let source : Source := ⟨"fn f() \x7b         if let b!() = c!() \x7b\x7d \x7d", none⟩
    Older (inBody (newerIf none)) (inBody (olderIf none)) ∧
      ∀ crate, Crate.ofTree source (inBody (newerIf none)) = .ok crate ↔
        Crate.ofTree source (inBody (olderIf none)) = .ok crate := by
  intro source
  have older := older_inBody (older_newerIf none)
  have labels := labelsIfs_inBody (newerIf none) List.mem_cons_self
  exact ⟨older, (ofTree_older source (inBody (newerIf none)) labels (by decide)).2 _ older⟩

/-! As a block, an `if` with a pattern has a statement for each of its parts: the whole condition in
one shape, the pattern and the value in the other. -/

/-- The block of the `if` that is all the function of the file does. -/
def onlyBlock? : Crate → Option Block
  | ⟨[.fn f], _⟩ =>
    match f.body with
    | some ⟨[.expr (.branch node) _ _], _⟩ => some node.body
    | _ => none
  | _ => none

/-- The block of the `if` is what the node in its place is as a block. -/
theorem ofTree_asBlock (source : Source) (u : ParseTree) (block : Block)
    (info : u.info = ⟨"if_expression", true, 17, 38, some "consequence"⟩ ∨
      u.info = ⟨"if_let_expression", true, 17, 38, some "consequence"⟩)
    (lowered : (forms source u).value.block = .ok block) :
    ∃ crate, Crate.ofTree source (inBody (asBlock u)) = .ok crate ∧
      onlyBlock? crate = some block := by
  rw [← Tree.info_annotate (formsOf source) u, ← forms] at info
  simp only [Crate.ofTree, inBody, asBlock, forms_eq, List.map_cons, List.map_nil]
  generalize forms source u = w at info lowered ⊢
  obtain ⟨_, ⟨text, ty, expr, _, items⟩, children⟩ := w
  cases lowered
  rcases info with same | same
  · cases same
    exact ⟨_, rfl, rfl⟩
  · cases same
    exact ⟨_, rfl, rfl⟩

theorem flatten_invocation {t : FormTree} {rest : List FormTree} {found : List Part} {e : Expr}
    (kind : t.kind = "macro_invocation") (lowered : t.value.expr = .ok e) :
    flatten (t :: rest) found = flatten rest (.expr e :: found) := by
  rw [flatten, kind, if_neg (by decide), if_neg (by decide), if_pos (by decide), lowered]
  rfl

theorem expr_letCondition (source : Source) : ∃ e,
    (forms source letCondition).value.expr = .ok e := by
  have kept : (forms source letCondition).value.expr =
      keepParts letCondition.info (forms source letCondition).nodes := rfl
  have parts : Siblings.parts (forms source letCondition).nodes =
      letCondition.nodes.map (forms source) := rfl
  rw [kept, keepParts, parts, letCondition, List.map_cons, List.map_cons, List.map_nil,
    flatten_invocation rfl rfl, flatten_invocation rfl rfl, flatten]
  exact ⟨_, rfl⟩

theorem block_newerIf (source : Source) (label : Option String) : ∃ block,
    (forms source (newerIf label)).value.block = .ok block ∧ block.stmts.length = 2 := by
  obtain ⟨e, lowered⟩ := expr_letCondition source
  have isInfo := Tree.info_annotate (formsOf source) letCondition
  rw [← forms] at isInfo
  simp only [newerIf, forms_eq, List.map_cons, List.map_nil]
  generalize forms source letCondition = w at isInfo lowered ⊢
  obtain ⟨_, ⟨text, ty, _, block, items⟩, children⟩ := w
  cases isInfo
  cases lowered
  exact ⟨_, rfl, rfl⟩

theorem block_olderIf (source : Source) (label : Option String) : ∃ block,
    (forms source (olderIf label)).value.block = .ok block ∧ block.stmts.length = 3 :=
  ⟨_, rfl, rfl⟩

/-- An `if` with a pattern in the place of a block is lowered to another crate in the other shape. -/
theorem asBlock_ofTree_ne :
    let source : Source := ⟨"fn f() \x7b if a!() if let b!() = c!() \x7b\x7d \x7d", none⟩
    let t := inBody (asBlock (newerIf (some "consequence")))
    let u := inBody (asBlock (olderIf (some "consequence")))
    (∀ v, t.Holds v → v.LabelsIfs) ∧ Older t u ∧
      ∃ crate, Crate.ofTree source t = .ok crate ∧ Crate.ofTree source u ≠ .ok crate := by
  intro source t u
  have labels := labelsIfs_inBody _ (List.mem_cons_of_mem _ List.mem_cons_self)
  have older : Older (asBlock (newerIf (some "consequence")))
      (asBlock (olderIf (some "consequence"))) :=
    .same _ _ (by decide) (.cons (.refl _ (by decide)) (.cons (older_newerIf _) .nil))
  refine ⟨labels, older_inBody older, ?_⟩
  obtain ⟨two, asTwo, length⟩ := block_newerIf source (some "consequence")
  obtain ⟨three, asThree, length'⟩ := block_olderIf source (some "consequence")
  obtain ⟨crate, lowered, isTwo⟩ := ofTree_asBlock source _ two (.inl rfl) asTwo
  obtain ⟨crate', lowered', isThree⟩ := ofTree_asBlock source _ three (.inr rfl) asThree
  refine ⟨crate, lowered, fun same => ?_⟩
  cases lowered'.symm.trans same
  cases isTwo.symm.trans isThree
  omega

end Lowering

end RustLint
