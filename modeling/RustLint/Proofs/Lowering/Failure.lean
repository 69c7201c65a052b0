import RustLint.Proofs.Lowering.Containment

set_option autoImplicit false

namespace RustLint.Lowering

variable {α : Type}

/-- The node lacks a part that the lowering takes for granted: a binary expression its operands or
its operator, or a `let` condition its value. -/
inductive Gap (t : Tree α) : LowerError → Prop
  | operand (kind : t.kind ∈ binaryKinds)
      (unlabelled : t.nodes.labelled? "left" = none ∨ t.nodes.labelled? "right" = none)
      (empty : t.nodes.spoken = []) : Gap t .noOperand
  | operator (inArguments : Bool) (kind : t.kind ∈ binaryKinds)
      (unlabelled : t.nodes.labelled? "operator" = none)
      (named : ∀ child ∈ t.nodes.spoken, child.info.named = true) :
      Gap t (.noOperator inArguments)
  | letValue (kind : t.kind = "let_condition") (unlabelled : t.nodes.labelled? "value" = none)
      (empty : t.nodes.parts = []) : Gap t .noLetValue

/-- The node is to blame for the error: it has a gap, or it is refused as it is. -/
inductive Blamed (t : FormTree) : LowerError → Prop
  | gap (e : LowerError) (gap : Gap t e) : Blamed t e
  | selfType (kind : t.kind = "impl_item") (missing : (implTypes t.nodes).2 = none) :
      Blamed t .noSelfType
  | ifLet (kind : t.kind = "if_let_expression")
      (missing : (letParts t.nodes).1 = none ∨ (letParts t.nodes).2 = none ∨
        (t.nodes.labelled? "consequence").or (t.nodes.ofKind? "block") = none) :
      Blamed t .malformedIfLet

theorem Blamed.outOfArguments {t : FormTree} {e : LowerError} (blamed : Blamed t e) :
    Blamed t e.outOfArguments := by
  cases blamed with
  | gap e gap =>
    cases gap with
    | operand kind unlabelled empty => exact .gap _ (.operand kind unlabelled empty)
    | operator _ kind unlabelled named => exact .gap _ (.operator true kind unlabelled named)
    | letValue kind unlabelled empty => exact .gap _ (.letValue kind unlabelled empty)
  | selfType kind missing => exact .selfType kind missing
  | ifLet kind missing => exact .ifLet kind missing

/-- If the result is an error, a node of the tree is to blame. -/
def FailsInside (t : FormTree) (x : Except LowerError α) : Prop :=
  ∀ e, x = .error e → ∃ u, t.Holds u ∧ Blamed u e

section Results

variable {β : Type} {t : FormTree}

theorem FailsInside.ok (a : α) : FailsInside t (.ok a : Except LowerError α) :=
  fun _ failed => nomatch failed

theorem FailsInside.bind_of_ok {x : Except LowerError α} {next : α → Except LowerError β}
    (first : FailsInside t x) (behind : ∀ a, x = .ok a → FailsInside t (next a)) :
    FailsInside t (x >>= next) := by
  intro e failed
  cases x with
  | error d =>
    cases failed
    exact first _ rfl
  | ok a => exact behind a rfl e failed

theorem FailsInside.bind {x : Except LowerError α} {next : α → Except LowerError β}
    (first : FailsInside t x) (behind : ∀ a, FailsInside t (next a)) :
    FailsInside t (x >>= next) := first.bind_of_ok fun a _ => behind a

theorem FailsInside.map {x : Except LowerError α} (first : FailsInside t x) (g : α → β) :
    FailsInside t (g <$> x) := by
  intro e failed
  cases x with
  | error d =>
    cases failed
    exact first _ rfl
  | ok a => cases failed

theorem FailsInside.outOfArguments {x : Except LowerError α} (inside : FailsInside t x) :
    FailsInside t (x.mapError LowerError.outOfArguments) := by
  intro e failed
  cases x with
  | error d =>
    cases failed
    obtain ⟨u, holds, blamed⟩ := inside d rfl
    exact ⟨u, holds, blamed.outOfArguments⟩
  | ok a => cases failed

theorem FailsInside.mapM {f : α → Except LowerError β} (as : List α)
    (inside : ∀ a ∈ as, FailsInside t (f a)) : FailsInside t (as.mapM f) := by
  induction as with
  | nil => exact .ok []
  | cons a as ih =>
    rw [List.mapM_cons]
    have others := ih fun b later => inside b (List.mem_cons_of_mem a later)
    exact (inside a List.mem_cons_self).bind fun _ => others.bind fun _ => .ok _

theorem FailsInside.blame {e : LowerError} {u : FormTree} (holds : t.Holds u)
    (blamed : Blamed u e) : FailsInside t (.error e : Except LowerError α) := by
  intro d failed
  cases failed
  exact ⟨u, holds, blamed⟩

end Results

/-- The node stands below the other. -/
def IsInside (t u : FormTree) : Prop := ∃ child ∈ t.children, child.Holds u

theorem IsInside.holds {t u : FormTree} (inside : IsInside t u) : t.Holds u := by
  obtain ⟨child, below, holds⟩ := inside
  exact .head below holds

theorem IsInside.child {t u v : FormTree} (inside : IsInside t u) (child : v ∈ u.children) :
    IsInside t v := by
  obtain ⟨top, below, holds⟩ := inside
  exact ⟨top, below, holds.tail child⟩

theorem IsInside.held {t u v : FormTree} (inside : IsInside t u) (held : u.Holds v) :
    IsInside t v := by
  obtain ⟨top, below, holds⟩ := inside
  exact ⟨top, below, holds.trans held⟩

theorem IsInside.ofChild {t u : FormTree} (child : u ∈ t.children) : IsInside t u :=
  ⟨u, child, .refl⟩

/-- For an error of any form of the node, a node in it is to blame. -/
structure Accounted (t : FormTree) : Prop where
  expr : FailsInside t t.value.expr
  block : FailsInside t t.value.block
  items : ∀ exported, FailsInside t (t.value.items exported)

/-- The two operands and the operator of a node are put together after they were found. -/
theorem exprOf_eq_operands (block : Except LowerError Block) {info : NodeInfo}
    (below : Siblings Forms) (kind : info.kind ∈ binaryKinds) :
    ∃ build : String → Expr → Expr → Expr, exprOf block info below = (do
      let (lhs, op, rhs) ← binaryParts below
      return build op (← lhs.value.expr) (← rhs.value.expr)) := by
  have which : info.kind = "binary_expression" ∨ info.kind = "assignment_expression" ∨
      info.kind = "compound_assignment_expr" := by
    simpa [binaryKinds] using kind
  rcases which with kind | kind | kind
  · exact ⟨(.binary · · · info.span), by simp [exprOf, kind]⟩
  · exact ⟨(.assign · · · info.span), by simp [exprOf, kind]⟩
  · exact ⟨(.assign · · · info.span), by simp [exprOf, kind]⟩

theorem exprOf_eq_block {block : Except LowerError Block} {info : NodeInfo}
    {below : Siblings Forms} (kind : info.kind = "block") :
    exprOf block info below = (do return .block (← block) info.span) := by
  simp [exprOf, kind]

section Forms

variable {t : FormTree} (known : ∀ u, IsInside t u → Accounted u)

theorem FailsInside.lift {t u : FormTree} {x : Except LowerError α} (holds : t.Holds u)
    (inside : FailsInside u x) : FailsInside t x := by
  intro e failed
  obtain ⟨v, held, blamed⟩ := inside e failed
  exact ⟨v, holds.trans held, blamed⟩

include known

theorem fails_expr {u : FormTree} (inside : IsInside t u) : FailsInside t u.value.expr :=
  (known u inside).expr.lift inside.holds

theorem fails_block {u : FormTree} (inside : IsInside t u) : FailsInside t u.value.block :=
  (known u inside).block.lift inside.holds

/-! Expressions. -/

theorem fails_partOf {u : FormTree} (inside : IsInside t u) : FailsInside t (partOf u) := by
  unfold partOf
  split
  · exact (fails_block known inside).map _
  · exact (fails_expr known inside).map _

theorem fails_flatten (todo : List FormTree) (inside : ∀ u ∈ todo, IsInside t u) :
    FailsInside t (flatten todo []) := by
  rw [flatten_nil]
  refine .mapM _ fun v outer => ?_
  obtain ⟨u, listed, held⟩ := List.mem_flatMap.mp outer
  exact fails_partOf known ((inside u listed).held (Tree.holds_of_mem_outermost held))

theorem fails_keepParts : FailsInside t (keepParts t.info t.nodes) :=
  (fails_flatten known _ fun u part => .ofChild (Siblings.mem_of_mem_parts _ u part)).bind
    fun _ => .ok _

theorem fails_aroundOf (operand : Option FormTree) (build : Expr → Expr)
    (child : ∀ u, operand = some u → u ∈ t.children) :
    FailsInside t (aroundOf t.info operand build) := by
  cases operand with
  | none => exact .ok _
  | some u => exact (fails_expr known (.ofChild (child u rfl))).bind fun _ => .ok _

omit known in
/-- Operands and operator are missing only from a node with a gap. -/
theorem fails_binaryParts (kind : t.kind ∈ binaryKinds) : FailsInside t (binaryParts t.nodes) := by
  have noOperator (missing :
      (t.nodes.labelled? "operator").or (t.nodes.spoken.find? (!·.info.named)) = none) :
      Blamed t (.noOperator false) := by
    obtain ⟨unlabelled, none⟩ := Option.or_eq_none_iff.mp missing
    refine .gap _ (.operator false kind unlabelled fun child spoken => ?_)
    simpa using List.find?_eq_none.mp none child spoken
  unfold binaryParts
  dsimp only
  split
  · split
    · exact .ok _
    · next missing => exact .blame .refl (noOperator missing)
  · next unlabelled =>
    split
    · split
      · exact .ok _
      · next missing => exact .blame .refl (noOperator missing)
    · next noEnds =>
      refine FailsInside.blame .refl (.gap _ (.operand kind ?_ ?_))
      · cases left : t.nodes.labelled? "left" with
        | none => exact .inl rfl
        | some l =>
          cases right : t.nodes.labelled? "right" with
          | none => exact .inr rfl
          | some r => exact absurd right (unlabelled l r left)
      · cases spoken : t.nodes.spoken with
        | nil => rfl
        | cons first rest =>
          obtain ⟨last, isLast⟩ := Option.isSome_iff_exists.mp
            (List.getLast?_isSome.mpr (List.cons_ne_nil first rest))
          rw [spoken] at noEnds
          exact absurd isLast (noEnds first last rfl)

theorem fails_rangeOf : FailsInside t (rangeOf t.info t.nodes) := by
  have fold (ts : List FormTree) (parts : RangeParts) (children : ∀ u ∈ ts, u ∈ t.children) :
      FailsInside t (ts.foldlM RangeParts.add parts) := by
    induction ts generalizing parts with
    | nil => exact .ok _
    | cons u ts ih =>
      rw [List.foldlM_cons]
      refine FailsInside.bind ?_ fun next => ih next fun v later =>
        children v (List.mem_cons_of_mem _ later)
      have bound := fails_expr known (.ofChild (children u List.mem_cons_self))
      unfold RangeParts.add
      split
      · exact .ok _
      split
      · exact bound.bind fun _ => .ok _
      · exact bound.bind fun _ => .ok _
  exact (fold _ _ fun u spoken => (List.mem_filter.mp spoken).1).bind fun _ => .ok _

theorem fails_exprsOf (ts : List FormTree) (inside : ∀ u ∈ ts, IsInside t u) :
    FailsInside t (exprsOf ts) := by
  induction ts with
  | nil => exact .ok _
  | cons u ts ih =>
    rw [exprsOf]
    exact (fails_expr known (inside u List.mem_cons_self)).bind fun _ =>
      (ih fun v later => inside v (List.mem_cons_of_mem _ later)).bind fun _ => .ok _

theorem fails_argumentsOf? (list? : Option FormTree)
    (child : ∀ u, list? = some u → u ∈ t.children) :
    FailsInside t (argumentsOf? list?) := by
  cases list? with
  | none => exact .ok _
  | some list =>
    refine (fails_exprsOf known _ fun u argument => ?_).outOfArguments
    exact (IsInside.ofChild (child list rfl)).child
      (Siblings.mem_of_mem_parts _ u (List.mem_filter.mp argument).1)

theorem fails_callOf : FailsInside t (callOf t.info t.nodes) := by
  rw [callOf_eq]
  refine FailsInside.bind (fails_argumentsOf? known _ fun u found => Siblings.mem_of_or found
    (Siblings.mem_of_labelled? _ _) (Siblings.mem_of_ofKind? _ _)) fun args => ?_
  unfold callWith
  split
  · exact .ok _
  · next func found =>
    have inFunc : func ∈ t.nodes := Siblings.mem_of_or found
      (Siblings.mem_of_labelled? _ _) (Siblings.mem_of_firstPart? _)
    split
    · next receiver method hit named =>
      have inReceiver : receiver ∈ func.nodes := by
        split at hit
        · exact Siblings.mem_of_or hit
            (Siblings.mem_of_labelled? _ _) (Siblings.mem_of_firstPart? _)
        · cases hit
      exact (fails_expr known ((IsInside.ofChild inFunc).child inReceiver)).bind fun _ => .ok _
    · exact (fails_expr known (.ofChild inFunc)).bind fun _ => .ok _

theorem fails_castOf : FailsInside t (castOf t.info t.nodes) := by
  unfold castOf
  split
  · next value ty isValue _ =>
    exact (fails_expr known (.ofChild (Siblings.mem_of_or isValue
      (Siblings.mem_of_labelled? _ _) (Siblings.mem_of_firstPart? _)))).bind fun _ => .ok _
  · exact .ok _

/-! The parts of an `if`. -/

theorem fails_elseOf? (clause? : Option FormTree)
    (child : ∀ u, clause? = some u → u ∈ t.children) : FailsInside t (elseOf? clause?) := by
  cases clause? with
  | none => exact .ok _
  | some clause =>
    unfold elseOf? elseOf
    dsimp only
    split
    · exact .ok _
    · next target first =>
      have inside := (IsInside.ofChild (child clause rfl)).child
        (Siblings.mem_of_firstPart? _ target first)
      split
      · exact (fails_block known inside).bind fun _ => .ok _
      split
      · refine (fails_expr known inside).bind fun e => ?_
        split <;> exact .ok _
      · exact .ok _

theorem fails_condOf {cond : FormTree} (inside : IsInside t cond) :
    FailsInside t (condOf cond) := by
  unfold condOf
  split
  · next kind =>
    split
    · next missing =>
      obtain ⟨unlabelled, none⟩ := Option.or_eq_none_iff.mp missing
      exact .blame inside.holds
        (.gap _ (.letValue kind unlabelled (List.getLast?_eq_none_iff.mp none)))
    · next value found =>
      exact (fails_expr known (inside.child (Siblings.mem_of_or found
        (Siblings.mem_of_labelled? _ _) (Siblings.mem_of_lastPart? _)))).bind fun _ => .ok _
  split
  · exact (fails_flatten known _ fun u part =>
      inside.child (Siblings.mem_of_mem_parts _ u part)).bind fun _ => .ok _
  · exact (fails_expr known inside).bind fun _ => .ok _

theorem fails_ifOf : FailsInside t (ifOf t.info t.nodes) := by
  cases condition : condition? t.nodes with
  | none =>
    rw [ifOf_eq_keepParts t.info t.nodes (.inl condition)]
    exact fails_keepParts known
  | some cond =>
    cases consequence : (t.nodes.labelled? "consequence").or (t.nodes.ofKind? "block") with
    | none =>
      rw [ifOf_eq_keepParts t.info t.nodes (.inr consequence)]
      exact fails_keepParts known
    | some body =>
      have inBody := Siblings.mem_of_or consequence
        (Siblings.mem_of_labelled? _ _) (Siblings.mem_of_ofKind? _ _)
      rw [ifOf_eq t.info t.nodes cond body condition consequence]
      exact (fails_elseOf? known _ fun u found => Siblings.mem_of_or found
        (Siblings.mem_of_labelled? _ _) (Siblings.mem_of_ofKind? _ _)).bind fun _ =>
        (fails_condOf known (.ofChild (mem_of_condition? _ cond condition))).bind fun _ =>
        (fails_block known (.ofChild inBody)).bind fun _ => .ok _

theorem fails_ifLetOf (kind : t.kind = "if_let_expression") :
    FailsInside t (ifLetOf t.info t.nodes) := by
  rw [ifLetOf_eq]
  split
  · next pattern value body first second third =>
    have inValue := mem_of_letParts t.nodes value (.inr second)
    have inBody := Siblings.mem_of_or third
      (Siblings.mem_of_labelled? _ _) (Siblings.mem_of_ofKind? _ _)
    exact (fails_expr known (.ofChild inValue)).bind fun _ =>
      (fails_block known (.ofChild inBody)).bind fun _ =>
      (fails_elseOf? known _ fun u found => Siblings.mem_of_or found
        (Siblings.mem_of_labelled? _ _) (Siblings.mem_of_ofKind? _ _)).bind fun _ => .ok _
  · next incomplete =>
    refine .blame .refl (.ifLet kind ?_)
    cases pattern : (letParts t.nodes).1 with
    | none => exact .inl rfl
    | some _ =>
      cases value : (letParts t.nodes).2 with
      | none => exact .inr (.inl rfl)
      | some _ =>
        cases body : (t.nodes.labelled? "consequence").or (t.nodes.ofKind? "block") with
        | none => exact .inr (.inr rfl)
        | some _ => exact absurd body (incomplete _ _ _ pattern value)

theorem fails_exprOf (block : Except LowerError Block) (ofBlock : FailsInside t block) :
    FailsInside t (exprOf block t.info t.nodes) := by
  by_cases binary : t.info.kind ∈ binaryKinds
  · obtain ⟨build, same⟩ := exprOf_eq_operands block t.nodes binary
    rw [same]
    refine (fails_binaryParts binary).bind_of_ok fun (lhs, op, rhs) found => ?_
    obtain ⟨inLeft, inRight⟩ := mem_of_binaryParts found
    exact (fails_expr known (.ofChild inLeft)).bind fun _ =>
      (fails_expr known (.ofChild inRight)).bind fun _ => .ok _
  by_cases other : t.info.kind ∉ placedKinds ∨
      t.info.kind ∈ ["expression_statement", "let_declaration"]
  · rw [exprOf_other other]
    exact fails_keepParts known
  obtain ⟨placed, noStatement⟩ := not_or.mp other
  have which := Decidable.not_not.mp placed
  simp only [placedKinds, List.mem_append, binary, false_or, List.mem_cons, List.not_mem_nil,
    or_false, not_or] at which noStatement
  rcases which with
    kind | kind | kind | kind | kind | kind | kind | kind | kind | kind | kind | kind | kind
  · rw [exprOf_eq_block kind]
    exact ofBlock.bind fun _ => .ok _
  · exact absurd kind noStatement.1
  · exact absurd kind noStatement.2
  · rw [exprOf_if kind]
    exact fails_ifOf known
  · rw [exprOf_ifLet kind]
    exact fails_ifLetOf known kind
  · rw [exprOf_unary kind]
    exact fails_aroundOf known _ _ (Siblings.mem_of_lastPart? _)
  · rw [exprOf_reference kind]
    exact fails_aroundOf known _ _ fun u found => Siblings.mem_of_or found
      (Siblings.mem_of_labelled? _ _) (Siblings.mem_of_lastPart? _)
  · rw [exprOf_castOf kind]
    exact fails_castOf known
  · rw [exprOf_range kind]
    exact fails_rangeOf known
  · rw [exprOf_closure kind]
    exact fails_aroundOf known _ _ fun u found => Siblings.mem_of_or found
      (Siblings.mem_of_labelled? _ _) (Siblings.mem_of_lastPart? _)
  · rw [exprOf_paren kind]
    exact fails_aroundOf known _ _ (Siblings.mem_of_firstPart? _)
  · rw [exprOf_call kind]
    exact fails_callOf known
  · rw [exprOf_macroCall kind]
    exact .ok _

/-! Statements and items. -/

omit known in
theorem fails_formOf? {form : FormTree → Except LowerError α} {t? : Option FormTree}
    (each : ∀ u, t? = some u → FailsInside t (form u)) : FailsInside t (formOf? form t?) := by
  cases t? with
  | none => exact .ok _
  | some u => exact (each u rfl).map _

theorem fails_fnOf {u : FormTree} (inside : IsInside t u) (exported : Bool) :
    FailsInside t (fnOf u exported) := by
  unfold fnOf
  dsimp only
  split
  · next body found =>
    exact ((fails_block known (inside.child (Siblings.mem_of_ofKind? _ _ body found))).map _).bind
      fun _ => .ok _
  · exact .ok _

theorem fails_implItemsOf (exported : Bool) (ts : List FormTree) (inside : ∀ u ∈ ts, IsInside t u) :
    FailsInside t (implItemsOf exported ts) := by
  induction ts with
  | nil => exact .ok _
  | cons u ts ih =>
    have rest := ih fun v later => inside v (List.mem_cons_of_mem _ later)
    rw [implItemsOf]
    split
    · exact (fails_fnOf known (inside u List.mem_cons_self) exported).bind fun _ =>
        rest.bind fun _ => .ok _
    split
    · exact rest.bind fun _ => .ok _
    · exact rest

theorem fails_implOf {u : FormTree} (inside : IsInside t u) (kind : u.kind = "impl_item")
    (exported : Bool) : FailsInside t (implOf u exported) := by
  simp only [implOf]
  split
  · next missing => exact .blame inside.holds (.selfType kind missing)
  · refine (fails_implItemsOf known exported _ fun v listed => ?_).bind fun _ => .ok _
    cases found : u.nodes.ofKind? "declaration_list" with
    | none =>
      rw [found] at listed
      cases listed
    | some list =>
      rw [found] at listed
      exact (inside.child (Siblings.mem_of_ofKind? _ _ list found)).child
        (Siblings.mem_of_mem_parts _ v listed)

theorem fails_modOf {u : FormTree} (inside : IsInside t u) (exported : Bool) :
    FailsInside t (modOf u exported) := by
  unfold modOf
  dsimp only
  split
  · next body found =>
    have child := inside.child (Siblings.mem_of_ofKind? _ _ body found)
    exact (((known body child).items _).lift child.holds).bind fun _ => .ok _
  · exact .ok _

theorem fails_itemOf {u : FormTree} (inside : IsInside t u) (attributes : List FormTree)
    (exported : Bool) : FailsInside t (itemOf u attributes exported) := by
  unfold itemOf
  dsimp only
  iterate 4
    split
    · exact .ok _
  split
  · next kind => exact (fails_implOf known inside kind exported).map _
  split
  · exact (fails_fnOf known inside exported).map _
  split
  · exact (fails_modOf known inside exported).map _
  · exact .ok _

theorem fails_itemsOf (exported : Bool) (attributes ts : List FormTree)
    (inside : ∀ u ∈ ts, IsInside t u) : FailsInside t (itemsOf exported attributes ts) := by
  induction ts generalizing attributes with
  | nil => exact .ok _
  | cons u ts ih =>
    have rest (before : List FormTree) : FailsInside t (itemsOf exported before ts) :=
      ih before fun v later => inside v (List.mem_cons_of_mem _ later)
    rw [itemsOf]
    split
    · exact rest _
    split
    · exact (fails_itemOf known (inside u List.mem_cons_self) attributes exported).bind fun _ =>
        (rest []).bind fun _ => .ok _
    · exact rest []

theorem fails_stmtOf {u : FormTree} (inside : IsInside t u) (attributes : List FormTree) :
    FailsInside t (stmtOf u attributes) := by
  have child {v : FormTree} (below : v ∈ u.children) : IsInside t v := inside.child below
  unfold stmtOf
  split
  · exact .ok _
  split
  · unfold exprStmtOf
    split
    · exact .ok _
    · next inner first =>
      exact (fails_expr known (child (Siblings.mem_of_firstPart? _ inner first))).bind
        fun _ => .ok _
  split
  · rw [bindingOf_eq]
    exact (fails_formOf? fun v found => fails_expr known (child (Siblings.mem_of_or found
        (Siblings.mem_of_labelled? _ _) (Siblings.mem_of_partAfter? _ _)))).bind fun _ =>
      (fails_formOf? fun v found => fails_block known (child (Siblings.mem_of_or found
        (Siblings.mem_of_labelled? _ _) (Siblings.mem_of_partAfter? _ _)))).bind fun _ => .ok _
  split
  · exact (fails_itemOf known inside attributes false).bind fun _ => .ok _
  · exact (fails_expr known inside).bind fun _ => .ok _

theorem fails_stmtsOf (attributes ts : List FormTree) (inside : ∀ u ∈ ts, IsInside t u) :
    FailsInside t (stmtsOf attributes ts) := by
  induction ts generalizing attributes with
  | nil => exact .ok _
  | cons u ts ih =>
    have rest (before : List FormTree) : FailsInside t (stmtsOf before ts) :=
      ih before fun v later => inside v (List.mem_cons_of_mem _ later)
    rw [stmtsOf]
    split
    · exact rest _
    · exact (fails_stmtOf known (inside u List.mem_cons_self) attributes).bind fun _ =>
        (rest []).bind fun _ => .ok _

end Forms

/-! Every node, and files. -/

theorem Formed.accounted {source : Source} {t : FormTree} (formed : Formed source t) :
    Accounted t := by
  induction t using Tree.inductionOnHeld with
  | step t ih =>
    have known (u : FormTree) (inside : IsInside t u) : Accounted u := by
      obtain ⟨child, below, holds⟩ := inside
      exact ih child below u holds ((formed.child below).holds holds)
    have parts (u : FormTree) (part : u ∈ t.nodes.parts) : IsInside t u :=
      .ofChild (Siblings.mem_of_mem_parts _ u part)
    have block : FailsInside t t.value.block := by
      rw [formed.block]
      exact (fails_stmtsOf known [] _ parts).bind fun _ => .ok _
    refine ⟨?_, block, fun exported => ?_⟩
    · rw [formed.expr]
      exact fails_exprOf known _ block
    · rw [formed.items]
      exact fails_itemsOf known exported [] _ parts

/-- A file that does not lower is no source file, or one of its nodes is to blame. -/
theorem blamed_of_error {source : Source} {root : ParseTree} {e : LowerError}
    (failed : Crate.ofTree source root = .error e) :
    (root.kind ≠ "source_file" ∧ e = .notSourceFile root.kind) ∨
      ∃ u, (forms source root).Holds u ∧ Blamed u e := by
  unfold Crate.ofTree at failed
  split at failed
  · refine .inr (FailsInside.bind ((formed_forms source root).accounted.items true)
      (fun items => .ok (⟨items, root.span⟩ : Crate)) e failed)
  · next kind =>
    cases failed
    exact .inl ⟨kind, rfl⟩

/-- A gap of an annotated node is a gap of the node. -/
theorem Gap.ofAnnotate {β : Type} {f : NodeInfo → List (Tree β) → β} {t : Tree α} {e : LowerError}
    (gap : Gap (Tree.annotate f t) e) : Gap t e := by
  have keeps := Tree.info_annotate (α := α) f
  cases gap with
  | operand kind unlabelled empty =>
    simp only [Tree.kind_annotate, Tree.nodes, Tree.children_annotate,
      Siblings.labelled?_map keeps, Siblings.spoken_map keeps, Option.map_eq_none_iff,
      List.map_eq_nil_iff] at kind unlabelled empty
    exact .operand kind unlabelled empty
  | operator inArguments kind unlabelled named =>
    simp only [Tree.kind_annotate, Tree.nodes, Tree.children_annotate,
      Siblings.labelled?_map keeps, Siblings.spoken_map keeps, Option.map_eq_none_iff,
      List.forall_mem_map, keeps] at kind unlabelled named
    exact .operator inArguments kind unlabelled named
  | letValue kind unlabelled empty =>
    simp only [Tree.kind_annotate, Tree.nodes, Tree.children_annotate,
      Siblings.labelled?_map keeps, Siblings.parts_map keeps, Option.map_eq_none_iff,
      List.map_eq_nil_iff] at kind unlabelled empty
    exact .letValue kind unlabelled empty

/-- A fault of the lowering is a gap of one of the nodes. -/
theorem gap_of_fault {source : Source} {root : ParseTree} {e : LowerError}
    (failed : Crate.ofTree source root = .error e) (fault : e.refusal? = none) :
    ∃ u, root.Holds u ∧ Gap u e := by
  rcases blamed_of_error failed with ⟨-, rfl⟩ | ⟨u, holds, blamed⟩
  · cases fault
  · obtain ⟨v, inRoot, rfl⟩ := Tree.holds_annotate _ root u holds
    cases blamed with
    | gap e gap => exact ⟨v, inRoot, gap.ofAnnotate⟩
    | selfType => cases fault
    | ifLet => cases fault

end RustLint.Lowering
