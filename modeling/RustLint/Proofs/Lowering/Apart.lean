import Mathlib.Data.List.Forall2
import RustLint.Proofs.Lowering.Containment
import RustLint.Proofs.Lowering.Labels

set_option autoImplicit false

namespace RustLint.Lowering

/-- The nodes were lowered from parse nodes inside of the trees, each from a place of its own. -/
def ComeFrom (ts : List FormTree) (ns : List Node) : Prop :=
  ∃ us, List.Forall₂ Yields us ns ∧ Tree.Within us ts

theorem ComeFrom.nil (ts : List FormTree) : ComeFrom ts [] := ⟨[], .nil, List.nil_subperm⟩

theorem ComeFrom.single {t u : FormTree} {n : Node} (holds : t.Holds u) (yields : Yields u n) :
    ComeFrom [t] [n] := ⟨[u], .cons yields .nil, .of_holds holds⟩

theorem ComeFrom.append {ts us : List FormTree} {ns ms : List Node} (first : ComeFrom ts ns)
    (second : ComeFrom us ms) : ComeFrom (ts ++ us) (ns ++ ms) := by
  obtain ⟨vs, yields, within⟩ := first
  obtain ⟨ws, others, withinOthers⟩ := second
  exact ⟨vs ++ ws, List.rel_append yields others, within.append withinOthers⟩

theorem ComeFrom.cons {t : FormTree} {ts : List FormTree} {n : Node} {ns : List Node}
    (first : ComeFrom [t] [n]) (others : ComeFrom ts ns) : ComeFrom (t :: ts) (n :: ns) :=
  first.append others

theorem ComeFrom.mono {us ts : List FormTree} {ns : List Node} (come : ComeFrom us ns)
    (within : Tree.Within us ts) : ComeFrom ts ns := by
  obtain ⟨vs, yields, inside⟩ := come
  exact ⟨vs, yields, inside.trans within⟩

theorem ComeFrom.subperm {us ts : List FormTree} {ns : List Node} (come : ComeFrom us ns)
    (among : us.Subperm ts) : ComeFrom ts ns := come.mono (.of_subperm among)

theorem ComeFrom.ofChildren {t : FormTree} {ns : List Node} (come : ComeFrom t.children ns) :
    ComeFrom [t] ns := come.mono (.children t)

/-- Some of the nodes. -/
theorem ComeFrom.front {ts : List FormTree} {ns ms : List Node} (come : ComeFrom ts (ns ++ ms)) :
    ComeFrom ts ns := by
  obtain ⟨us, yields, within⟩ := come
  exact ⟨us.take ns.length, List.forall₂_take_append us ns ms yields,
    (Tree.Within.of_subperm (List.take_sublist _ us).subperm).trans within⟩

theorem ComeFrom.behind {ts : List FormTree} {ns ms : List Node} (come : ComeFrom ts (ns ++ ms)) :
    ComeFrom ts ms := by
  obtain ⟨us, yields, within⟩ := come
  exact ⟨us.drop ns.length, List.forall₂_drop_append us ns ms yields,
    (Tree.Within.of_subperm (List.drop_sublist _ us).subperm).trans within⟩

/-- Where at most one node stands below another, it is enough that it comes from inside. -/
theorem GrownFrom.comeFrom {t : FormTree} {n : Node} (grown : GrownFrom t n)
    (few : n.children.length ≤ 1) : ComeFrom [t] n.children := by
  have children := grown.children
  cases below : n.children with
  | nil => exact .nil _
  | cons child others =>
    rw [below, List.length_cons] at few
    cases List.eq_nil_of_length_eq_zero (l := others) (by omega)
    obtain ⟨u, holds, yields⟩ := children child (below ▸ List.mem_cons_self)
    exact .single holds yields

/-! Expressions. -/

theorem comeFrom_parts {t : FormTree} {parts : List Part}
    (lowered : flatten t.nodes.parts [] = .ok parts) :
    ComeFrom [t] (parts.map Node.ofPart) := by
  refine ⟨t.nodes.parts.flatMap Tree.outermost, ?_, ?_⟩
  · rw [List.forall₂_map_right_iff]
    exact (flatten_eq_ok.mp lowered).imp fun _ _ => yields_of_partOf
  · exact (Tree.Within.flatMap _ fun u _ => u.within_outermost).trans (.parts t)

theorem comeFrom_keepParts {t : FormTree} {e : Expr} (lowered : keepParts t.info t.nodes = .ok e) :
    ComeFrom [t] (Node.childrenOfExpr e) := by
  obtain ⟨parts, flat, rfl⟩ := keepParts_eq_ok.mp lowered
  exact comeFrom_parts flat

/-- Both operands are taken by their labels, whatever the operator is taken by. -/
theorem labels_of_binaryParts {below : Siblings Forms} {lhs rhs l r : FormTree} {op : String}
    (found : binaryParts below = .ok (lhs, op, rhs)) (left : below.labelled? "left" = some l)
    (right : below.labelled? "right" = some r) : lhs = l ∧ rhs = r := by
  simp only [binaryParts, left, right] at found
  obtain ⟨operands, same, found⟩ := bind_eq_ok.mp found
  cases same
  split at found
  · cases found
    exact ⟨rfl, rfl⟩
  · cases found

theorem comeFrom_operands {t lhs rhs : FormTree} {op : String} {l r : Expr}
    (labelled : Labelled t) (kind : t.kind ∈ binaryKinds)
    (found : binaryParts t.nodes = .ok (lhs, op, rhs)) (left : lhs.value.expr = .ok l)
    (right : rhs.value.expr = .ok r) : ComeFrom [t] [.expr l, .expr r] := by
  have labels : labelsOf t = ["left", "right"] := by rw [labelsOf, if_pos kind]
  obtain ⟨first, isLeft⟩ := Siblings.exists_of_hasLabel (labelled.1 "left" (by simp [labels]))
  obtain ⟨second, isRight⟩ := Siblings.exists_of_hasLabel (labelled.1 "right" (by simp [labels]))
  obtain ⟨rfl, rfl⟩ := labels_of_binaryParts found isLeft isRight
  have apart := Siblings.subperm_of_labels ["left", "right"] (by decide)
    (.cons isLeft (.cons isRight .nil))
  have operands : ComeFrom [lhs, rhs] [.expr l, .expr r] :=
    .cons (.single .refl (.expr lhs l left)) (.single .refl (.expr rhs r right))
  exact (operands.subperm apart).ofChildren

/-- The bounds of a range that were read so far. -/
def RangeParts.nodes (parts : RangeParts) : List Node :=
  (parts.lo.map Node.expr).toList ++ (parts.hi.map Node.expr).toList

theorem comeFrom_add {us : List FormTree} {t : FormTree} {parts next : RangeParts}
    (come : ComeFrom us parts.nodes) (added : parts.add t = .ok next) :
    ComeFrom (t :: us) next.nodes := by
  unfold RangeParts.add at added
  split at added
  · cases pure_eq_ok.mp added
    exact come.subperm (List.sublist_cons_self t us).subperm
  split at added
  · obtain ⟨hi, ok, same⟩ := bind_eq_ok.mp added
    cases pure_eq_ok.mp same
    exact (come.front.append (.single .refl (.expr t hi ok))).subperm
      (List.perm_append_singleton t us).subperm
  · obtain ⟨lo, ok, same⟩ := bind_eq_ok.mp added
    cases pure_eq_ok.mp same
    exact .cons (.single .refl (.expr t lo ok)) come.behind

theorem comeFrom_fold {ts us : List FormTree} {parts result : RangeParts}
    (come : ComeFrom us parts.nodes) (folded : ts.foldlM RangeParts.add parts = .ok result) :
    ComeFrom (ts ++ us) result.nodes := by
  induction ts generalizing us parts with
  | nil =>
    cases folded
    exact come
  | cons t ts ih =>
    rw [List.foldlM_cons] at folded
    obtain ⟨next, added, folded⟩ := bind_eq_ok.mp folded
    exact (ih (comeFrom_add come added) folded).subperm List.perm_middle.subperm

theorem comeFrom_rangeOf {t : FormTree} {e : Expr} (lowered : rangeOf t.info t.nodes = .ok e) :
    ComeFrom [t] (Node.childrenOfExpr e) := by
  obtain ⟨parts, folded, same⟩ := bind_eq_ok.mp lowered
  cases pure_eq_ok.mp same
  have none : ComeFrom [] ({} : RangeParts).nodes := .nil []
  have spoken := comeFrom_fold none folded
  rw [List.append_nil] at spoken
  exact (spoken.subperm List.filter_sublist.subperm).ofChildren

theorem comeFrom_exprsOf {ts : List FormTree} {es : List Expr} (lowered : exprsOf ts = .ok es) :
    ComeFrom ts (es.map Node.expr) := by
  induction ts generalizing es with
  | nil =>
    cases lowered
    exact .nil []
  | cons t ts ih =>
    simp only [exprsOf, bind_eq_ok, pure_eq_ok] at lowered
    obtain ⟨first, ok, rest, others, rfl⟩ := lowered
    exact .cons (.single .refl (.expr t first ok)) (ih others)

theorem comeFrom_argumentsOf? {list? : Option FormTree} {args : List Expr}
    (lowered : argumentsOf? list? = .ok args) : ComeFrom list?.toList (args.map Node.expr) := by
  cases list? with
  | none =>
    cases lowered
    exact .nil []
  | some list =>
    rw [argumentsOf?, argumentsOf] at lowered
    cases inner : exprsOf (list.nodes.parts.filter fun t => t.kind != "attribute_item") with
    | error _ =>
      rw [inner] at lowered
      cases lowered
    | ok es =>
      rw [inner] at lowered
      cases lowered
      exact ((comeFrom_exprsOf inner).subperm
        (List.filter_sublist.trans List.filter_sublist).subperm).ofChildren

theorem function_apart_arguments {below : Siblings Forms} {func : FormTree}
    (isFunc : below.labelled? "function" = some func) (noList : func.kind ≠ "arguments") :
    (func :: ((below.labelled? "arguments").or (below.ofKind? "arguments")).toList).Subperm
      below := by
  have inside := Siblings.mem_of_labelled? below _ func isFunc
  cases arguments : (below.labelled? "arguments").or (below.ofKind? "arguments") with
  | none => exact List.singleton_subperm_iff.mpr inside
  | some list =>
    have listInside : list ∈ below := Siblings.mem_of_or arguments
      (Siblings.mem_of_labelled? _ _) (Siblings.mem_of_ofKind? _ _)
    have distinct : func ≠ list := by
      rintro rfl
      rcases Option.or_eq_some_iff.mp arguments with label | ⟨-, ofKind⟩
      · have labels := (Siblings.label_of_labelled? isFunc).symm.trans
          (Siblings.label_of_labelled? label)
        exact absurd labels (by decide)
      · exact noList (Siblings.kind_of_ofKind? below _ func ofKind)
    refine List.subperm_of_subset (by simpa using distinct) ?_
    exact List.cons_subset.mpr ⟨inside, List.cons_subset.mpr ⟨listInside, List.nil_subset _⟩⟩

/-! The parts of an `if`. -/

theorem comeFrom_elseOf? {clause? : Option FormTree} {els : Option Else}
    (lowered : elseOf? clause? = .ok els) :
    ComeFrom clause?.toList (els.map Node.ofElse).toList := by
  cases els with
  | none => exact .nil _
  | some target =>
    obtain ⟨clause, rfl, u, holds, yields⟩ := yields_of_elseOf? lowered
    exact .single holds yields

/-- What an `if` tests, its block and what follows `else` come from three children. -/
theorem comeFrom_branch {t value body : FormTree} {clause? : Option FormTree} {tested : Cond}
    {block : Block} {els : Option Else} (span : Span)
    (condition : ∃ u, value.Holds u ∧ Yields u (.ofCond tested))
    (blockOk : body.value.block = .ok block) (elsOk : elseOf? clause? = .ok els)
    (apart : (value :: body :: clause?.toList).Subperm t.children) :
    ComeFrom t.children (Node.childrenOfExpr (.branch ⟨tested, block, els, span⟩)) := by
  obtain ⟨u, holds, yields⟩ := condition
  have parts := ComeFrom.cons (.single holds yields)
    (.cons (.single .refl (.block body block blockOk)) (comeFrom_elseOf? elsOk))
  exact parts.subperm apart

/-- The else clause of an `if` is taken by its label if it is taken at all. -/
theorem alternative_of_labelled {t : FormTree} (kind : t.kind ∈ ifKinds) (labelled : Labelled t) :
    (t.nodes.labelled? "alternative").or (t.nodes.ofKind? "else_clause") =
      t.nodes.labelled? "alternative" := by
  cases found : t.nodes.ofKind? "else_clause" with
  | none => exact Option.or_none
  | some clause =>
    have hasKind : t.nodes.hasKind "else_clause" = true :=
      List.any_eq_true.mpr ⟨clause, Siblings.mem_of_ofKind? _ _ clause found,
        by rw [beq_iff_eq, Siblings.kind_of_ofKind? _ _ clause found]⟩
    have needed : "alternative" ∈ labelsOf t := by
      rcases List.mem_pair.mp kind with kind | kind <;>
        simp [labelsOf, kind, binaryKinds, hasKind]
    obtain ⟨target, label⟩ := Siblings.exists_of_hasLabel (labelled.1 "alternative" needed)
    rw [label, Option.some_or]

/-- Two children under labels of their own, and a third if its label is there. -/
theorem subperm_of_parts {below : Siblings Forms} {value body : FormTree} (label : String)
    (isValue : below.labelled? label = some value)
    (isBody : below.labelled? "consequence" = some body)
    (other : label ≠ "consequence" ∧ label ≠ "alternative") :
    (value :: body :: (below.labelled? "alternative").toList).Subperm below := by
  cases clause : below.labelled? "alternative" with
  | none =>
    exact Siblings.subperm_of_labels [label, "consequence"] (by simp [other])
      (.cons isValue (.cons isBody .nil))
  | some clause =>
    exact Siblings.subperm_of_labels [label, "consequence", "alternative"]
      (by simp [other]) (.cons isValue (.cons isBody (.cons ‹_› .nil)))

theorem comeFrom_ifOf {t : FormTree} {node : If} (labelled : Labelled t)
    (kind : t.kind = "if_expression") (lowered : ifOf t.info t.nodes = .ok (.branch node)) :
    ComeFrom t.children (Node.childrenOfExpr (.branch node)) := by
  have needed : "condition" ∈ labelsOf t ∧ "consequence" ∈ labelsOf t := by
    simp [labelsOf, kind, binaryKinds]
  obtain ⟨cond, isCond⟩ := Siblings.exists_of_hasLabel (labelled.1 _ needed.1)
  obtain ⟨body, isBody⟩ := Siblings.exists_of_hasLabel (labelled.1 _ needed.2)
  have condition : condition? t.nodes = some cond := by rw [condition?, isCond, Option.some_or]
  have consequence :
      (t.nodes.labelled? "consequence").or (t.nodes.ofKind? "block") = some body := by
    rw [isBody, Option.some_or]
  rw [ifOf_eq t.info t.nodes cond body condition consequence,
    alternative_of_labelled (by rw [kind]; decide) labelled] at lowered
  simp only [bind_eq_ok, pure_eq_ok] at lowered
  obtain ⟨els, elsOk, tested, condOk, block, blockOk, same⟩ := lowered
  cases same
  exact comeFrom_branch _ (yields_of_condOf condOk).1 blockOk elsOk
    (subperm_of_parts "condition" isCond isBody (by decide))

theorem comeFrom_ifLetOf {t : FormTree} {node : If} (labelled : Labelled t)
    (kind : t.kind = "if_let_expression") (lowered : ifLetOf t.info t.nodes = .ok (.branch node)) :
    ComeFrom t.children (Node.childrenOfExpr (.branch node)) := by
  have needed : "pattern" ∈ labelsOf t ∧ "value" ∈ labelsOf t ∧ "consequence" ∈ labelsOf t := by
    simp [labelsOf, kind, binaryKinds]
  obtain ⟨pattern, isPattern⟩ := Siblings.exists_of_hasLabel (labelled.1 _ needed.1)
  obtain ⟨value, isValue⟩ := Siblings.exists_of_hasLabel (labelled.1 _ needed.2.1)
  obtain ⟨body, isBody⟩ := Siblings.exists_of_hasLabel (labelled.1 _ needed.2.2)
  have parts : letParts t.nodes = (some pattern, some value) := by
    simp only [letParts, isPattern, isValue]
  rw [ifLetOf_eq, parts, isBody, Option.some_or,
    alternative_of_labelled (by rw [kind]; decide) labelled] at lowered
  simp only [bind_eq_ok, pure_eq_ok] at lowered
  obtain ⟨scrutinee, ok, block, blockOk, els, elsOk, same⟩ := lowered
  cases same
  exact comeFrom_branch _ ⟨value, .refl, .expr value scrutinee ok⟩ blockOk elsOk
    (subperm_of_parts "value" isValue isBody (by decide))

/-! Every expression. -/

/-- What stands below an expression was lowered from places apart. Only a node of the kind becomes
an `if`, and then the places are all below it. -/
inductive Apart (t : FormTree) : Expr → Prop
  | plain (e : Expr) (noBranch : ∀ node, e ≠ .branch node)
      (come : ComeFrom [t] (Node.childrenOfExpr e)) : Apart t e
  | branch (node : If) (kind : t.kind ∈ ifKinds)
      (come : ComeFrom t.children (Node.childrenOfExpr (.branch node))) : Apart t (.branch node)

/-- An expression around one other. -/
theorem apart_aroundOf {source : Source} {t : FormTree} {e : Expr} {operand : Option FormTree}
    {build : Expr → Expr} (formed : Formed source t) (lowered : t.value.expr = .ok e)
    (around : t.value.expr = aroundOf t.info operand build)
    (noBranch : ∀ inner node, build inner ≠ .branch node)
    (children : ∀ inner, Node.childrenOfExpr (build inner) = [.expr inner]) : Apart t e := by
  have grown := grown_expr formed lowered
  rw [around] at lowered
  cases operand with
  | none =>
    cases lowered
    exact .plain _ (by rintro _ ⟨⟩) (grown.comeFrom (Nat.zero_le 1))
  | some u =>
    obtain ⟨inner, -, rfl⟩ := aroundOf_eq_ok.mp lowered
    refine .plain _ (noBranch inner) (grown.comeFrom ?_)
    rw [Node.children, children, List.length_singleton]

theorem apart_keepParts {t : FormTree} {e : Expr} (lowered : keepParts t.info t.nodes = .ok e) :
    Apart t e := by
  have come := comeFrom_keepParts lowered
  obtain ⟨parts, -, rfl⟩ := keepParts_eq_ok.mp lowered
  exact .plain _ (by rintro _ ⟨⟩) come

/-- What is called comes from the node under the label, and the arguments from another. -/
theorem apart_callOf {t : FormTree} {e : Expr} (labelled : Labelled t)
    (kind : t.kind = "call_expression") (lowered : callOf t.info t.nodes = .ok e) :
    Apart t e := by
  have labels : labelsOf t = ["function"] := by simp [labelsOf, kind, binaryKinds]
  obtain ⟨func, isFunc⟩ := Siblings.exists_of_hasLabel (labelled.1 "function" (by simp [labels]))
  have noList : func.kind ≠ "arguments" := by simpa [isFunc] using labelled.2 kind
  rw [callOf_eq] at lowered
  obtain ⟨args, argsOk, lowered⟩ := bind_eq_ok.mp lowered
  have ofCallee (callee : Node) (come : ComeFrom [func] [callee]) :
      ComeFrom [t] (callee :: args.map Node.expr) :=
    ((come.cons (comeFrom_argumentsOf? argsOk)).subperm
      (function_apart_arguments isFunc noList)).ofChildren
  simp only [callWith, isFunc, Option.some_or] at lowered
  split at lowered
  · next receiver method hit named =>
    obtain ⟨inner, ok, same⟩ := bind_eq_ok.mp lowered
    cases pure_eq_ok.mp same
    have inReceiver : receiver ∈ func.nodes := by
      split at hit
      · exact Siblings.mem_of_or hit (Siblings.mem_of_labelled? _ _) (Siblings.mem_of_firstPart? _)
      · cases hit
    exact .plain _ (by rintro _ ⟨⟩)
      (ofCallee _ (.single (.single inReceiver) (.expr receiver inner ok)))
  · obtain ⟨inner, ok, same⟩ := bind_eq_ok.mp lowered
    cases pure_eq_ok.mp same
    exact .plain _ (by rintro _ ⟨⟩)
      (ofCallee _ (.single .refl (.expr func inner ok)))

theorem apart_of_expr {source : Source} {t : FormTree} {e : Expr} (formed : Formed source t)
    (labelled : Labelled t) (lowered : t.value.expr = .ok e) : Apart t e := by
  have grown := grown_expr formed lowered
  have is := formed.expr
  by_cases binary : t.info.kind ∈ binaryKinds
  · obtain ⟨lhs, op, rhs, l, r, parts, left, right, rfl | rfl⟩ :=
      exprOf_operands (is.symm.trans lowered) binary
    all_goals
      exact .plain _ (by rintro _ ⟨⟩)
        (comeFrom_operands labelled binary parts left right)
  by_cases other : t.info.kind ∉ placedKinds ∨
      t.info.kind ∈ ["expression_statement", "let_declaration"]
  · rw [is, exprOf_other other] at lowered
    exact apart_keepParts lowered
  obtain ⟨placed, noStatement⟩ := not_or.mp other
  have which := Decidable.not_not.mp placed
  simp only [placedKinds, List.mem_append, binary, false_or, List.mem_cons, List.not_mem_nil,
    or_false, not_or] at which noStatement
  rcases which with
    kind | kind | kind | kind | kind | kind | kind | kind | kind | kind | kind | kind | kind
  · obtain ⟨block, ok, rfl⟩ := exprOf_block (is.symm.trans lowered) kind
    exact .plain _ (by rintro _ ⟨⟩) (grown.comeFrom (Nat.le_refl 1))
  · exact absurd kind noStatement.1
  · exact absurd kind noStatement.2
  · rw [is, exprOf_if kind] at lowered
    rcases ifOf_eq_ok lowered with kept | ⟨_, _, _, _, _, -, -, -, -, -, rfl⟩
    · exact apart_keepParts kept
    · exact .branch _ (by rw [Tree.kind, kind]; decide) (comeFrom_ifOf labelled kind lowered)
  · rw [is, exprOf_ifLet kind] at lowered
    obtain ⟨node, rfl⟩ := ifLetOf_branch lowered
    exact .branch node (by rw [Tree.kind, kind]; decide) (comeFrom_ifLetOf labelled kind lowered)
  · exact apart_aroundOf formed lowered (is.trans (exprOf_unary kind))
      (by rintro _ _ ⟨⟩) fun _ => rfl
  · exact apart_aroundOf formed lowered (is.trans (exprOf_reference kind))
      (by rintro _ _ ⟨⟩) fun _ => rfl
  · rw [is, exprOf_castOf kind, castOf] at lowered
    split at lowered
    · obtain ⟨inner, -, same⟩ := bind_eq_ok.mp lowered
      cases pure_eq_ok.mp same
      exact .plain _ (by rintro _ ⟨⟩) (grown.comeFrom (Nat.le_refl 1))
    · cases lowered
      exact .plain _ (by rintro _ ⟨⟩) (grown.comeFrom (Nat.zero_le 1))
  · rw [is, exprOf_range kind] at lowered
    have come := comeFrom_rangeOf lowered
    obtain ⟨parts, -, same⟩ := bind_eq_ok.mp lowered
    cases pure_eq_ok.mp same
    exact .plain _ (by rintro _ ⟨⟩) come
  · exact apart_aroundOf formed lowered (is.trans (exprOf_closure kind))
      (by rintro _ _ ⟨⟩) fun _ => rfl
  · exact apart_aroundOf formed lowered (is.trans (exprOf_paren kind))
      (by rintro _ _ ⟨⟩) fun _ => rfl
  · rw [is, exprOf_call kind] at lowered
    exact apart_callOf labelled kind lowered
  · rw [is, exprOf_macroCall kind] at lowered
    cases lowered
    exact .plain _ (by rintro _ ⟨⟩) (.nil _)

/-! Statements and items. -/

theorem comeFrom_formOf? {α : Type} {form : FormTree → Except LowerError α}
    {t? : Option FormTree} {result : Option α} (node : α → Node)
    (yields : ∀ t a, form t = .ok a → Yields t (node a)) (lowered : formOf? form t? = .ok result) :
    ComeFrom t?.toList (result.map node).toList := by
  cases result with
  | none => exact .nil _
  | some a =>
    obtain ⟨t, rfl, ok⟩ := of_formOf? lowered
    exact .single .refl (yields t a ok)

/-- The value and the block of a `let` are taken by their labels if they are taken at all. -/
theorem labels_of_let {t : FormTree} (labelled : Labelled t) (kind : t.kind = "let_declaration") :
    (t.nodes.labelled? "value").or (t.nodes.partAfter? "=") = t.nodes.labelled? "value" ∧
      (t.nodes.labelled? "alternative").or (t.nodes.partAfter? "else") =
        t.nodes.labelled? "alternative" := by
  have byLabel (token label : String)
      (needed : t.nodes.hasToken token = true → label ∈ labelsOf t) :
      (t.nodes.labelled? label).or (t.nodes.partAfter? token) = t.nodes.labelled? label := by
    cases token? : t.nodes.hasToken token with
    | false => rw [Siblings.partAfter?_of_noToken token?, Option.or_none]
    | true =>
      obtain ⟨u, found⟩ := Siblings.exists_of_hasLabel (labelled.1 label (needed token?))
      rw [found, Option.some_or]
  constructor
  · refine byLabel "=" "value" fun token => ?_
    simp [labelsOf, kind, binaryKinds, token]
  · refine byLabel "else" "alternative" fun token => ?_
    simp [labelsOf, kind, binaryKinds, token]

theorem comeFrom_bindingOf {t : FormTree} {s : Stmt} (labelled : Labelled t)
    (kind : t.kind = "let_declaration") (lowered : bindingOf t = .ok (some s)) :
    ComeFrom [t] (Node.childrenOfStmt s) := by
  obtain ⟨isValue, isBlock⟩ := labels_of_let labelled kind
  simp only [bindingOf_eq, isValue, isBlock, bind_eq_ok, pure_eq_ok] at lowered
  obtain ⟨init, initOk, els, elsOk, same⟩ := lowered
  cases same
  have parts := (comeFrom_formOf? Node.expr .expr initOk).append
    (comeFrom_formOf? Node.block .block elsOk)
  refine (parts.subperm ?_).ofChildren
  cases value : t.nodes.labelled? "value" <;>
    cases block : t.nodes.labelled? "alternative"
  · exact List.nil_subperm
  · exact Siblings.subperm_of_labels ["alternative"] (by decide) (.cons block .nil)
  · exact Siblings.subperm_of_labels ["value"] (by decide) (.cons value .nil)
  · exact Siblings.subperm_of_labels ["value", "alternative"] (by decide)
      (.cons value (.cons block .nil))

theorem comeFrom_stmt {t : FormTree} {attributes : List FormTree} {s : Stmt}
    (labelled : Labelled t) (lowered : stmtOf t attributes = .ok (some s)) :
    ComeFrom [t] (Node.childrenOfStmt s) := by
  have grown := grown_stmt lowered
  unfold stmtOf at lowered
  split at lowered
  · cases lowered
  split at lowered
  · rcases exprStmtOf_eq_ok lowered with ⟨-, none⟩ | ⟨inner, e, -, -, same⟩
    · cases none
    · cases same
      exact grown.comeFrom (Nat.le_refl 1)
  split at lowered
  · next kind => exact comeFrom_bindingOf labelled kind lowered
  split at lowered
  all_goals
    obtain ⟨inner, -, same⟩ := bind_eq_ok.mp lowered
    cases pure_eq_ok.mp same
    exact grown.comeFrom (Nat.le_refl 1)

theorem comeFrom_stmtsOf {attributes ts : List FormTree} {stmts : List Stmt}
    (lowered : stmtsOf attributes ts = .ok stmts) : ComeFrom ts (stmts.map Node.stmt) := by
  induction ts generalizing attributes stmts with
  | nil =>
    cases lowered
    exact .nil []
  | cons t ts ih =>
    rw [stmtsOf] at lowered
    split at lowered
    · exact (ih lowered).subperm (List.sublist_cons_self t ts).subperm
    · simp only [bind_eq_ok, pure_eq_ok] at lowered
      obtain ⟨stmt?, first, rest, others, rfl⟩ := lowered
      cases stmt? with
      | none => exact (ih others).subperm (List.sublist_cons_self t ts).subperm
      | some s => exact .cons (.single .refl (.stmt t attributes s first)) (ih others)

theorem comeFrom_itemsOf {exported : Bool} {attributes ts : List FormTree} {items : List Item}
    (lowered : itemsOf exported attributes ts = .ok items) :
    ComeFrom ts (items.map Node.item) := by
  induction ts generalizing attributes items with
  | nil =>
    cases lowered
    exact .nil []
  | cons t ts ih =>
    rw [itemsOf] at lowered
    split at lowered
    · exact (ih lowered).subperm (List.sublist_cons_self t ts).subperm
    split at lowered
    · simp only [bind_eq_ok, pure_eq_ok] at lowered
      obtain ⟨first, ok, rest, others, rfl⟩ := lowered
      exact .cons (.single .refl (.item t attributes exported first ok)) (ih others)
    · exact (ih lowered).subperm (List.sublist_cons_self t ts).subperm

theorem comeFrom_implItemsOf {exported : Bool} {ts : List FormTree} {items : List Item}
    (lowered : implItemsOf exported ts = .ok items) : ComeFrom ts (items.map Node.item) := by
  induction ts generalizing items with
  | nil =>
    cases lowered
    exact .nil []
  | cons t ts ih =>
    rw [implItemsOf] at lowered
    split at lowered
    · simp only [bind_eq_ok, pure_eq_ok] at lowered
      obtain ⟨f, ok, rest, others, rfl⟩ := lowered
      exact .cons (.single .refl (.method t exported f ok)) (ih others)
    split at lowered
    · simp only [bind_eq_ok, pure_eq_ok] at lowered
      obtain ⟨rest, others, rfl⟩ := lowered
      exact .cons (.single .refl (.member t)) (ih others)
    · exact (ih lowered).subperm (List.sublist_cons_self t ts).subperm

section Items

variable {source : Source} {t : FormTree} (formed : Formed source t)

include formed

theorem comeFrom_items {exported : Bool} {items : List Item}
    (lowered : t.value.items exported = .ok items) : ComeFrom [t] (items.map Node.item) := by
  rw [formed.items] at lowered
  exact (comeFrom_itemsOf lowered).mono (.parts t)

omit formed in
theorem comeFrom_impl {exported : Bool} {i : ImplBlock} (lowered : implOf t exported = .ok i) :
    ComeFrom [t] (i.items.map Node.item) := by
  simp only [implOf] at lowered
  split at lowered
  · cases lowered
  obtain ⟨items, itemsOk, same⟩ := bind_eq_ok.mp lowered
  cases pure_eq_ok.mp same
  have members := comeFrom_implItemsOf itemsOk
  cases found : t.nodes.ofKind? "declaration_list" with
  | none =>
    rw [found] at members
    exact members.subperm List.nil_subperm
  | some list =>
    rw [found] at members
    exact members.mono ((Tree.Within.parts list).trans
      (.of_holds (.child (Siblings.mem_of_ofKind? _ _ list found))))

theorem comeFrom_mod {exported : Bool} {m : ModItem} (lowered : modOf t exported = .ok m) :
    ComeFrom [t] (m.items.map Node.item) := by
  cases found : t.nodes.ofKind? "declaration_list" with
  | none =>
    simp only [modOf, found] at lowered
    cases lowered
    exact .nil _
  | some list =>
    have child := Siblings.mem_of_ofKind? _ _ list found
    simp only [modOf, found] at lowered
    obtain ⟨items, ok, same⟩ := bind_eq_ok.mp lowered
    cases pure_eq_ok.mp same
    exact (comeFrom_items (formed.child child) ok).mono (.of_holds (.child child))

theorem comeFrom_block {b : Block} (lowered : t.value.block = .ok b) :
    ComeFrom [t] (b.stmts.map Node.stmt) := by
  have stmts := stmts_of_block source t b formed lowered
  exact (comeFrom_stmtsOf stmts).mono (.parts t)

theorem comeFrom_fn {exported : Bool} {f : FnItem} (lowered : fnOf t exported = .ok f) :
    ComeFrom [t] (Node.childrenOfItem (.fn f)) := by
  refine (grown_fn formed lowered).comeFrom ?_
  cases body : f.body <;> simp [Node.children, Node.childrenOfItem, body]

theorem comeFrom_item {attributes : List FormTree} {exported : Bool} {i : Item}
    (lowered : itemOf t attributes exported = .ok i) :
    ComeFrom [t] (Node.childrenOfItem i) := by
  unfold itemOf at lowered
  dsimp only at lowered
  iterate 4
    split at lowered
    · cases lowered
      exact .nil _
  split at lowered
  · obtain ⟨block, ok, rfl⟩ := map_eq_ok.mp lowered
    exact comeFrom_impl ok
  split at lowered
  · obtain ⟨f, ok, rfl⟩ := map_eq_ok.mp lowered
    exact comeFrom_fn formed ok
  split at lowered
  · obtain ⟨m, ok, rfl⟩ := map_eq_ok.mp lowered
    exact comeFrom_mod formed ok
  · cases lowered
    exact .nil _

/-- Whatever a node becomes, what stands below that was lowered from places apart. -/
theorem comeFrom_of_yields (labelled : Labelled t) {n : Node} (yields : Yields t n) :
    ComeFrom [t] n.children := by
  cases yields with
  | expr e lowered =>
    cases apart_of_expr formed labelled lowered with
    | plain _ _ come => exact come
    | branch _ _ come => exact come.ofChildren
  | block b lowered => exact comeFrom_block formed lowered
  | stmt attributes s lowered => exact comeFrom_stmt labelled lowered
  | item attributes exported i lowered => exact comeFrom_item formed lowered
  | method exported f lowered => exact comeFrom_fn formed lowered
  | member => exact .nil _
  | chain parts lowered => exact comeFrom_parts lowered
  | unknown => exact .nil _
  | file items lowered => exact comeFrom_items formed lowered

end Items

end RustLint.Lowering
