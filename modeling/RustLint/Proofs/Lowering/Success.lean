import Mathlib.Data.List.Forall2
import RustLint.Proofs.Lowering.Evaluation
import RustLint.Lowering
import RustLint.Syntax.Node

set_option autoImplicit false

namespace RustLint.Lowering

theorem bind_eq_ok {ε α β : Type} {x : Except ε α} {next : α → Except ε β} {b : β} :
    (x >>= next) = .ok b ↔ ∃ a, x = .ok a ∧ next a = .ok b := by
  cases x with
  | error e => simp [bind, Except.bind]
  | ok a => simp [bind, Except.bind]

theorem map_eq_ok {ε α β : Type} {x : Except ε α} {g : α → β} {b : β} :
    (g <$> x) = .ok b ↔ ∃ a, x = .ok a ∧ g a = b := by
  cases x with
  | error e => simp [Functor.map, Except.map]
  | ok a => simp [Functor.map, Except.map]

theorem pure_eq_ok {ε α : Type} {a b : α} : (pure a : Except ε α) = .ok b ↔ a = b :=
  ⟨fun success => Except.ok.inj success, fun same => same ▸ rfl⟩

theorem mapM_eq_ok {ε α β : Type} {f : α → Except ε β} {as : List α} {bs : List β} :
    as.mapM f = .ok bs ↔ List.Forall₂ (fun a b => f a = .ok b) as bs := by
  induction as generalizing bs with
  | nil => rw [List.mapM_nil, pure_eq_ok, List.forall₂_nil_left_iff, eq_comm]
  | cons a as ih =>
    simp only [List.mapM_cons, bind_eq_ok, pure_eq_ok, ih, List.forall₂_cons_left_iff]
    constructor
    · rintro ⟨b, first, more, others, rfl⟩
      exact ⟨b, more, first, others, rfl⟩
    · rintro ⟨b, more, first, others, rfl⟩
      exact ⟨b, first, more, others, rfl⟩

theorem exists_mem_of_forall₂ {α β : Type} {R : α → β → Prop} {as : List α} {bs : List β}
    (all : List.Forall₂ R as bs) (a : α) (listed : a ∈ as) : ∃ b ∈ bs, R a b := by
  induction all with
  | nil => cases listed
  | cons here _ ih =>
    rcases List.mem_cons.mp listed with rfl | later
    · exact ⟨_, List.mem_cons_self, here⟩
    · exact List.exists_mem_cons_of_exists (ih later)

theorem keepParts_eq_ok {info : NodeInfo} {below : Siblings Forms} {e : Expr} :
    keepParts info below = .ok e ↔
      ∃ parts, flatten below.parts [] = .ok parts ∧ Expr.other info.kind parts info.span = e := by
  simp only [keepParts, bind_eq_ok, pure_eq_ok]

theorem aroundOf_eq_ok {info : NodeInfo} {t : FormTree} {build : Expr → Expr} {e : Expr} :
    aroundOf info (some t) build = .ok e ↔ ∃ inner, t.value.expr = .ok inner ∧ build inner = e := by
  simp only [aroundOf, bind_eq_ok, pure_eq_ok]

/-- The operands and the operator under their labels are the ones taken. -/
theorem binaryParts_of_labels {below : Siblings Forms} {lhs rhs op : FormTree}
    (left : below.labelled? "left" = some lhs) (right : below.labelled? "right" = some rhs)
    (operator : below.labelled? "operator" = some op) :
    binaryParts below = .ok (lhs, op.value.text, rhs) := by
  simp [binaryParts, left, right, operator, bind, Except.bind]

/-- The expressions of the listed nodes are all there. -/
theorem mem_of_exprsOf {ts : List FormTree} {es : List Expr} (lowered : exprsOf ts = .ok es)
    (t : FormTree) (listed : t ∈ ts) : ∃ e ∈ es, t.value.expr = .ok e := by
  induction ts generalizing es with
  | nil => cases listed
  | cons u us ih =>
    simp only [exprsOf, bind_eq_ok, pure_eq_ok] at lowered
    obtain ⟨first, firstOk, rest, restOk, rfl⟩ := lowered
    rcases List.mem_cons.mp listed with rfl | later
    · exact ⟨first, List.mem_cons_self, firstOk⟩
    · obtain ⟨e, inRest, ok⟩ := ih restOk later
      exact ⟨e, List.mem_cons_of_mem _ inRest, ok⟩

theorem mem_of_argumentsOf {list : FormTree} {es : List Expr}
    (lowered : argumentsOf list = .ok es) (t : FormTree) (part : t ∈ list.nodes.parts)
    (noAttribute : t.kind ≠ "attribute_item") : ∃ e ∈ es, t.value.expr = .ok e := by
  unfold argumentsOf at lowered
  cases found : exprsOf (list.nodes.parts.filter fun t => t.kind != "attribute_item") with
  | error e =>
    rw [found] at lowered
    cases lowered
  | ok inner =>
    rw [found] at lowered
    cases lowered
    exact mem_of_exprsOf found t (List.mem_filter.mpr ⟨part, by simpa using noAttribute⟩)

/-- Looking a child up and looking up its place come to the same. -/
theorem bind_findIdx? {α : Type} (p : α → Bool) (l : List α) :
    (l.findIdx? p).bind (l[·]?) = l.find? p := by
  induction l with
  | nil => rfl
  | cons a l ih =>
    rw [List.findIdx?_cons, List.find?_cons]
    cases p a with
    | true => rfl
    | false => simpa [Option.bind_map, Function.comp_def] using ih

/-- What stands at the first of two places is what is looked up first. -/
theorem bind_or_findIdx? (p q : FormTree → Bool) (below : Siblings Forms) :
    ((below.findIdx? p).or (below.findIdx? q)).bind (below[·]?) =
      (below.find? p).or (below.find? q) := by
  rw [← bind_findIdx? p, ← bind_findIdx? q]
  cases found : below.findIdx? p with
  | none => simp
  | some i =>
    have inside : i < below.length := (List.findIdx?_eq_some_iff_getElem.mp found).1
    simp [List.getElem?_eq_getElem inside]

theorem bodyPlace_eq (below : Siblings Forms) :
    (branchPlaces below).1.bind (below[·]?) =
      (below.labelled? "consequence").or (below.ofKind? "block") := bind_or_findIdx? _ _ below

theorem elsePlace_eq (below : Siblings Forms) :
    (branchPlaces below).2.bind (below[·]?) =
      (below.labelled? "alternative").or (below.ofKind? "else_clause") := bind_or_findIdx? _ _ below

/-- An expression statement is the expression in it; without one it is no statement. -/
theorem exprStmtOf_eq_ok {t : FormTree} {stmt? : Option Stmt} (lowered : exprStmtOf t = .ok stmt?) :
    (t.nodes.firstPart? = none ∧ stmt? = none) ∨
      ∃ inner e, t.nodes.firstPart? = some inner ∧ inner.value.expr = .ok e ∧
        stmt? = some (.expr e (t.nodes.hasKind ";") t.span) := by
  unfold exprStmtOf at lowered
  split at lowered
  · next nothing => exact .inl ⟨nothing, (Except.ok.inj lowered).symm⟩
  · next inner first =>
    simp only [bind_eq_ok, pure_eq_ok] at lowered
    obtain ⟨e, ok, rfl⟩ := lowered
    exact .inr ⟨inner, e, first, ok, rfl⟩

/-- The form of a node that may be missing. -/
def formOf? {α : Type} (form : FormTree → Except LowerError α) :
    Option FormTree → Except LowerError (Option α)
  | some t => some <$> form t
  | none => .ok none

theorem formOf?_eq_ok {α : Type} {form : FormTree → Except LowerError α} {t : FormTree}
    {result : Option α} (lowered : formOf? form (some t) = .ok result) :
    ∃ a, form t = .ok a ∧ result = some a := by
  obtain ⟨a, ok, same⟩ := map_eq_ok.mp lowered
  exact ⟨a, ok, same.symm⟩

theorem bindingOf_eq (t : FormTree) :
    bindingOf t = (do
      let init ← formOf? (·.value.expr) ((t.nodes.labelled? "value").or (t.nodes.partAfter? "="))
      let els ← formOf? (·.value.block)
        ((t.nodes.labelled? "alternative").or (t.nodes.partAfter? "else"))
      return some (.binding init els t.span)) := by
  simp only [bindingOf]
  cases (t.nodes.labelled? "value").or (t.nodes.partAfter? "=") <;>
    cases (t.nodes.labelled? "alternative").or (t.nodes.partAfter? "else") <;> rfl

/-- A `let` is a statement; its value and the block behind its `else` are in it. -/
theorem bindingOf_eq_ok {t : FormTree} {stmt? : Option Stmt} (lowered : bindingOf t = .ok stmt?) :
    ∃ init els, stmt? = some (.binding init els t.span) ∧
      (∀ value, t.nodes.labelled? "value" = some value →
        ∃ e, value.value.expr = .ok e ∧ init = some e) ∧
      (∀ block, t.nodes.labelled? "alternative" = some block →
        ∃ b, block.value.block = .ok b ∧ els = some b) := by
  simp only [bindingOf_eq, bind_eq_ok, pure_eq_ok] at lowered
  obtain ⟨init, initOk, els, elsOk, rfl⟩ := lowered
  refine ⟨init, els, rfl, ?_, ?_⟩
  · intro value label
    rw [label, Option.some_or] at initOk
    exact formOf?_eq_ok initOk
  · intro block label
    rw [label, Option.some_or] at elsOk
    exact formOf?_eq_ok elsOk

/-! The parts of an `if`. -/

/-- What an `if` tests, from the node of its condition. -/
def condOf (cond : FormTree) : Except LowerError Cond :=
  if cond.kind = "let_condition" then
    match (cond.nodes.labelled? "value").or cond.nodes.lastPart? with
    | none => .error .noLetValue
    | some value => do
      let pattern := (cond.nodes.labelled? "pattern").or cond.nodes.firstPart?
      return .binds ((pattern.map Tree.span).getD cond.span) (← value.value.expr)
  else if cond.kind = "let_chain" then do
    let parts ← flatten cond.nodes.parts []
    return .binds cond.span (.other "let_chain" parts cond.span)
  else return .test (← cond.value.expr)

theorem condOf_test {cond : FormTree} {tested : Cond} (lowered : condOf cond = .ok tested)
    (plain : cond.kind ∉ ["let_condition", "let_chain"]) :
    ∃ e, cond.value.expr = .ok e ∧ tested = .test e := by
  simp only [List.mem_cons, List.not_mem_nil, or_false, not_or] at plain
  rw [condOf, if_neg plain.1, if_neg plain.2] at lowered
  obtain ⟨e, ok, same⟩ := bind_eq_ok.mp lowered
  exact ⟨e, ok, (pure_eq_ok.mp same).symm⟩

theorem condOf_letCondition {cond value : FormTree} {tested : Cond}
    (lowered : condOf cond = .ok tested) (kind : cond.kind = "let_condition")
    (label : cond.nodes.labelled? "value" = some value) :
    ∃ pattern e, value.value.expr = .ok e ∧ tested = .binds pattern e := by
  simp only [condOf, if_pos kind, label, Option.some_or] at lowered
  obtain ⟨e, ok, same⟩ := bind_eq_ok.mp lowered
  exact ⟨_, e, ok, (pure_eq_ok.mp same).symm⟩

theorem condOf_letChain {cond : FormTree} {tested : Cond} (lowered : condOf cond = .ok tested)
    (kind : cond.kind = "let_chain") :
    ∃ parts, flatten cond.nodes.parts [] = .ok parts ∧
      tested = .binds cond.span (.other "let_chain" parts cond.span) := by
  rw [condOf, if_neg (by rw [kind]; decide), if_pos kind] at lowered
  obtain ⟨parts, ok, same⟩ := bind_eq_ok.mp lowered
  exact ⟨parts, ok, (pure_eq_ok.mp same).symm⟩

/-- The node that an `if` has as its condition: the labelled one, else the first that is neither
its block nor its else clause. -/
def condition? (below : Siblings Forms) : Option FormTree :=
  (below.labelled? "condition").or (branchRest below).head?

theorem ifOf_eq (info : NodeInfo) (below : Siblings Forms) (cond body : FormTree)
    (condition : condition? below = some cond)
    (consequence : (below.labelled? "consequence").or (below.ofKind? "block") = some body) :
    ifOf info below = (do
      let els ← elseOf? ((below.labelled? "alternative").or (below.ofKind? "else_clause"))
      let tested ← condOf cond
      let block ← body.value.block
      return .branch ⟨tested, block, els, info.span⟩) := by
  rw [← elsePlace_eq]
  rw [condition?] at condition
  have body? := (bodyPlace_eq below).trans consequence
  simp only [ifOf, condition, body?]
  congr 1
  funext els
  unfold condOf
  by_cases isLet : cond.kind = "let_condition"
  · simp only [if_pos isLet]
    cases (cond.nodes.labelled? "value").or cond.nodes.lastPart? with
    | none => rfl
    | some value => simp only [bind_assoc, pure_bind]
  · simp only [if_neg isLet]
    by_cases isChain : cond.kind = "let_chain"
    · simp only [if_pos isChain, bind_assoc, pure_bind]
    · simp only [if_neg isChain, bind_assoc, pure_bind]

/-- An `if` without a condition or without a block is kept by its parts. -/
theorem ifOf_eq_keepParts (info : NodeInfo) (below : Siblings Forms)
    (missing : condition? below = none ∨
      (below.labelled? "consequence").or (below.ofKind? "block") = none) :
    ifOf info below = keepParts info below := by
  rw [← bodyPlace_eq, condition?] at missing
  rcases missing with noCondition | noBody
  · simp only [ifOf, noCondition]
  · simp only [ifOf, noBody]
    cases (below.labelled? "condition").or (branchRest below).head? <;> rfl

theorem mem_of_mem_branchRest (below : Siblings Forms) (t : FormTree)
    (listed : t ∈ branchRest below) : t ∈ below := by
  obtain ⟨⟨u, i⟩, kept, rfl⟩ := List.mem_map.mp listed
  have place := (List.mem_filter.mp kept).1
  exact List.mem_of_getElem? (List.mk_mem_zipIdx_iff_getElem?.mp place)

theorem mem_of_condition? (below : Siblings Forms) (cond : FormTree)
    (condition : condition? below = some cond) : cond ∈ below := by
  rcases Option.or_eq_some_iff.mp condition with label | ⟨-, first⟩
  · exact Siblings.mem_of_labelled? below _ cond label
  · exact mem_of_mem_branchRest below cond (List.mem_of_head? first)

/-- A lowered `if` has a condition and a block, or it is kept by its parts. -/
theorem ifOf_eq_ok {info : NodeInfo} {below : Siblings Forms} {e : Expr}
    (lowered : ifOf info below = .ok e) :
    keepParts info below = .ok e ∨
      ∃ cond body tested block els, cond ∈ below ∧
        (below.labelled? "consequence").or (below.ofKind? "block") = some body ∧
        elseOf? ((below.labelled? "alternative").or (below.ofKind? "else_clause")) = .ok els ∧
        condOf cond = .ok tested ∧ body.value.block = .ok block ∧
        e = .branch ⟨tested, block, els, info.span⟩ := by
  cases condition : condition? below with
  | none => exact .inl (ifOf_eq_keepParts info below (.inl condition) ▸ lowered)
  | some cond =>
    cases consequence : (below.labelled? "consequence").or (below.ofKind? "block") with
    | none => exact .inl (ifOf_eq_keepParts info below (.inr consequence) ▸ lowered)
    | some body =>
      rw [ifOf_eq info below cond body condition consequence] at lowered
      simp only [bind_eq_ok, pure_eq_ok] at lowered
      obtain ⟨els, elsOk, tested, condOk, block, blockOk, same⟩ := lowered
      exact .inr ⟨cond, body, tested, block, els, mem_of_condition? below cond condition, rfl,
        elsOk, condOk, blockOk, same.symm⟩

/-- The pattern and the value of an `if let` of the older grammar, each where there is one. -/
def letParts (below : Siblings Forms) : Option FormTree × Option FormTree :=
  let labelled := (below.labelled? "pattern", below.labelled? "value")
  match labelled with
  | (some pattern, some value) => (some pattern, some value)
  | _ =>
    match branchRest below with
    | first :: second :: more => (some first, some ((second :: more).getLast (List.cons_ne_nil _ _)))
    | _ => labelled

theorem mem_of_letParts (below : Siblings Forms) (t : FormTree)
    (found : (letParts below).1 = some t ∨ (letParts below).2 = some t) : t ∈ below := by
  have labelled {label : String} (found : below.labelled? label = some t) : t ∈ below :=
    Siblings.mem_of_labelled? below label t found
  unfold letParts at found
  dsimp only at found
  split at found
  · next pattern value both =>
    obtain ⟨left, right⟩ := Prod.mk.inj both
    exact found.elim (fun same => labelled (left.trans same)) fun same =>
      labelled (right.trans same)
  · split at found
    · next first second more rest =>
      apply mem_of_mem_branchRest
      rw [rest]
      rcases found with same | same
      · cases same
        exact List.mem_cons_self
      · cases same
        exact List.mem_cons_of_mem _ (List.getLast_mem _)
    · exact found.elim labelled labelled

theorem ifLetOf_eq (info : NodeInfo) (below : Siblings Forms) :
    ifLetOf info below =
      match (letParts below).1, (letParts below).2,
        (below.labelled? "consequence").or (below.ofKind? "block") with
      | some pattern, some value, some body => do
        let scrutinee ← value.value.expr
        let block ← body.value.block
        let els ← elseOf? ((below.labelled? "alternative").or (below.ofKind? "else_clause"))
        return .branch ⟨.binds pattern.span scrutinee, block, els, info.span⟩
      | _, _, _ => .error .malformedIfLet := by
  rw [← bodyPlace_eq, ← elsePlace_eq]
  rfl

/-- A lowered `if let` of the older grammar has all of its parts. -/
theorem ifLetOf_eq_ok {info : NodeInfo} {below : Siblings Forms} {e : Expr}
    (lowered : ifLetOf info below = .ok e) :
    ∃ pattern value body scrutinee block els, letParts below = (some pattern, some value) ∧
      (below.labelled? "consequence").or (below.ofKind? "block") = some body ∧
      value.value.expr = .ok scrutinee ∧ body.value.block = .ok block ∧
      elseOf? ((below.labelled? "alternative").or (below.ofKind? "else_clause")) = .ok els ∧
      e = .branch ⟨.binds pattern.span scrutinee, block, els, info.span⟩ := by
  rw [ifLetOf_eq] at lowered
  split at lowered
  · next pattern value body first second third =>
    simp only [bind_eq_ok, pure_eq_ok] at lowered
    obtain ⟨scrutinee, ok, block, blockOk, els, elsOk, same⟩ := lowered
    exact ⟨pattern, value, body, scrutinee, block, els, Prod.ext first second, third, ok, blockOk,
      elsOk, same.symm⟩
  · cases lowered

/-- An `if let` of the older grammar is lowered to an `if` or not at all. -/
theorem ifLetOf_branch {info : NodeInfo} {below : Siblings Forms} {e : Expr}
    (lowered : ifLetOf info below = .ok e) : ∃ node, e = .branch node := by
  obtain ⟨_, _, _, _, _, _, -, -, -, -, -, same⟩ := ifLetOf_eq_ok lowered
  exact ⟨_, same⟩

/-- A block behind `else` is in the `if`. -/
theorem elseOf?_block {clause target : FormTree} {els : Option Else}
    (lowered : elseOf? (some clause) = .ok els) (first : clause.nodes.firstPart? = some target)
    (kind : target.kind = "block") :
    ∃ b, target.value.block = .ok b ∧ els = some (.block b) := by
  simp only [elseOf?, elseOf, first, kind, if_true, bind_eq_ok, pure_eq_ok] at lowered
  obtain ⟨b, ok, rfl⟩ := lowered
  exact ⟨b, ok, rfl⟩

/-- A further `if` behind `else` is in the `if`. -/
theorem elseOf?_branch {clause target : FormTree} {els : Option Else}
    (lowered : elseOf? (some clause) = .ok els) (first : clause.nodes.firstPart? = some target)
    (kind : target.kind = "if_expression" ∨ target.kind = "if_let_expression")
    (branch : ∀ e, target.value.expr = .ok e → ∃ node, e = .branch node) :
    ∃ node, target.value.expr = .ok (.branch node) ∧ els = some (.elseIf node) := by
  have noBlock : target.kind ≠ "block" := by
    rcases kind with kind | kind <;> simp [kind]
  simp only [elseOf?, elseOf, first, if_neg noBlock] at lowered
  rw [if_pos (by simpa using kind)] at lowered
  obtain ⟨e, ok, rest⟩ := bind_eq_ok.mp lowered
  obtain ⟨node, rfl⟩ := branch e ok
  exact ⟨node, ok, (pure_eq_ok.mp rest).symm⟩

/-! The children of a range, read from the left. -/

theorem add_operator (parts : RangeParts) (t : FormTree) (operator : isRangeOp t = true) :
    parts.add t = .ok { parts with op := t.kind, seenOp := true } := by
  have holds : (!t.info.named && rangeOps.contains t.kind) = true := operator
  rw [RangeParts.add, if_pos holds]
  rfl

theorem add_upper (parts : RangeParts) (t : FormTree) (bound : isRangeOp t = false)
    (seen : parts.seenOp = true) :
    parts.add t = (do return { parts with hi := some (← t.value.expr) }) := by
  have fails : ¬(!t.info.named && rangeOps.contains t.kind) = true := Bool.eq_false_iff.mp bound
  rw [RangeParts.add, if_neg fails, if_pos seen]

theorem add_lower (parts : RangeParts) (t : FormTree) (bound : isRangeOp t = false)
    (unseen : parts.seenOp = false) :
    parts.add t = (do return { parts with lo := some (← t.value.expr) }) := by
  have fails : ¬(!t.info.named && rangeOps.contains t.kind) = true := Bool.eq_false_iff.mp bound
  rw [RangeParts.add, if_neg fails, if_neg (Bool.eq_false_iff.mp unseen)]

/-- In front of the operator no operator is seen. -/
theorem fold_front (ts : List FormTree) (parts result : RangeParts)
    (folded : ts.foldlM RangeParts.add parts = .ok result)
    (none : ∀ t ∈ ts, isRangeOp t = false) (unseen : parts.seenOp = false) :
    result.seenOp = false := by
  induction ts generalizing parts with
  | nil =>
    cases folded
    exact unseen
  | cons t ts ih =>
    rw [List.foldlM_cons, add_lower parts t (none t List.mem_cons_self) unseen] at folded
    obtain ⟨next, added, folded⟩ := bind_eq_ok.mp folded
    obtain ⟨e, -, same⟩ := bind_eq_ok.mp added
    cases pure_eq_ok.mp same
    exact ih _ folded (fun u later => none u (List.mem_cons_of_mem _ later)) unseen

/-- Behind the operator the lower bound is settled. -/
theorem fold_behind (ts : List FormTree) (parts result : RangeParts)
    (folded : ts.foldlM RangeParts.add parts = .ok result) (seen : parts.seenOp = true) :
    result.seenOp = true ∧ result.lo = parts.lo := by
  induction ts generalizing parts with
  | nil =>
    cases folded
    exact ⟨seen, rfl⟩
  | cons t ts ih =>
    rw [List.foldlM_cons] at folded
    cases operator : isRangeOp t with
    | true =>
      rw [add_operator parts t operator] at folded
      exact ih { parts with op := t.kind, seenOp := true } folded rfl
    | false =>
      rw [add_upper parts t operator seen] at folded
      obtain ⟨next, added, folded⟩ := bind_eq_ok.mp folded
      obtain ⟨e, -, same⟩ := bind_eq_ok.mp added
      cases pure_eq_ok.mp same
      exact ih { parts with hi := some e } folded seen

/-- Operators leave the upper bound alone. -/
theorem fold_operators (ts : List FormTree) (parts result : RangeParts)
    (folded : ts.foldlM RangeParts.add parts = .ok result)
    (all : ∀ t ∈ ts, isRangeOp t = true) : result.hi = parts.hi := by
  induction ts generalizing parts with
  | nil =>
    cases folded
    rfl
  | cons t ts ih =>
    rw [List.foldlM_cons, add_operator parts t (all t List.mem_cons_self)] at folded
    exact ih { parts with op := t.kind, seenOp := true } folded fun u later =>
      all u (List.mem_cons_of_mem _ later)

/-- Once an operator was read, one is seen. -/
theorem fold_seen (ts : List FormTree) (parts result : RangeParts)
    (folded : ts.foldlM RangeParts.add parts = .ok result)
    (some : ∃ t ∈ ts, isRangeOp t = true) : result.seenOp = true := by
  induction ts generalizing parts with
  | nil =>
    obtain ⟨t, listed, -⟩ := some
    cases listed
  | cons t ts ih =>
    rw [List.foldlM_cons] at folded
    cases operator : isRangeOp t with
    | true =>
      rw [add_operator parts t operator] at folded
      exact (fold_behind ts _ result folded rfl).1
    | false =>
      obtain ⟨next, -, folded⟩ := bind_eq_ok.mp folded
      obtain ⟨u, listed, isOperator⟩ := some
      rcases List.mem_cons.mp listed with rfl | later
      · rw [operator] at isOperator
        cases isOperator
      · exact ih next folded ⟨u, later, isOperator⟩

/-- The last thing in front of the operator is the lower bound. -/
theorem rangeOf_lower {info : NodeInfo} {below : Siblings Forms} {e : Expr} {u : FormTree}
    {front behind : List FormTree} (lowered : rangeOf info below = .ok e)
    (spoken : below.spoken = front ++ u :: behind) (bound : isRangeOp u = false)
    (before : ∀ v ∈ front, isRangeOp v = false) (next : ∀ v ∈ behind.head?, isRangeOp v = true) :
    ∃ lo hi op, u.value.expr = .ok lo ∧ e = .range (some lo) hi op info.span := by
  rw [rangeOf, spoken] at lowered
  obtain ⟨parts, folded, same⟩ := bind_eq_ok.mp lowered
  cases pure_eq_ok.mp same
  rw [List.foldlM_append] at folded
  obtain ⟨atFront, frontOk, folded⟩ := bind_eq_ok.mp folded
  have unseen := fold_front front {} atFront frontOk before rfl
  rw [List.foldlM_cons, add_lower atFront u bound unseen] at folded
  obtain ⟨atBound, added, folded⟩ := bind_eq_ok.mp folded
  obtain ⟨lo, ok, same⟩ := bind_eq_ok.mp added
  cases pure_eq_ok.mp same
  refine ⟨lo, parts.hi, parts.op, ok, ?_⟩
  cases behind with
  | nil =>
    cases folded
    rfl
  | cons v rest =>
    rw [List.foldlM_cons, add_operator _ v (next v rfl)] at folded
    rw [(fold_behind rest _ parts folded rfl).2]

/-- The last thing behind the operator is the upper bound. -/
theorem rangeOf_upper {info : NodeInfo} {below : Siblings Forms} {e : Expr} {u : FormTree}
    {front behind : List FormTree} (lowered : rangeOf info below = .ok e)
    (spoken : below.spoken = front ++ u :: behind) (bound : isRangeOp u = false)
    (after : ∃ v ∈ front, isRangeOp v = true) (last : ∀ v ∈ behind, isRangeOp v = true) :
    ∃ lo hi op, u.value.expr = .ok hi ∧ e = .range lo (some hi) op info.span := by
  rw [rangeOf, spoken] at lowered
  obtain ⟨parts, folded, same⟩ := bind_eq_ok.mp lowered
  cases pure_eq_ok.mp same
  rw [List.foldlM_append] at folded
  obtain ⟨atFront, frontOk, folded⟩ := bind_eq_ok.mp folded
  have seen := fold_seen front {} atFront frontOk after
  rw [List.foldlM_cons, add_upper atFront u bound seen] at folded
  obtain ⟨atBound, added, folded⟩ := bind_eq_ok.mp folded
  obtain ⟨hi, ok, same⟩ := bind_eq_ok.mp added
  cases pure_eq_ok.mp same
  exact ⟨parts.lo, hi, parts.op, ok, by rw [fold_operators behind _ parts folded last]⟩

/-! A call and its arguments. -/

/-- The arguments of a call that may have none. -/
def argumentsOf? : Option FormTree → Except LowerError (List Expr)
  | some list => argumentsOf list
  | none => .ok []

/-- The call with the arguments at hand. -/
def callWith (info : NodeInfo) (below : Siblings Forms) (args : List Expr) :
    Except LowerError Expr :=
  match (below.labelled? "function").or below.firstPart? with
  | none => return .call (.other "unknown" [] info.span) args info.span
  | some func =>
    match if func.kind = "field_expression" then
        (func.nodes.labelled? "value").or func.nodes.firstPart? else none,
      (func.nodes.labelled? "field").or func.nodes.lastPart? with
    | some receiver, some method =>
      return .methodCall (← receiver.value.expr) method.value.text args info.span
    | _, _ => return .call (← func.value.expr) args info.span

theorem callOf_eq (info : NodeInfo) (below : Siblings Forms) :
    callOf info below = argumentsOf? ((below.labelled? "arguments").or (below.ofKind? "arguments"))
      >>= callWith info below := by
  simp only [callOf]
  cases (below.labelled? "arguments").or (below.ofKind? "arguments") <;> rfl

theorem callOf_arguments {info : NodeInfo} {below : Siblings Forms} {e : Expr} {list : FormTree}
    (lowered : callOf info below = .ok e)
    (arguments : (below.labelled? "arguments").or (below.ofKind? "arguments") = some list) :
    ∃ args, argumentsOf list = .ok args ∧
      ((∃ func, e = .call func args info.span) ∨
        ∃ receiver method, e = .methodCall receiver method args info.span) := by
  rw [callOf_eq, arguments] at lowered
  obtain ⟨args, argsOk, lowered⟩ := bind_eq_ok.mp lowered
  refine ⟨args, argsOk, ?_⟩
  unfold callWith at lowered
  split at lowered
  · exact .inl ⟨_, (pure_eq_ok.mp lowered).symm⟩
  · split at lowered
    · obtain ⟨receiver, -, same⟩ := bind_eq_ok.mp lowered
      exact .inr ⟨receiver, _, (pure_eq_ok.mp same).symm⟩
    · obtain ⟨func, -, same⟩ := bind_eq_ok.mp lowered
      exact .inl ⟨func, (pure_eq_ok.mp same).symm⟩

theorem callOf_function {info : NodeInfo} {below : Siblings Forms} {e : Expr} {func : FormTree}
    (lowered : callOf info below = .ok e) (label : below.labelled? "function" = some func)
    (noField : func.kind ≠ "field_expression") :
    ∃ inner args, func.value.expr = .ok inner ∧ e = .call inner args info.span := by
  rw [callOf_eq] at lowered
  obtain ⟨args, -, lowered⟩ := bind_eq_ok.mp lowered
  simp only [callWith, label, Option.some_or, if_neg noField] at lowered
  obtain ⟨inner, ok, same⟩ := bind_eq_ok.mp lowered
  exact ⟨inner, args, ok, (pure_eq_ok.mp same).symm⟩

theorem callOf_receiver {info : NodeInfo} {below : Siblings Forms} {e : Expr}
    {func receiver : FormTree} (lowered : callOf info below = .ok e)
    (label : below.labelled? "function" = some func) (isField : func.kind = "field_expression")
    (value : func.nodes.labelled? "value" = some receiver) (part : receiver ∈ func.nodes.parts) :
    ∃ inner method args, receiver.value.expr = .ok inner ∧
      e = .methodCall inner method args info.span := by
  -- The receiver is a part, so there is a last part to take the name of the method from.
  have named : ((func.nodes.labelled? "field").or func.nodes.lastPart?).isSome = true := by
    rw [Option.isSome_or, Siblings.lastPart?, List.getLast?_isSome.mpr (List.ne_nil_of_mem part),
      Bool.or_true]
  obtain ⟨method, name⟩ := Option.isSome_iff_exists.mp named
  rw [callOf_eq] at lowered
  obtain ⟨args, -, lowered⟩ := bind_eq_ok.mp lowered
  simp only [callWith, label, Option.some_or, if_pos isField, value, name] at lowered
  obtain ⟨inner, ok, same⟩ := bind_eq_ok.mp lowered
  exact ⟨inner, _, args, ok, (pure_eq_ok.mp same).symm⟩

/-! Expressions by their kind. -/

attribute [local simp] exprOf

theorem exprOf_block {block : Except LowerError Block} {info : NodeInfo} {below : Siblings Forms}
    {e : Expr} (lowered : exprOf block info below = .ok e) (kind : info.kind = "block") :
    ∃ b, block = .ok b ∧ e = .block b info.span := by
  rw [exprOf] at lowered
  simp only [kind, String.reduceEq, if_true, if_false, bind_eq_ok, pure_eq_ok] at lowered
  obtain ⟨b, ok, same⟩ := lowered
  exact ⟨b, ok, same.symm⟩

theorem exprOf_if {block : Except LowerError Block} {info : NodeInfo} {below : Siblings Forms}
    (kind : info.kind = "if_expression") : exprOf block info below = ifOf info below := by
  rw [exprOf, if_pos kind]

theorem exprOf_ifLet {block : Except LowerError Block} {info : NodeInfo} {below : Siblings Forms}
    (kind : info.kind = "if_let_expression") : exprOf block info below = ifLetOf info below := by
  simp [kind]

/-- A binary operator or an assignment stands between its operands. -/
theorem exprOf_operands {block : Except LowerError Block} {info : NodeInfo}
    {below : Siblings Forms} {e : Expr} (lowered : exprOf block info below = .ok e)
    (kind : info.kind ∈ binaryKinds) :
    ∃ lhs op rhs l r, binaryParts below = .ok (lhs, op, rhs) ∧ lhs.value.expr = .ok l ∧
      rhs.value.expr = .ok r ∧ (e = .binary op l r info.span ∨ e = .assign op l r info.span) := by
  have which : info.kind = "binary_expression" ∨ info.kind = "assignment_expression" ∨
      info.kind = "compound_assignment_expr" := by
    simpa [binaryKinds] using kind
  rw [exprOf] at lowered
  rcases which with kind | kind | kind <;>
    simp only [kind, String.reduceEq, decide_true, decide_false, Bool.or_true,
      Bool.or_false, if_true, if_false, Bool.false_eq_true, bind_eq_ok, pure_eq_ok] at lowered <;>
    obtain ⟨⟨lhs, op, rhs⟩, parts, l, leftOk, r, rightOk, rfl⟩ := lowered
  · exact ⟨lhs, op, rhs, l, r, parts, leftOk, rightOk, .inl rfl⟩
  · exact ⟨lhs, op, rhs, l, r, parts, leftOk, rightOk, .inr rfl⟩
  · exact ⟨lhs, op, rhs, l, r, parts, leftOk, rightOk, .inr rfl⟩

/-- Both labelled operands are in the expression. -/
theorem exprOf_binary {block : Except LowerError Block} {info : NodeInfo} {below : Siblings Forms}
    {e : Expr} {lhs rhs op : FormTree} (lowered : exprOf block info below = .ok e)
    (kind : info.kind ∈ binaryKinds) (left : below.labelled? "left" = some lhs)
    (right : below.labelled? "right" = some rhs)
    (operator : below.labelled? "operator" = some op) :
    ∃ l r, lhs.value.expr = .ok l ∧ rhs.value.expr = .ok r ∧
      Node.childrenOfExpr e = [.expr l, .expr r] := by
  obtain ⟨first, name, last, l, r, parts, leftOk, rightOk, shape⟩ := exprOf_operands lowered kind
  rw [binaryParts_of_labels left right operator] at parts
  cases parts
  refine ⟨l, r, leftOk, rightOk, ?_⟩
  rcases shape with rfl | rfl <;> rfl

theorem exprOf_paren {block : Except LowerError Block} {info : NodeInfo} {below : Siblings Forms}
    (kind : info.kind = "parenthesized_expression") :
    exprOf block info below = aroundOf info below.firstPart? (.paren · info.span) := by
  simp [kind]

theorem exprOf_unary {block : Except LowerError Block} {info : NodeInfo} {below : Siblings Forms}
    (kind : info.kind = "unary_expression") :
    exprOf block info below = aroundOf info below.lastPart?
      (.unary ((below.head?.map (·.value.text)).getD "") · info.span) := by
  simp [kind, unaryOf]

theorem exprOf_reference {block : Except LowerError Block} {info : NodeInfo}
    {below : Siblings Forms} (kind : info.kind = "reference_expression") :
    exprOf block info below = aroundOf info ((below.labelled? "value").or below.lastPart?)
      (.unary (if below.hasKind "mutable_specifier" then "&mut" else "&") · info.span) := by
  simp [kind, referenceOf]

theorem exprOf_closure {block : Except LowerError Block} {info : NodeInfo} {below : Siblings Forms}
    (kind : info.kind = "closure_expression") :
    exprOf block info below = aroundOf info ((below.labelled? "body").or below.lastPart?)
      (.closure · info.span) := by
  simp [kind]

theorem exprOf_castOf {block : Except LowerError Block} {info : NodeInfo} {below : Siblings Forms}
    (kind : info.kind = "type_cast_expression") :
    exprOf block info below = castOf info below := by
  simp [kind]

theorem exprOf_cast {block : Except LowerError Block} {info : NodeInfo} {below : Siblings Forms}
    {e : Expr} {value ty : FormTree} (lowered : exprOf block info below = .ok e)
    (kind : info.kind = "type_cast_expression") (label : below.labelled? "value" = some value)
    (type : below.labelled? "type" = some ty) :
    ∃ inner, value.value.expr = .ok inner ∧ e = .cast inner ty.value.ty info.span := by
  simp only [exprOf_castOf kind, castOf, label, type, Option.some_or, bind_eq_ok,
    pure_eq_ok] at lowered
  obtain ⟨inner, ok, same⟩ := lowered
  exact ⟨inner, ok, same.symm⟩

/-- Of a macro nothing but its kind is kept. -/
theorem exprOf_macroCall {block : Except LowerError Block} {info : NodeInfo} {below : Siblings Forms}
    (kind : info.kind = "macro_invocation") :
    exprOf block info below = .ok (.other info.kind [] info.span) := by
  simp [kind]

theorem exprOf_range {block : Except LowerError Block} {info : NodeInfo} {below : Siblings Forms}
    (kind : info.kind = "range_expression") : exprOf block info below = rangeOf info below := by
  simp [kind]

theorem exprOf_call {block : Except LowerError Block} {info : NodeInfo} {below : Siblings Forms}
    (kind : info.kind = "call_expression") : exprOf block info below = callOf info below := by
  simp [kind]

/-- All other kinds, and statements in the place of an expression, keep their parts. -/
theorem exprOf_other {block : Except LowerError Block} {info : NodeInfo} {below : Siblings Forms}
    (kind : info.kind ∉ placedKinds ∨ info.kind ∈ ["expression_statement", "let_declaration"]) :
    exprOf block info below = keepParts info below := by
  rcases kind with unplaced | statement
  · simp only [placedKinds, binaryKinds, List.cons_append, List.nil_append, List.mem_cons,
      List.not_mem_nil, or_false, not_or] at unplaced
    simp [unplaced]
  · have which : info.kind = "expression_statement" ∨ info.kind = "let_declaration" := by
      simpa using statement
    rcases which with kind | kind <;> simp [kind]

theorem forms_eq (source : Source) (info : NodeInfo) (value : Unit) (children : List ParseTree) :
    forms source ⟨info, value, children⟩ =
      ⟨info, formsOf source info (children.map (forms source)), children.map (forms source)⟩ := by
  rw [forms, Tree.annotate, Tree.annotateAll_eq_map]
  rfl

theorem labelled?_forms (source : Source) (t : ParseTree) (label : String) :
    (forms source t).nodes.labelled? label = (t.nodes.labelled? label).map (forms source) := by
  rw [forms, Tree.nodes, Tree.children_annotate, Siblings.labelled?_map (Tree.info_annotate _)]
  rfl

theorem text_forms (source : Source) (t : ParseTree) :
    (forms source t).value.text = textOf source t.info := by
  rw [forms, Tree.value_annotate, formsOf]

theorem ofKind?_forms (source : Source) (t : ParseTree) (kind : String) :
    (forms source t).nodes.ofKind? kind = (t.nodes.ofKind? kind).map (forms source) := by
  rw [forms, Tree.nodes, Tree.children_annotate, Siblings.ofKind?_map (Tree.info_annotate _)]
  rfl

/-- The forms of a node are computed from those below it, all the way down. -/
inductive Formed (source : Source) : FormTree → Prop
  | mk (t : FormTree) (value : t.value = formsOf source t.info t.children)
      (below : ∀ child ∈ t.children, Formed source child) : Formed source t

theorem formed_forms (source : Source) (t : ParseTree) : Formed source (forms source t) := by
  induction t using Tree.inductionOnChildren with
  | step t ih =>
    refine .mk _ ?_ ?_
    · rw [forms, Tree.value_annotate, Tree.info_annotate, Tree.children_annotate]
    · intro child listed
      rw [forms, Tree.children_annotate] at listed
      obtain ⟨u, below, rfl⟩ := List.mem_map.mp listed
      exact ih u below

theorem Formed.child {source : Source} {t child : FormTree} (formed : Formed source t)
    (below : child ∈ t.children) : Formed source child := by
  cases formed with
  | mk _ _ all => exact all child below

theorem Formed.step {source : Source} {t u : FormTree} (formed : Formed source t)
    (step : Step t u) : Formed source u := by
  rcases step.below with child | ⟨v, child, below⟩
  · exact formed.child child
  · exact (formed.child child).child below

theorem Formed.expr {source : Source} {t : FormTree} (formed : Formed source t) :
    t.value.expr = exprOf t.value.block t.info t.nodes := by
  cases formed with
  | mk _ value _ => rw [value]; rfl

theorem Formed.block {source : Source} {t : FormTree} (formed : Formed source t) :
    t.value.block = blockOf t.info t.nodes := by
  cases formed with
  | mk _ value _ => rw [value]; rfl

theorem Formed.ty {source : Source} {t : FormTree} (formed : Formed source t) :
    t.value.ty = typeOf source t.info t.nodes := by
  cases formed with
  | mk _ value _ => rw [value]; rfl

theorem Formed.holds {source : Source} {t u : FormTree} (formed : Formed source t)
    (inside : t.Holds u) : Formed source u := by
  induction inside with
  | refl => exact formed
  | tail _ child ih => exact ih.child child

theorem Formed.items {source : Source} {t : FormTree} (formed : Formed source t) (exported : Bool) :
    t.value.items exported = itemsOf exported [] t.nodes.parts := by
  cases formed with
  | mk _ value _ => rw [value]; rfl

/-- A lowered file has a root of the right kind and the items among its parts. -/
theorem ofTree_eq_ok {source : Source} {root : ParseTree} {crate : Crate} :
    Crate.ofTree source root = .ok crate ↔ root.kind = "source_file" ∧
      ∃ items, (forms source root).value.items true = .ok items ∧ crate = ⟨items, root.span⟩ := by
  unfold Crate.ofTree
  split
  · next kind => simp only [kind, true_and, bind_eq_ok, pure_eq_ok, @eq_comm _ crate]
  · next other => simp [other]

end RustLint.Lowering
