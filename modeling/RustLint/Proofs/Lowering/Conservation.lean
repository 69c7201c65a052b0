import RustLint.Proofs.Lowering.Flattening
import RustLint.Proofs.Traversal

set_option autoImplicit false

namespace RustLint.Lowering

/-- The code of the node is in sight: as an expression, a block or a statement, or, for a node that
is none of these, in what it holds. -/
inductive Kept (shown : Node → Prop) : FormTree → Prop
  | expr (t : FormTree) (e : Expr) (lowered : t.value.expr = .ok e) (visible : shown (.expr e)) :
      Kept shown t
  | block (t : FormTree) (b : Block) (kind : t.kind = "block") (lowered : t.value.block = .ok b)
      (visible : shown (.block b)) : Kept shown t
  | stmt (t : FormTree) (s : Stmt) (kind : t.kind ∈ ["expression_statement", "let_declaration"])
      (lowered : stmtOf t [] = .ok (some s)) (visible : shown (.stmt s)) : Kept shown t
  | dissolved (t : FormTree) (kind : isExprKind t.kind = false)
      (inside : ∀ p ∈ t.nodes.parts, IsCode p → Kept shown p) : Kept shown t

/-- What is below something in sight is in sight. -/
def Closed (shown : Node → Prop) : Prop := ∀ n child, shown n → child ∈ n.children → shown child

/-! Of what is flattened, the blocks and expressions come out, and the code inside every other node
too. -/

theorem Kept.ofPartOf {shown : Node → Prop} {t : FormTree} {p : Part} (lowered : partOf t = .ok p)
    (visible : shown (.ofPart p)) : Kept shown t := by
  unfold partOf at lowered
  split at lowered
  · next kind =>
    obtain ⟨b, isBlock, rfl⟩ := map_eq_ok.mp lowered
    exact .block t b kind isBlock visible
  · obtain ⟨e, isExpr, rfl⟩ := map_eq_ok.mp lowered
    exact .expr t e isExpr visible

/-- A node is kept along with the outermost blocks and expressions in it. -/
theorem Kept.ofOutermost {shown : Node → Prop} (t : FormTree) (code : IsCode t)
    (outer : ∀ u ∈ t.outermost, Kept shown u) : Kept shown t := by
  induction t using Tree.inductionOnChildren with
  | step t ih =>
    have noAside := (aside_iff t.kind).not.mp (by simp [code.noItem, code.noAttribute])
    by_cases whole : IsWhole t.kind
    · rw [Tree.outermost_whole noAside whole] at outer
      exact outer t List.mem_cons_self
    · rw [Tree.outermost_other noAside whole] at outer
      refine .dissolved t (Bool.eq_false_iff.mpr ((isExprKind_iff t.kind).not.mpr whole)) ?_
      intro p part inner
      refine ih p (Siblings.mem_of_mem_parts _ p part) inner fun u inside => ?_
      exact outer u (List.mem_flatMap_of_mem part inside)

theorem flatten_kept {todo : List FormTree} {parts : List Part} {shown : Node → Prop}
    (lowered : flatten todo [] = .ok parts) (visible : ∀ p ∈ parts, shown (.ofPart p))
    (t : FormTree) (listed : t ∈ todo) (code : IsCode t) : Kept shown t := by
  refine .ofOutermost t code fun u outer => ?_
  obtain ⟨p, found, ok⟩ :=
    exists_mem_of_forall₂ (flatten_eq_ok.mp lowered) u (List.mem_flatMap_of_mem listed outer)
  exact .ofPartOf ok (visible p found)

/-! Steps from a node without a form of its own. It is no expression, so all that its steps reach
are parts of it. -/

theorem mem_parts_of_child (t u : FormTree) (child : u ∈ t.children) (code : IsCode u) :
    u ∈ t.nodes.parts := (Siblings.mem_parts_iff t.nodes u).mpr ⟨child, code.part⟩

theorem mem_parts_of_label (t u : FormTree) (label : String)
    (labelled : t.nodes.labelled? label = some u) (code : IsCode u) : u ∈ t.nodes.parts :=
  mem_parts_of_child t u (Siblings.mem_of_labelled? t.nodes label u labelled) code

theorem mem_parts_of_step (t u : FormTree) (kind : isExprKind t.kind = false) (step : Step t u)
    (code : IsCode u) : u ∈ t.nodes.parts := by
  have noExpr (name : String) (is : t.kind = name) (isExpr : isExprKind name = true) : False := by
    rw [is, isExpr] at kind
    cases kind
  cases step with
  | statement u is child counts => exact mem_parts_of_child t u child code
  | only u is first => exact Siblings.mem_parts_of_firstPart? t.nodes u first
  | operand u is last => exact Siblings.mem_parts_of_lastPart? t.nodes u last
  | side lhs op rhs u is left right operator oneOf =>
    rcases oneOf with rfl | rfl
    · exact mem_parts_of_label t u _ left code
    · exact mem_parts_of_label t u _ right code
  | bound u is value => exact mem_parts_of_label t u _ value code
  | diverging u is alternative isBlock => exact mem_parts_of_label t u _ alternative code
  | referenced u is value => exact mem_parts_of_label t u _ value code
  | converted u ty is value type => exact mem_parts_of_label t u _ value code
  | closure u is body => exact mem_parts_of_label t u _ body code
  | callee u is function noField => exact mem_parts_of_label t u _ function code
  | receiver function u is labelled isField value => exact (noExpr _ is (by decide)).elim
  | argument list u is arguments child => exact (noExpr _ is (by decide)).elim
  | lower u front behind is spoken before next => exact (noExpr _ is (by decide)).elim
  | upper u front behind is spoken after last => exact (noExpr _ is (by decide)).elim
  | test u body whole plain => exact (noExpr _ whole.kind (by decide)).elim
  | scrutinee cond body u whole is value => exact (noExpr _ whole.kind (by decide)).elim
  | link cond body u whole is child => exact (noExpr _ whole.kind (by decide)).elim
  | consequence cond u whole isBlock => exact (noExpr _ whole.kind (by decide)).elim
  | alternative cond body u whole target follows => exact (noExpr _ whole.kind (by decide)).elim
  | letValue pattern u body whole => exact (noExpr _ whole.kind (by decide)).elim
  | letConsequence pattern value u whole isBlock => exact (noExpr _ whole.kind (by decide)).elim
  | letAlternative pattern value body u whole target follows =>
    exact (noExpr _ whole.kind (by decide)).elim
  | inside u is child => exact mem_parts_of_child t u child code

/-! Steps from a block: each node in it is lowered as a statement. -/

theorem stmtOf_of_mem (attributes : List FormTree) (ts : List FormTree) (stmts : List Stmt)
    (lowered : stmtsOf attributes ts = .ok stmts) (t : FormTree) (listed : t ∈ ts)
    (noAttribute : t.kind ≠ "attribute_item") :
    ∃ before stmt?, stmtOf t before = .ok stmt? ∧ ∀ s ∈ stmt?, s ∈ stmts := by
  induction ts generalizing attributes stmts with
  | nil => cases listed
  | cons u us ih =>
    rw [stmtsOf] at lowered
    split at lowered
    · next isAttribute =>
      rcases List.mem_cons.mp listed with rfl | later
      · exact (noAttribute isAttribute).elim
      · exact ih _ stmts lowered later
    · simp only [bind_eq_ok, pure_eq_ok] at lowered
      obtain ⟨stmt?, first, rest, others, rfl⟩ := lowered
      rcases List.mem_cons.mp listed with rfl | later
      · refine ⟨attributes, stmt?, first, ?_⟩
        intro s is
        exact List.mem_append_left _ (Option.mem_toList.mpr is)
      · obtain ⟨before, stmt?, ok, inRest⟩ := ih [] rest others later
        exact ⟨before, stmt?, ok, fun s is => List.mem_append_right _ (inRest s is)⟩

theorem stmts_of_block (source : Source) (t : FormTree) (b : Block) (formed : Formed source t)
    (lowered : t.value.block = .ok b) : stmtsOf [] t.nodes.parts = .ok b.stmts := by
  rw [formed.block] at lowered
  obtain ⟨stmts, ok, same⟩ := bind_eq_ok.mp lowered
  rw [← pure_eq_ok.mp same]
  exact ok

theorem stmtOf_letDeclaration (t : FormTree) (attributes : List FormTree)
    (kind : t.kind = "let_declaration") : stmtOf t attributes = bindingOf t := by
  simp [stmtOf, kind, emptyStmtKinds]

theorem stmtOf_expressionStatement (t : FormTree) (attributes : List FormTree)
    (kind : t.kind = "expression_statement") : stmtOf t attributes = exprStmtOf t := by
  simp [stmtOf, kind, emptyStmtKinds]

theorem stmtOf_expr (t : FormTree) (attributes : List FormTree)
    (counts : t.kind ∉ ["empty_statement", "inner_attribute_item", "label"])
    (noStmt : t.kind ∉ ["expression_statement", "let_declaration"])
    (noItem : isItemKind t.kind = false) :
    stmtOf t attributes = return some (.expr (← t.value.expr) false t.span) := by
  simp only [List.mem_cons, List.not_mem_nil, or_false, not_or] at counts noStmt
  simp [stmtOf, emptyStmtKinds, counts, noStmt, noItem]

theorem Kept.ofStmt (shown : Node → Prop) (closed : Closed shown) (t : FormTree)
    (attributes : List FormTree) (stmt? : Option Stmt) (lowered : stmtOf t attributes = .ok stmt?)
    (visible : ∀ s ∈ stmt?, shown (.stmt s))
    (counts : t.kind ∉ ["empty_statement", "inner_attribute_item", "label"]) (code : IsCode t) :
    Kept shown t := by
  by_cases isStmt : t.kind ∈ ["expression_statement", "let_declaration"]
  · have which : t.kind = "expression_statement" ∨ t.kind = "let_declaration" := by
      simpa using isStmt
    have same : stmtOf t attributes = stmtOf t [] := by
      rcases which with kind | kind
      · rw [stmtOf_expressionStatement t attributes kind, stmtOf_expressionStatement t [] kind]
      · rw [stmtOf_letDeclaration t attributes kind, stmtOf_letDeclaration t [] kind]
    cases stmt? with
    | some s => exact .stmt t s isStmt (same ▸ lowered) (visible s rfl)
    | none =>
      -- Only an empty expression statement is no statement, and it holds nothing.
      rcases which with kind | kind
      · rw [stmtOf_expressionStatement t attributes kind] at lowered
        rcases exprStmtOf_eq_ok lowered with ⟨nothing, -⟩ | ⟨inner, e, -, -, impossible⟩
        · apply Kept.dissolved t (by rw [kind]; decide)
          intro p part _
          rw [Siblings.firstPart?, List.head?_eq_none_iff] at nothing
          rw [nothing] at part
          cases part
        · cases impossible
      · rw [stmtOf_letDeclaration t attributes kind] at lowered
        obtain ⟨init, els, impossible, -⟩ := bindingOf_eq_ok lowered
        cases impossible
  · rw [stmtOf_expr t attributes counts isStmt code.noItem] at lowered
    simp only [bind_eq_ok, pure_eq_ok] at lowered
    obtain ⟨e, ok, rfl⟩ := lowered
    exact .expr t e ok (closed _ _ (visible _ rfl) (by simp [Node.children, Node.childrenOfStmt]))

/-! Steps from an expression. What they lead to is lowered into a node right below it. -/

/-- What a whole `if` was lowered from: its condition, its block and what follows its `else`. -/
theorem branch_of_labelledIf (source : Source) (t cond body : FormTree) (e : Expr)
    (formed : Formed source t) (whole : LabelledIf t cond body) (lowered : t.value.expr = .ok e) :
    ∃ tested block els, condOf cond = .ok tested ∧ body.value.block = .ok block ∧
      elseOf? ((t.nodes.labelled? "alternative").or (t.nodes.ofKind? "else_clause")) = .ok els ∧
      e = .branch ⟨tested, block, els, t.span⟩ := by
  have condition : condition? t.nodes = some cond := by rw [condition?, whole.cond, Option.some_or]
  have consequence : (t.nodes.labelled? "consequence").or (t.nodes.ofKind? "block") = some body := by
    rw [whole.body, Option.some_or]
  rw [formed.expr, exprOf_if whole.kind, ifOf_eq _ _ cond body condition consequence] at lowered
  simp only [bind_eq_ok, pure_eq_ok] at lowered
  obtain ⟨els, elsOk, tested, condOk, block, blockOk, same⟩ := lowered
  exact ⟨tested, block, els, condOk, blockOk, elsOk, same.symm⟩

section Step

variable (source : Source) (shown : Node → Prop) (closed : Closed shown)

include closed

theorem Kept.ofChild (u : FormTree) (e inner : Expr) (visible : shown (.expr e))
    (lowered : u.value.expr = .ok inner) (child : .expr inner ∈ Node.childrenOfExpr e) :
    Kept shown u := .expr u inner lowered (closed _ _ visible child)

theorem Kept.ofBlock (u : FormTree) (e : Expr) (b : Block) (visible : shown (.expr e))
    (kind : u.kind = "block") (lowered : u.value.block = .ok b)
    (child : .block b ∈ Node.childrenOfExpr e) : Kept shown u :=
  .block u b kind lowered (closed _ _ visible child)

/-- Of an expression that keeps its parts, every part is kept. -/
theorem Kept.ofPart (t u : FormTree) (e : Expr) (visible : shown (.expr e))
    (lowered : keepParts t.info t.nodes = .ok e) (part : u ∈ t.nodes.parts) (code : IsCode u) :
    Kept shown u := by
  obtain ⟨parts, flat, rfl⟩ := keepParts_eq_ok.mp lowered
  have inSight : ∀ p ∈ parts, shown (.ofPart p) := by
    intro p listed
    exact closed _ _ visible (List.mem_map_of_mem listed)
  exact flatten_kept flat inSight u part code

/-- Of an expression around one operand, the operand is kept. -/
theorem Kept.ofOperand (t u : FormTree) (build : Expr → Expr) (e : Expr) (visible : shown (.expr e))
    (lowered : aroundOf t.info (some u) build = .ok e)
    (around : ∀ inner, Node.childrenOfExpr (build inner) = [.expr inner]) : Kept shown u := by
  obtain ⟨inner, ok, rfl⟩ := aroundOf_eq_ok.mp lowered
  refine Kept.ofChild shown closed u _ inner visible ok ?_
  rw [around]
  exact List.mem_singleton_self _

/-- Behind `else`, the block or the further `if` is kept. -/
theorem Kept.ofElse (t u : FormTree) (node : If) (visible : shown (.expr (.branch node)))
    (formed : Formed source u) (target : elseTarget? t = some u) (follows : FollowsElse u)
    (lowered : elseOf? ((t.nodes.labelled? "alternative").or (t.nodes.ofKind? "else_clause")) =
      .ok node.els) : Kept shown u := by
  obtain ⟨clause, found, first⟩ := Option.bind_eq_some_iff.mp target
  rw [found] at lowered
  have further (kind : u.kind = "if_expression" ∨ u.kind = "if_let_expression")
      (branch : ∀ e, u.value.expr = .ok e → ∃ node, e = .branch node) : Kept shown u := by
    obtain ⟨inner, ok, els⟩ := elseOf?_branch lowered first kind branch
    exact Kept.ofChild shown closed u _ _ visible ok
      (by simp [Node.childrenOfExpr, els, Node.ofElse])
  cases follows with
  | block kind =>
    obtain ⟨b, ok, els⟩ := elseOf?_block lowered first kind
    exact Kept.ofBlock shown closed u _ b visible kind ok
      (by simp [Node.childrenOfExpr, els, Node.ofElse])
  | branch cond body whole =>
    apply further (Or.inl whole.kind)
    intro e ok
    obtain ⟨tested, block, els, -, -, -, same⟩ :=
      branch_of_labelledIf source u cond body e formed whole ok
    exact ⟨_, same⟩
  | letBranch kind =>
    apply further (Or.inr kind)
    intro e ok
    rw [formed.expr, exprOf_ifLet kind] at ok
    exact ifLetOf_branch ok

/-- A step from a whole `if`, to its condition, its block or what follows its `else`. -/
theorem Kept.ofBranch (t cond body u : FormTree) (e : Expr) (formed : Formed source t)
    (below : Formed source u) (whole : LabelledIf t cond body) (lowered : t.value.expr = .ok e)
    (visible : shown (.expr e)) (code : IsCode u)
    (reached : u = cond ∧ u.kind ∉ ["let_condition", "let_chain"] ∨
      (cond.kind = "let_condition" ∧ cond.nodes.labelled? "value" = some u) ∨
      (cond.kind = "let_chain" ∧ u ∈ cond.children) ∨
      (u = body ∧ u.kind = "block") ∨ (elseTarget? t = some u ∧ FollowsElse u)) :
    Kept shown u := by
  obtain ⟨tested, block, els, condOk, blockOk, elsOk, rfl⟩ :=
    branch_of_labelledIf source t cond body e formed whole lowered
  rcases reached with ⟨rfl, plain⟩ | ⟨kind, value⟩ | ⟨kind, child⟩ | ⟨rfl, isBlock⟩ |
    ⟨target, follows⟩
  · obtain ⟨inner, ok, rfl⟩ := condOf_test condOk plain
    exact Kept.ofChild shown closed u _ inner visible ok
      (by simp [Node.childrenOfExpr, Node.ofCond])
  · obtain ⟨pattern, inner, ok, rfl⟩ := condOf_letCondition condOk kind value
    exact Kept.ofChild shown closed u _ inner visible ok
      (by simp [Node.childrenOfExpr, Node.ofCond])
  · obtain ⟨parts, flat, rfl⟩ := condOf_letChain condOk kind
    have chain : shown (.expr (.other "let_chain" parts cond.span)) :=
      closed _ _ visible (by simp [Node.children, Node.childrenOfExpr, Node.ofCond])
    have inSight : ∀ p ∈ parts, shown (.ofPart p) := by
      intro p listed
      exact closed _ _ chain (List.mem_map_of_mem listed)
    exact flatten_kept flat inSight u (mem_parts_of_child cond u child code) code
  · exact Kept.ofBlock shown closed u _ block visible isBlock blockOk
      (by simp [Node.childrenOfExpr])
  · exact Kept.ofElse source shown closed t u _ visible below target follows elsOk

/-- A step from an `if let` of the older grammar. -/
theorem Kept.ofLetBranch (t pattern value body u : FormTree) (e : Expr) (formed : Formed source t)
    (below : Formed source u) (whole : LabelledIfLet t pattern value body)
    (lowered : t.value.expr = .ok e) (visible : shown (.expr e))
    (reached : u = value ∨ (u = body ∧ u.kind = "block") ∨
      (elseTarget? t = some u ∧ FollowsElse u)) : Kept shown u := by
  have parts : letParts t.nodes = (some pattern, some value) := by
    simp only [letParts, whole.pattern, whole.value]
  rw [formed.expr, exprOf_ifLet whole.kind, ifLetOf_eq, parts, whole.body] at lowered
  simp only [Option.some_or, bind_eq_ok, pure_eq_ok] at lowered
  obtain ⟨scrutinee, valueOk, block, blockOk, els, elsOk, rfl⟩ := lowered
  rcases reached with rfl | ⟨rfl, isBlock⟩ | ⟨target, follows⟩
  · exact Kept.ofChild shown closed u _ scrutinee visible valueOk
      (by simp [Node.childrenOfExpr, Node.ofCond])
  · exact Kept.ofBlock shown closed u _ block visible isBlock blockOk
      (by simp [Node.childrenOfExpr])
  · exact Kept.ofElse source shown closed t u _ visible below target follows elsOk

/-- A step from a call, to its function, its receiver or one of its arguments. -/
theorem Kept.ofCall (t u : FormTree) (e : Expr) (visible : shown (.expr e)) (code : IsCode u)
    (lowered : callOf t.info t.nodes = .ok e)
    (reached : (t.nodes.labelled? "function" = some u ∧ u.kind ≠ "field_expression") ∨
      (∃ func, t.nodes.labelled? "function" = some func ∧ func.kind = "field_expression" ∧
        func.nodes.labelled? "value" = some u) ∨
      ∃ list, (t.nodes.labelled? "arguments").or (t.nodes.ofKind? "arguments") = some list ∧
        u ∈ list.children) : Kept shown u := by
  rcases reached with ⟨function, noField⟩ | ⟨func, function, isField, value⟩ |
    ⟨list, arguments, child⟩
  · obtain ⟨inner, args, ok, rfl⟩ := callOf_function lowered function noField
    exact Kept.ofChild shown closed u _ inner visible ok (by simp [Node.childrenOfExpr])
  · obtain ⟨inner, method, args, ok, rfl⟩ := callOf_receiver lowered function isField value
      (mem_parts_of_label func u _ value code)
    exact Kept.ofChild shown closed u _ inner visible ok (by simp [Node.childrenOfExpr])
  · obtain ⟨args, argsOk, shape⟩ := callOf_arguments lowered arguments
    obtain ⟨inner, listed, ok⟩ := mem_of_argumentsOf argsOk u
      (mem_parts_of_child list u child code) code.noAttribute
    refine Kept.ofChild shown closed u _ inner visible ok ?_
    rcases shape with ⟨func, rfl⟩ | ⟨receiver, method, rfl⟩ <;>
      simp [Node.childrenOfExpr, listed]

/-- A block that is kept is kept as a block. -/
theorem Kept.asBlock (t : FormTree) (formed : Formed source t) (kept : Kept shown t)
    (kind : t.kind = "block") : ∃ b, t.value.block = .ok b ∧ shown (.block b) := by
  cases kept with
  | expr _ e lowered visible =>
    rw [formed.expr] at lowered
    obtain ⟨b, ok, rfl⟩ := exprOf_block lowered kind
    exact ⟨b, ok, closed _ _ visible (List.mem_singleton_self _)⟩
  | block _ b _ lowered visible => exact ⟨b, lowered, visible⟩
  | stmt _ _ other _ _ => simp [kind] at other
  | dissolved _ other _ =>
    rw [kind] at other
    exact absurd other (by decide)

/-- A step from a block, to a node that becomes one of its statements. -/
theorem Kept.ofStatement (t u : FormTree) (b : Block) (formed : Formed source t)
    (lowered : t.value.block = .ok b) (visible : shown (.block b)) (child : u ∈ t.children)
    (counts : u.kind ∉ ["empty_statement", "inner_attribute_item", "label"]) (code : IsCode u) :
    Kept shown u := by
  have stmts := stmts_of_block source t b formed lowered
  obtain ⟨attributes, stmt?, ok, listed⟩ := stmtOf_of_mem [] t.nodes.parts b.stmts stmts u
    (mem_parts_of_child t u child code) code.noAttribute
  have inSight : ∀ s ∈ stmt?, shown (.stmt s) := by
    intro s is
    exact closed _ _ visible (List.mem_map_of_mem (listed s is))
  exact Kept.ofStmt shown closed u attributes stmt? ok inSight counts code

/-- A step from a node that is kept as an expression. -/
theorem Kept.ofExpr (t u : FormTree) (e : Expr) (formed : Formed source t)
    (lowered : t.value.expr = .ok e) (visible : shown (.expr e)) (step : Step t u)
    (code : IsCode u) : Kept shown u := by
  have below := formed.step step
  have byKind := lowered
  rw [formed.expr] at byKind
  cases step with
  | statement u kind child counts =>
    obtain ⟨b, ok, rfl⟩ := exprOf_block byKind kind
    have body : shown (.block b) := closed _ _ visible (List.mem_singleton_self _)
    exact Kept.ofStatement source shown closed t u b formed ok body child counts code
  | only u kind first =>
    have which : t.kind = "expression_statement" ∨ t.kind = "parenthesized_expression" := by
      simpa using kind
    rcases which with statement | paren
    · rw [exprOf_other (.inr (by rw [← Tree.kind, statement]; decide))] at byKind
      exact Kept.ofPart shown closed t u e visible byKind
        (Siblings.mem_parts_of_firstPart? _ u first) code
    · rw [exprOf_paren paren, first] at byKind
      exact Kept.ofOperand shown closed t u _ e visible byKind fun _ => rfl
  | operand u kind last =>
    rw [exprOf_unary kind, last] at byKind
    exact Kept.ofOperand shown closed t u _ e visible byKind fun _ => rfl
  | side lhs op rhs u kind left right operator oneOf =>
    obtain ⟨l, r, leftOk, rightOk, children⟩ := exprOf_binary byKind kind left right operator
    rcases oneOf with rfl | rfl
    · exact Kept.ofChild shown closed u e l visible leftOk (by simp [children])
    · exact Kept.ofChild shown closed u e r visible rightOk (by simp [children])
  | bound u kind value =>
    rw [exprOf_other (.inr (by rw [← Tree.kind, kind]; decide))] at byKind
    exact Kept.ofPart shown closed t u e visible byKind (mem_parts_of_label t u _ value code) code
  | diverging u kind alternative isBlock =>
    rw [exprOf_other (.inr (by rw [← Tree.kind, kind]; decide))] at byKind
    exact Kept.ofPart shown closed t u e visible byKind
      (mem_parts_of_label t u _ alternative code) code
  | referenced u kind value =>
    rw [exprOf_reference kind, value, Option.some_or] at byKind
    exact Kept.ofOperand shown closed t u _ e visible byKind fun _ => rfl
  | converted u ty kind value type =>
    obtain ⟨inner, ok, rfl⟩ := exprOf_cast byKind kind value type
    exact Kept.ofChild shown closed u _ inner visible ok (by simp [Node.childrenOfExpr])
  | closure u kind body =>
    rw [exprOf_closure kind, body, Option.some_or] at byKind
    exact Kept.ofOperand shown closed t u _ e visible byKind fun _ => rfl
  | callee u kind function noField =>
    rw [exprOf_call kind] at byKind
    exact Kept.ofCall shown closed t u e visible code byKind (.inl ⟨function, noField⟩)
  | receiver func u kind labelled isField value =>
    rw [exprOf_call kind] at byKind
    exact Kept.ofCall shown closed t u e visible code byKind
      (.inr (.inl ⟨func, labelled, isField, value⟩))
  | argument list u kind arguments child =>
    rw [exprOf_call kind] at byKind
    exact Kept.ofCall shown closed t u e visible code byKind (.inr (.inr ⟨list, arguments, child⟩))
  | lower u front behind kind spoken before next =>
    rw [exprOf_range kind] at byKind
    obtain ⟨lo, hi, op, ok, rfl⟩ := rangeOf_lower byKind spoken code.noRangeOp before next
    exact Kept.ofChild shown closed u _ lo visible ok (by simp [Node.childrenOfExpr])
  | upper u front behind kind spoken after last =>
    rw [exprOf_range kind] at byKind
    obtain ⟨lo, hi, op, ok, rfl⟩ := rangeOf_upper byKind spoken code.noRangeOp after last
    exact Kept.ofChild shown closed u _ hi visible ok (by simp [Node.childrenOfExpr])
  | test u body whole plain =>
    exact Kept.ofBranch source shown closed t u body u e formed below whole lowered visible code
      (.inl ⟨rfl, plain⟩)
  | scrutinee cond body u whole kind value =>
    exact Kept.ofBranch source shown closed t cond body u e formed below whole lowered visible code
      (.inr (.inl ⟨kind, value⟩))
  | link cond body u whole kind child =>
    exact Kept.ofBranch source shown closed t cond body u e formed below whole lowered visible code
      (.inr (.inr (.inl ⟨kind, child⟩)))
  | consequence cond u whole isBlock =>
    exact Kept.ofBranch source shown closed t cond u u e formed below whole lowered visible code
      (.inr (.inr (.inr (.inl ⟨rfl, isBlock⟩))))
  | alternative cond body u whole target follows =>
    exact Kept.ofBranch source shown closed t cond body u e formed below whole lowered visible code
      (.inr (.inr (.inr (.inr ⟨target, follows⟩))))
  | letValue pattern u body whole =>
    exact Kept.ofLetBranch source shown closed t pattern u body u e formed below whole lowered
      visible (.inl rfl)
  | letConsequence pattern value u whole isBlock =>
    exact Kept.ofLetBranch source shown closed t pattern value u u e formed below whole lowered
      visible (.inr (.inl ⟨rfl, isBlock⟩))
  | letAlternative pattern value body u whole target follows =>
    exact Kept.ofLetBranch source shown closed t pattern value body u e formed below whole lowered
      visible (.inr (.inr ⟨target, follows⟩))
  | inside u kind child =>
    rw [exprOf_other (.inl kind)] at byKind
    exact Kept.ofPart shown closed t u e visible byKind (mem_parts_of_child t u child code) code

/-- Each step leads from a kept node to a kept node. -/
theorem Kept.step (t u : FormTree) (formed : Formed source t) (kept : Kept shown t)
    (step : Step t u) (code : IsCode u) : Kept shown u := by
  cases kept with
  | expr _ e lowered visible =>
    exact Kept.ofExpr source shown closed t u e formed lowered visible step code
  | block _ b kind lowered visible =>
    rcases step.of_statement (by simp [kind]) with ⟨-, child, counts⟩ | ⟨other, -⟩ | ⟨other, -⟩
    · exact Kept.ofStatement source shown closed t u b formed lowered visible child counts code
    · simp [kind] at other
    · simp [kind] at other
  | stmt _ s kind lowered visible =>
    rcases step.of_statement (List.mem_cons_of_mem _ kind) with
      ⟨other, -⟩ | ⟨statement, first⟩ | ⟨isLet, reached⟩
    · simp [other] at kind
    · rw [stmtOf_expressionStatement t [] statement] at lowered
      rcases exprStmtOf_eq_ok lowered with ⟨nothing, -⟩ | ⟨inner, e, found, ok, same⟩
      · rw [first] at nothing
        cases nothing
      · cases Option.some.inj (first.symm.trans found)
        cases same
        exact .expr u e ok (closed _ _ visible (List.mem_singleton_self _))
    · rw [stmtOf_letDeclaration t [] isLet] at lowered
      obtain ⟨init, els, same, value, alternative⟩ := bindingOf_eq_ok lowered
      cases same
      rcases reached with label | ⟨label, isBlock⟩
      · obtain ⟨e, ok, rfl⟩ := value u label
        exact .expr u e ok (closed _ _ visible (by simp [Node.children, Node.childrenOfStmt]))
      · obtain ⟨b, ok, rfl⟩ := alternative u label
        exact .block u b isBlock ok
          (closed _ _ visible (by simp [Node.children, Node.childrenOfStmt]))
  | dissolved _ kind inside => exact inside u (mem_parts_of_step t u kind step code) code

/-- All that a kept node evaluates is kept. -/
theorem Kept.run (t u : FormTree) (formed : Formed source t) (kept : Kept shown t)
    (evaluates : Evaluates t u) : Formed source u ∧ Kept shown u := by
  induction evaluates with
  | refl => exact ⟨formed, kept⟩
  | tail _ enters ih =>
    exact ⟨ih.1.step enters.1, Kept.step source shown closed _ _ ih.1 ih.2 enters.1 enters.2⟩

end Step

/-- A whole `if` that is kept is an `if` of the syntax tree. -/
theorem Kept.branch (source : Source) (shown : Node → Prop) (t cond body : FormTree)
    (formed : Formed source t) (kept : Kept shown t) (whole : LabelledIf t cond body) :
    ∃ node : If, shown (.expr (.branch node)) ∧ node.span = t.span := by
  cases kept with
  | expr _ e lowered visible =>
    obtain ⟨tested, block, els, -, -, -, rfl⟩ :=
      branch_of_labelledIf source t cond body e formed whole lowered
    exact ⟨_, visible, rfl⟩
  | block _ _ kind _ _ => simp [whole.kind] at kind
  | stmt _ _ kind _ _ => simp [whole.kind] at kind
  | dissolved _ kind _ =>
    rw [whole.kind] at kind
    exact absurd kind (by decide)

end RustLint.Lowering
