import RustLint.Proofs.Lowering.Lookup
import RustLint.Lowering.Expr
import Mathlib.Logic.Relation

set_option autoImplicit false

namespace RustLint.Lowering

variable {α β : Type}

/-- The three kinds of two operands around an operator. -/
def binaryKinds : List String :=
  ["binary_expression", "assignment_expression", "compound_assignment_expr"]

/-- The kinds whose evaluated parts stand in known places. All that a node of another kind holds
counts as evaluated. -/
def placedKinds : List String := binaryKinds ++ [
  "block", "expression_statement", "let_declaration", "if_expression", "if_let_expression",
  "unary_expression", "reference_expression", "type_cast_expression", "range_expression",
  "closure_expression", "parenthesized_expression", "call_expression", "macro_invocation"]

/-- An operator between the bounds of a range. -/
def isRangeOp (t : Tree α) : Bool := !t.info.named && rangeOps.contains t.kind

/-- An `if` with its condition and its block under their labels. -/
structure LabelledIf (t cond body : Tree α) : Prop where
  kind : t.kind = "if_expression"
  cond : t.nodes.labelled? "condition" = some cond
  body : t.nodes.labelled? "consequence" = some body

/-- An `if let` of the older grammar with its parts under their labels. -/
structure LabelledIfLet (t pattern value body : Tree α) : Prop where
  kind : t.kind = "if_let_expression"
  pattern : t.nodes.labelled? "pattern" = some pattern
  value : t.nodes.labelled? "value" = some value
  body : t.nodes.labelled? "consequence" = some body

/-- The node behind the `else` of an `if`. -/
def elseTarget? (t : Tree α) : Option (Tree α) :=
  ((t.nodes.labelled? "alternative").or (t.nodes.ofKind? "else_clause")).bind (·.nodes.firstPart?)

/-- A node that can follow `else`: a block or an `if` in one of its forms. -/
inductive FollowsElse (u : Tree α) : Prop
  | block (kind : u.kind = "block")
  | branch (cond body : Tree α) (whole : LabelledIf u cond body)
  | letBranch (kind : u.kind = "if_let_expression")

/-- From a node to a node right below it that is evaluated along with it. -/
inductive Step (t : Tree α) : Tree α → Prop
  | statement (u : Tree α) (kind : t.kind = "block") (child : u ∈ t.children)
      (counts : u.kind ∉ ["empty_statement", "inner_attribute_item", "label"]) : Step t u
  | only (u : Tree α) (kind : t.kind ∈ ["expression_statement", "parenthesized_expression"])
      (first : t.nodes.firstPart? = some u) : Step t u
  | operand (u : Tree α) (kind : t.kind = "unary_expression")
      (last : t.nodes.lastPart? = some u) : Step t u
  | side (lhs op rhs u : Tree α) (kind : t.kind ∈ binaryKinds)
      (left : t.nodes.labelled? "left" = some lhs) (right : t.nodes.labelled? "right" = some rhs)
      (operator : t.nodes.labelled? "operator" = some op) (oneOf : u = lhs ∨ u = rhs) : Step t u
  | bound (u : Tree α) (kind : t.kind = "let_declaration")
      (value : t.nodes.labelled? "value" = some u) : Step t u
  | diverging (u : Tree α) (kind : t.kind = "let_declaration")
      (alternative : t.nodes.labelled? "alternative" = some u) (isBlock : u.kind = "block") :
      Step t u
  | referenced (u : Tree α) (kind : t.kind = "reference_expression")
      (value : t.nodes.labelled? "value" = some u) : Step t u
  | converted (u ty : Tree α) (kind : t.kind = "type_cast_expression")
      (value : t.nodes.labelled? "value" = some u) (type : t.nodes.labelled? "type" = some ty) :
      Step t u
  | closure (u : Tree α) (kind : t.kind = "closure_expression")
      (body : t.nodes.labelled? "body" = some u) : Step t u
  | callee (u : Tree α) (kind : t.kind = "call_expression")
      (function : t.nodes.labelled? "function" = some u) (noField : u.kind ≠ "field_expression") :
      Step t u
  | receiver (function u : Tree α) (kind : t.kind = "call_expression")
      (labelled : t.nodes.labelled? "function" = some function)
      (isField : function.kind = "field_expression")
      (value : function.nodes.labelled? "value" = some u) : Step t u
  | argument (list u : Tree α) (kind : t.kind = "call_expression")
      (arguments : (t.nodes.labelled? "arguments").or (t.nodes.ofKind? "arguments") = some list)
      (child : u ∈ list.children) : Step t u
  /-- The lower bound is the last thing in front of the operator. -/
  | lower (u : Tree α) (front behind : List (Tree α)) (kind : t.kind = "range_expression")
      (spoken : t.nodes.spoken = front ++ u :: behind)
      (before : ∀ v ∈ front, isRangeOp v = false) (next : ∀ v ∈ behind.head?, isRangeOp v = true) :
      Step t u
  /-- The upper bound is the last thing behind it. -/
  | upper (u : Tree α) (front behind : List (Tree α)) (kind : t.kind = "range_expression")
      (spoken : t.nodes.spoken = front ++ u :: behind)
      (after : ∃ v ∈ front, isRangeOp v = true) (last : ∀ v ∈ behind, isRangeOp v = true) : Step t u
  | test (u body : Tree α) (whole : LabelledIf t u body)
      (plain : u.kind ∉ ["let_condition", "let_chain"]) : Step t u
  | scrutinee (cond body u : Tree α) (whole : LabelledIf t cond body)
      (kind : cond.kind = "let_condition") (value : cond.nodes.labelled? "value" = some u) : Step t u
  | link (cond body u : Tree α) (whole : LabelledIf t cond body) (kind : cond.kind = "let_chain")
      (child : u ∈ cond.children) : Step t u
  | consequence (cond u : Tree α) (whole : LabelledIf t cond u) (isBlock : u.kind = "block") :
      Step t u
  | alternative (cond body u : Tree α) (whole : LabelledIf t cond body)
      (target : elseTarget? t = some u) (follows : FollowsElse u) : Step t u
  | letValue (pattern u body : Tree α) (whole : LabelledIfLet t pattern u body) : Step t u
  | letConsequence (pattern value u : Tree α) (whole : LabelledIfLet t pattern value u)
      (isBlock : u.kind = "block") : Step t u
  | letAlternative (pattern value body u : Tree α) (whole : LabelledIfLet t pattern value body)
      (target : elseTarget? t = some u) (follows : FollowsElse u) : Step t u
  | inside (u : Tree α) (kind : t.kind ∉ placedKinds) (child : u ∈ t.children) : Step t u

/-- Named, no comment, no item and no attribute. -/
structure IsCode (u : Tree α) : Prop where
  part : u.info.isPart = true
  noItem : isItemKind u.kind = false
  noAttribute : u.kind ≠ "attribute_item"

theorem IsCode.noRangeOp {u : Tree α} (code : IsCode u) : isRangeOp u = false := by
  have named : u.info.named = true := (Bool.and_eq_true_iff.mp code.part).1
  rw [isRangeOp, named]
  rfl

/-- One step, to a node that can be code. -/
def Enters (t u : Tree α) : Prop := Step t u ∧ IsCode u

/-- From a node to a node that is evaluated along with it, in any number of steps. -/
abbrev Evaluates (t u : Tree α) : Prop := Relation.ReflTransGen Enters t u

/-- The function and the block that is its body. -/
structure HasBody (fn body : Tree α) : Prop where
  kind : fn.kind = "function_item"
  body : fn.nodes.ofKind? "block" = some body

/-- The items of a file: those on its top level, those in its modules and the functions in its
`impl`s at any depth, and those in the blocks that its functions evaluate. -/
inductive IsItemOf (root : Tree α) : Tree α → Prop
  | top (t : Tree α) (child : t ∈ root.children) (part : t.info.isPart = true)
      (item : isItemKind t.kind = true) : IsItemOf root t
  | inModule (m list t : Tree α) (outer : IsItemOf root m) (kind : m.kind = "mod_item")
      (listed : m.nodes.ofKind? "declaration_list" = some list) (child : t ∈ list.children)
      (part : t.info.isPart = true) (item : isItemKind t.kind = true) : IsItemOf root t
  | inImpl (i list t : Tree α) (outer : IsItemOf root i) (kind : i.kind = "impl_item")
      (listed : i.nodes.ofKind? "declaration_list" = some list) (child : t ∈ list.children)
      (part : t.info.isPart = true) (item : t.kind = "function_item") : IsItemOf root t
  | inBlock (fn body block t : Tree α) (outer : IsItemOf root fn) (hasBody : HasBody fn body)
      (reached : Evaluates body block) (kind : block.kind = "block") (child : t ∈ block.children)
      (part : t.info.isPart = true) (item : isItemKind t.kind = true) : IsItemOf root t

/-! What a step from a node of one kind leads to. -/

/-- A step leads to a child or to a child of a child. -/
theorem Step.below {t u : Tree α} (step : Step t u) :
    u ∈ t.children ∨ ∃ v ∈ t.children, u ∈ v.children := by
  have labelled {v : Tree α} {label : String} (found : t.nodes.labelled? label = some v) :
      v ∈ t.children := Siblings.mem_of_labelled? t.nodes label v found
  have spokenChild {v : Tree α} {front behind : List (Tree α)}
      (spoken : t.nodes.spoken = front ++ v :: behind) : v ∈ t.children := by
    have listed : v ∈ t.nodes.spoken := by simp [spoken]
    exact (List.mem_filter.mp listed).1
  have elseChild {v : Tree α} (target : elseTarget? t = some v) :
      ∃ clause ∈ t.children, v ∈ clause.children := by
    obtain ⟨clause, found, first⟩ := Option.bind_eq_some_iff.mp target
    refine ⟨clause, ?_, Siblings.mem_of_mem_parts _ v (Siblings.mem_parts_of_firstPart? _ v first)⟩
    rcases Option.or_eq_some_iff.mp found with label | ⟨-, kind⟩
    · exact labelled label
    · exact Siblings.mem_of_ofKind? t.nodes _ clause kind
  cases step with
  | statement _ _ child _ => exact .inl child
  | only _ _ first =>
    exact .inl (Siblings.mem_of_mem_parts _ u (Siblings.mem_parts_of_firstPart? _ u first))
  | operand _ _ last =>
    exact .inl (Siblings.mem_of_mem_parts _ u (Siblings.mem_parts_of_lastPart? _ u last))
  | side lhs op rhs _ _ left right _ oneOf =>
    rcases oneOf with rfl | rfl
    · exact .inl (labelled left)
    · exact .inl (labelled right)
  | bound _ _ value => exact .inl (labelled value)
  | diverging _ _ alternative _ => exact .inl (labelled alternative)
  | referenced _ _ value => exact .inl (labelled value)
  | converted _ ty _ value _ => exact .inl (labelled value)
  | closure _ _ body => exact .inl (labelled body)
  | callee _ _ function _ => exact .inl (labelled function)
  | receiver function _ _ isFunction _ value =>
    exact .inr ⟨function, labelled isFunction, Siblings.mem_of_labelled? _ _ u value⟩
  | argument list _ _ arguments child =>
    refine .inr ⟨list, ?_, child⟩
    rcases Option.or_eq_some_iff.mp arguments with label | ⟨-, kind⟩
    · exact labelled label
    · exact Siblings.mem_of_ofKind? t.nodes _ list kind
  | lower _ front behind _ spoken _ _ => exact .inl (spokenChild spoken)
  | upper _ front behind _ spoken _ _ => exact .inl (spokenChild spoken)
  | test _ body whole _ => exact .inl (labelled whole.cond)
  | scrutinee cond body _ whole _ value =>
    exact .inr ⟨cond, labelled whole.cond, Siblings.mem_of_labelled? _ _ u value⟩
  | link cond body _ whole _ child => exact .inr ⟨cond, labelled whole.cond, child⟩
  | consequence cond _ whole _ => exact .inl (labelled whole.body)
  | alternative cond body _ whole target _ => exact .inr (elseChild target)
  | letValue pattern _ body whole => exact .inl (labelled whole.value)
  | letConsequence pattern value _ whole _ => exact .inl (labelled whole.body)
  | letAlternative pattern value body _ whole target _ => exact .inr (elseChild target)
  | inside _ _ child => exact .inl child

/-- From a block a step leads to a statement, from a statement to what it evaluates. -/
theorem Step.of_statement {t u : Tree α} (step : Step t u)
    (kind : t.kind ∈ ["block", "expression_statement", "let_declaration"]) :
    (t.kind = "block" ∧ u ∈ t.children ∧
      u.kind ∉ ["empty_statement", "inner_attribute_item", "label"]) ∨
    (t.kind = "expression_statement" ∧ t.nodes.firstPart? = some u) ∨
    (t.kind = "let_declaration" ∧ (t.nodes.labelled? "value" = some u ∨
      (t.nodes.labelled? "alternative" = some u ∧ u.kind = "block"))) := by
  have which : t.kind = "block" ∨ t.kind = "expression_statement" ∨ t.kind = "let_declaration" := by
    simpa using kind
  cases step with
  | statement _ isBlock child counts => exact .inl ⟨isBlock, child, counts⟩
  | only _ is first =>
    rcases which with other | statement | other
    · simp [other] at is
    · exact .inr (.inl ⟨statement, first⟩)
    · simp [other] at is
  | bound _ isLet value => exact .inr (.inr ⟨isLet, .inl value⟩)
  | diverging _ isLet alternative isBlock => exact .inr (.inr ⟨isLet, .inr ⟨alternative, isBlock⟩⟩)
  | test _ _ whole _ | scrutinee _ _ _ whole _ _ | link _ _ _ whole _ _ | consequence _ _ whole _
  | alternative _ _ _ whole _ _ | letValue _ _ _ whole | letConsequence _ _ _ whole _
  | letAlternative _ _ _ _ whole _ _ =>
    rw [whole.kind] at kind
    exact absurd kind (by decide)
  | inside _ unplaced _ =>
    rcases which with same | same | same <;>
      · rw [same] at unplaced
        exact absurd (by decide) unplaced
  | side _ _ _ _ is _ _ _ _ =>
    rcases which with same | same | same <;>
      · rw [same] at is
        exact absurd is (by decide)
  | operand _ is _ | referenced _ is _ | converted _ _ is _ _ | closure _ is _ | callee _ is _ _
  | receiver _ _ is _ _ _ | argument _ _ is _ _ | lower _ _ _ is _ _ _ | upper _ _ _ is _ _ _ =>
    rw [is] at kind
    exact absurd kind (by decide)

/-! Annotating a tree keeps its steps, its items and what they evaluate. -/
section Annotate

variable (f : NodeInfo → List (Tree β) → β)

theorem mem_children_annotate (t u : Tree α) (child : u ∈ t.children) :
    Tree.annotate f u ∈ (Tree.annotate f t).children := by
  rw [Tree.children_annotate]
  exact List.mem_map_of_mem child

theorem labelled?_annotate (t u : Tree α) (label : String)
    (found : t.nodes.labelled? label = some u) :
    (Tree.annotate f t).nodes.labelled? label = some (Tree.annotate f u) := by
  rw [Tree.nodes, Tree.children_annotate, Siblings.labelled?_map (Tree.info_annotate f),
    found, Option.map_some]

theorem ofKind?_annotate (t u : Tree α) (kind : String)
    (found : t.nodes.ofKind? kind = some u) :
    (Tree.annotate f t).nodes.ofKind? kind = some (Tree.annotate f u) := by
  rw [Tree.nodes, Tree.children_annotate, Siblings.ofKind?_map (Tree.info_annotate f),
    found, Option.map_some]

theorem labelledOrKind?_annotate (t u : Tree α) (label kind : String)
    (found : (t.nodes.labelled? label).or (t.nodes.ofKind? kind) = some u) :
    ((Tree.annotate f t).nodes.labelled? label).or ((Tree.annotate f t).nodes.ofKind? kind) =
      some (Tree.annotate f u) := by
  rw [Tree.nodes, Tree.children_annotate, Siblings.labelled?_map (Tree.info_annotate f),
    Siblings.ofKind?_map (Tree.info_annotate f), ← Option.map_or, found, Option.map_some]

theorem firstPart?_annotate (t u : Tree α) (found : t.nodes.firstPart? = some u) :
    (Tree.annotate f t).nodes.firstPart? = some (Tree.annotate f u) := by
  rw [Tree.nodes, Tree.children_annotate, Siblings.firstPart?_map (Tree.info_annotate f),
    found, Option.map_some]

theorem lastPart?_annotate (t u : Tree α) (found : t.nodes.lastPart? = some u) :
    (Tree.annotate f t).nodes.lastPart? = some (Tree.annotate f u) := by
  rw [Tree.nodes, Tree.children_annotate, Siblings.lastPart?_map (Tree.info_annotate f),
    found, Option.map_some]

theorem spoken_annotate (t u : Tree α) (front behind : List (Tree α))
    (spoken : t.nodes.spoken = front ++ u :: behind) :
    (Tree.annotate f t).nodes.spoken = front.map (Tree.annotate f) ++
      Tree.annotate f u :: behind.map (Tree.annotate f) := by
  rw [Tree.nodes, Tree.children_annotate, Siblings.spoken_map (Tree.info_annotate f), spoken,
    List.map_append, List.map_cons]

theorem isRangeOp_annotate (t : Tree α) : isRangeOp (Tree.annotate f t) = isRangeOp t := by
  rw [isRangeOp, Tree.info_annotate, Tree.kind_annotate, isRangeOp]

theorem LabelledIf.annotate {t cond body : Tree α} (whole : LabelledIf t cond body) :
    LabelledIf (Tree.annotate f t) (Tree.annotate f cond) (Tree.annotate f body) where
  kind := by rw [Tree.kind_annotate, whole.kind]
  cond := labelled?_annotate f t cond _ whole.cond
  body := labelled?_annotate f t body _ whole.body

theorem LabelledIfLet.annotate {t pattern value body : Tree α}
    (whole : LabelledIfLet t pattern value body) :
    LabelledIfLet (Tree.annotate f t) (Tree.annotate f pattern) (Tree.annotate f value)
      (Tree.annotate f body) where
  kind := by rw [Tree.kind_annotate, whole.kind]
  pattern := labelled?_annotate f t pattern _ whole.pattern
  value := labelled?_annotate f t value _ whole.value
  body := labelled?_annotate f t body _ whole.body

theorem elseTarget?_annotate (t u : Tree α) (target : elseTarget? t = some u) :
    elseTarget? (Tree.annotate f t) = some (Tree.annotate f u) := by
  obtain ⟨clause, found, first⟩ := Option.bind_eq_some_iff.mp target
  rw [elseTarget?, labelledOrKind?_annotate f t clause _ _ found]
  exact firstPart?_annotate f clause u first

theorem FollowsElse.annotate {u : Tree α} (follows : FollowsElse u) :
    FollowsElse (Tree.annotate f u) := by
  cases follows with
  | block kind => exact .block (by rw [Tree.kind_annotate, kind])
  | branch cond body whole => exact .branch _ _ (whole.annotate f)
  | letBranch kind => exact .letBranch (by rw [Tree.kind_annotate, kind])

theorem Step.annotate {t u : Tree α} (step : Step t u) :
    Step (Tree.annotate f t) (Tree.annotate f u) := by
  cases step with
  | statement _ kind child counts =>
    exact .statement _ (by rwa [Tree.kind_annotate]) (mem_children_annotate f t u child)
      (by rwa [Tree.kind_annotate])
  | only _ kind first =>
    exact .only _ (by rwa [Tree.kind_annotate]) (firstPart?_annotate f t u first)
  | operand _ kind last =>
    exact .operand _ (by rwa [Tree.kind_annotate]) (lastPart?_annotate f t u last)
  | side lhs op rhs _ kind left right operator oneOf =>
    refine .side _ _ _ _ (by rwa [Tree.kind_annotate]) (labelled?_annotate f t lhs _ left)
      (labelled?_annotate f t rhs _ right) (labelled?_annotate f t op _ operator) ?_
    exact oneOf.imp (congrArg _) (congrArg _)
  | bound _ kind value =>
    exact .bound _ (by rwa [Tree.kind_annotate]) (labelled?_annotate f t u _ value)
  | diverging _ kind alternative isBlock =>
    exact .diverging _ (by rwa [Tree.kind_annotate]) (labelled?_annotate f t u _ alternative)
      (by rwa [Tree.kind_annotate])
  | referenced _ kind value =>
    exact .referenced _ (by rwa [Tree.kind_annotate]) (labelled?_annotate f t u _ value)
  | converted _ ty kind value type =>
    exact .converted _ _ (by rwa [Tree.kind_annotate]) (labelled?_annotate f t u _ value)
      (labelled?_annotate f t ty _ type)
  | closure _ kind body =>
    exact .closure _ (by rwa [Tree.kind_annotate]) (labelled?_annotate f t u _ body)
  | callee _ kind function noField =>
    exact .callee _ (by rwa [Tree.kind_annotate]) (labelled?_annotate f t u _ function)
      (by rwa [Tree.kind_annotate])
  | receiver function _ kind labelled isField value =>
    exact .receiver _ _ (by rwa [Tree.kind_annotate])
      (labelled?_annotate f t function _ labelled) (by rwa [Tree.kind_annotate])
      (labelled?_annotate f function u _ value)
  | argument list _ kind arguments child =>
    exact .argument _ _ (by rwa [Tree.kind_annotate])
      (labelledOrKind?_annotate f t list _ _ arguments) (mem_children_annotate f list u child)
  | lower _ front behind kind spoken before next =>
    refine .lower _ _ _ (by rwa [Tree.kind_annotate])
      (spoken_annotate f t u front behind spoken) ?_ ?_
    · intro v listed
      obtain ⟨w, inFront, rfl⟩ := List.mem_map.mp listed
      rw [isRangeOp_annotate, before w inFront]
    · intro v first
      rw [List.head?_map] at first
      obtain ⟨w, head, rfl⟩ := Option.map_eq_some_iff.mp first
      rw [isRangeOp_annotate, next w head]
  | upper _ front behind kind spoken after last =>
    obtain ⟨v, inFront, operator⟩ := after
    refine .upper _ _ _ (by rwa [Tree.kind_annotate])
      (spoken_annotate f t u front behind spoken) ?_ ?_
    · exact ⟨_, List.mem_map_of_mem inFront, by rw [isRangeOp_annotate, operator]⟩
    · intro v listed
      obtain ⟨w, isBehind, rfl⟩ := List.mem_map.mp listed
      rw [isRangeOp_annotate, last w isBehind]
  | test _ body whole plain =>
    exact .test _ _ (whole.annotate f) (by rwa [Tree.kind_annotate])
  | scrutinee cond body _ whole kind value =>
    exact .scrutinee _ _ _ (whole.annotate f) (by rwa [Tree.kind_annotate])
      (labelled?_annotate f cond u _ value)
  | link cond body _ whole kind child =>
    exact .link _ _ _ (whole.annotate f) (by rwa [Tree.kind_annotate])
      (mem_children_annotate f cond u child)
  | consequence cond _ whole isBlock =>
    exact .consequence _ _ (whole.annotate f) (by rwa [Tree.kind_annotate])
  | alternative cond body _ whole target follows =>
    exact .alternative _ _ _ (whole.annotate f) (elseTarget?_annotate f t u target)
      (follows.annotate f)
  | letValue pattern _ body whole => exact .letValue _ _ _ (whole.annotate f)
  | letConsequence pattern value _ whole isBlock =>
    exact .letConsequence _ _ _ (whole.annotate f) (by rwa [Tree.kind_annotate])
  | letAlternative pattern value body _ whole target follows =>
    exact .letAlternative _ _ _ _ (whole.annotate f) (elseTarget?_annotate f t u target)
      (follows.annotate f)
  | inside _ kind child =>
    exact .inside _ (by rwa [Tree.kind_annotate]) (mem_children_annotate f t u child)

theorem Evaluates.annotate {t u : Tree α} (evaluates : Evaluates t u) :
    Evaluates (Tree.annotate f t) (Tree.annotate f u) := by
  apply Relation.ReflTransGen.lift (Tree.annotate f) _ t u evaluates
  intro v w enters
  refine ⟨enters.1.annotate f, ?_, ?_, ?_⟩
  · rw [Tree.info_annotate, enters.2.part]
  · rw [Tree.kind_annotate, enters.2.noItem]
  · rw [Tree.kind_annotate]
    exact enters.2.noAttribute

theorem HasBody.annotate {fn body : Tree α} (hasBody : HasBody fn body) :
    HasBody (Tree.annotate f fn) (Tree.annotate f body) where
  kind := by rw [Tree.kind_annotate, hasBody.kind]
  body := ofKind?_annotate f fn body _ hasBody.body

theorem IsItemOf.annotate {root t : Tree α} (item : IsItemOf root t) :
    IsItemOf (Tree.annotate f root) (Tree.annotate f t) := by
  induction item with
  | top t child part item =>
    exact .top _ (mem_children_annotate f root t child) (by rwa [Tree.info_annotate])
      (by rwa [Tree.kind_annotate])
  | inModule m list t _ kind listed child part item outer =>
    exact .inModule _ _ _ outer (by rwa [Tree.kind_annotate]) (ofKind?_annotate f m list _ listed)
      (mem_children_annotate f list t child) (by rwa [Tree.info_annotate])
      (by rwa [Tree.kind_annotate])
  | inImpl i list t _ kind listed child part item outer =>
    exact .inImpl _ _ _ outer (by rwa [Tree.kind_annotate]) (ofKind?_annotate f i list _ listed)
      (mem_children_annotate f list t child) (by rwa [Tree.info_annotate])
      (by rwa [Tree.kind_annotate])
  | inBlock fn body block t _ hasBody reached kind child part item outer =>
    exact .inBlock _ _ _ _ outer (hasBody.annotate f) (reached.annotate f)
      (by rwa [Tree.kind_annotate]) (mem_children_annotate f block t child)
      (by rwa [Tree.info_annotate]) (by rwa [Tree.kind_annotate])

end Annotate

end RustLint.Lowering
