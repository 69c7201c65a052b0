import Mathlib.Data.List.Basic
import RustLint.Proofs.Lowering.Flattening

set_option autoImplicit false

namespace RustLint

namespace Ty

mutual

/-- The spans of a type and of its arguments. -/
def spans : Ty → List Span
  | ⟨_, _, span, args, _⟩ => span :: spansAll args

/-- The spans of all the types. -/
def spansAll : List Ty → List Span
  | [] => []
  | ty :: tys => spans ty ++ spansAll tys

end

theorem spans_eq (ty : Ty) : ty.spans = ty.span :: spansAll ty.args := by
  cases ty
  rfl

theorem mem_spansAll (tys : List Ty) (s : Span) : s ∈ spansAll tys ↔ ∃ ty ∈ tys, s ∈ ty.spans := by
  induction tys with
  | nil => simp [spansAll]
  | cons ty tys ih => simp [spansAll, ih]

end Ty

def FieldDef.spans (f : FieldDef) : List Span := f.span :: f.ty.spans

def TypeForm.fields : TypeForm → List FieldDef
  | struct _ fields | union fields => fields
  | enum => []

/-- The pattern that a condition binds. -/
def Cond.pattern? : Cond → Option Span
  | binds pat _ => some pat
  | test _ => none

namespace Node

def detailsOfExpr : Expr → List Span
  | .branch node => node.cond.pattern?.toList
  | .cast _ ty _ => ty.spans
  | _ => []

def detailsOfItem : Item → List Span
  | .typeDef d => d.form.fields.flatMap FieldDef.spans
  | .fn f => f.sig.ret.elim [] Ty.spans
  | .impl i => i.trait.elim [] Ty.spans ++ i.selfTy.spans
  | .traitDef _ | .mod _ | .other _ _ => []

/-- The spans of the patterns, fields and types that a node holds itself. -/
def details : Node → List Span
  | expr e => detailsOfExpr e
  | item i => detailsOfItem i
  | crate _ | block _ | stmt _ => []

end Node

namespace Lowering

/-- The node of the syntax tree is what the node of the parse tree becomes in one of the positions
that it can be in. -/
inductive Yields : FormTree → Node → Prop
  | expr (t : FormTree) (e : Expr) (lowered : t.value.expr = .ok e) : Yields t (.expr e)
  | block (t : FormTree) (b : Block) (lowered : t.value.block = .ok b) : Yields t (.block b)
  | stmt (t : FormTree) (attributes : List FormTree) (s : Stmt)
      (lowered : stmtOf t attributes = .ok (some s)) : Yields t (.stmt s)
  | item (t : FormTree) (attributes : List FormTree) (exported : Bool) (i : Item)
      (lowered : itemOf t attributes exported = .ok i) : Yields t (.item i)
  | method (t : FormTree) (exported : Bool) (f : FnItem) (lowered : fnOf t exported = .ok f) :
      Yields t (.item (.fn f))
  | member (t : FormTree) : Yields t (.item (.other t.kind t.span))
  | chain (t : FormTree) (parts : List Part) (lowered : flatten t.nodes.parts [] = .ok parts) :
      Yields t (.expr (.other "let_chain" parts t.span))
  /-- A call without anything to be called has its own place for that. -/
  | unknown (t : FormTree) : Yields t (.expr (.other "unknown" [] t.span))
  | file (t : FormTree) (items : List Item) (lowered : t.value.items true = .ok items) :
      Yields t (.crate ⟨items, t.span⟩)

/-- The node has the span of the node it was lowered from, and all in it comes from inside. -/
structure GrownFrom (t : FormTree) (n : Node) : Prop where
  span : n.span = t.span
  details : ∀ s ∈ n.details, ∃ u, t.Holds u ∧ u.span = s
  children : ∀ child ∈ n.children, ∃ u, t.Holds u ∧ Yields u child

/-- Nothing but what stands below the node has to come from inside. -/
theorem GrownFrom.ofChildren {t : FormTree} {n : Node} (span : n.span = t.span)
    (noDetails : n.details = [])
    (children : ∀ child ∈ n.children, ∃ u, t.Holds u ∧ Yields u child) : GrownFrom t n := by
  refine ⟨span, ?_, children⟩
  rw [noDetails]
  exact List.forall_mem_nil _

/-- Only the span has to be that of the node. -/
theorem GrownFrom.leaf {t : FormTree} {n : Node} (span : n.span = t.span)
    (noDetails : n.details = []) (noChildren : n.children = []) : GrownFrom t n := by
  refine .ofChildren span noDetails ?_
  rw [noChildren]
  exact List.forall_mem_nil _

/-! Expressions. -/

theorem yields_of_partOf {t : FormTree} {p : Part} (lowered : partOf t = .ok p) :
    Yields t (.ofPart p) := by
  unfold partOf at lowered
  split at lowered
  · obtain ⟨b, isBlock, rfl⟩ := map_eq_ok.mp lowered
    exact .block t b isBlock
  · obtain ⟨e, isExpr, rfl⟩ := map_eq_ok.mp lowered
    exact .expr t e isExpr

/-- What is found among the parts of a node comes from inside of it. -/
theorem yields_of_parts {t : FormTree} {parts : List Part}
    (lowered : flatten t.nodes.parts [] = .ok parts) (p : Part) (listed : p ∈ parts) :
    ∃ u, t.Holds u ∧ Yields u (.ofPart p) := by
  obtain ⟨u, outer, here⟩ := exists_mem_of_forall₂ (flatten_eq_ok.mp lowered).flip p listed
  obtain ⟨v, part, inside⟩ := List.mem_flatMap.mp outer
  have child := Siblings.mem_of_mem_parts t.nodes v part
  exact ⟨u, .head child (Tree.holds_of_mem_outermost inside), yields_of_partOf here⟩

/-- Only the span of the node is kept, and its kind or another name. -/
theorem grown_bare (t : FormTree) (kind : String) : GrownFrom t (.expr (.other kind [] t.span)) :=
  .leaf rfl rfl rfl

theorem grown_parts {t : FormTree} {parts : List Part} (kind : String)
    (lowered : flatten t.nodes.parts [] = .ok parts) :
    GrownFrom t (.expr (.other kind parts t.span)) := by
  refine .ofChildren rfl rfl ?_
  intro child below
  obtain ⟨p, listed, rfl⟩ := List.mem_map.mp below
  exact yields_of_parts lowered p listed

theorem grown_keepParts {t : FormTree} {e : Expr} (lowered : keepParts t.info t.nodes = .ok e) :
    GrownFrom t (.expr e) := by
  obtain ⟨parts, flat, rfl⟩ := keepParts_eq_ok.mp lowered
  exact grown_parts t.kind flat

theorem grown_aroundOf {t : FormTree} {e : Expr} {operand : Option FormTree} {build : Expr → Expr}
    (lowered : aroundOf t.info operand build = .ok e) (child : ∀ u ∈ operand, u ∈ t.children)
    (span : ∀ inner, (build inner).span = t.span)
    (details : ∀ inner, Node.detailsOfExpr (build inner) = [])
    (children : ∀ inner, Node.childrenOfExpr (build inner) = [.expr inner]) :
    GrownFrom t (.expr e) := by
  cases operand with
  | none =>
    cases lowered
    exact grown_bare t t.kind
  | some u =>
    obtain ⟨inner, ok, rfl⟩ := aroundOf_eq_ok.mp lowered
    refine .ofChildren (span inner) (details inner) ?_
    intro n below
    rw [Node.children, children] at below
    cases List.mem_singleton.mp below
    exact ⟨u, .single (child u rfl), .expr u inner ok⟩

/-- The operands are children, whether they are labelled or not. -/
theorem mem_of_binaryParts {below : Siblings Forms} {lhs rhs : FormTree} {op : String}
    (found : binaryParts below = .ok (lhs, op, rhs)) : lhs ∈ below ∧ rhs ∈ below := by
  unfold binaryParts at found
  dsimp only at found
  split at found
  · next l r left right =>
    split at found
    · cases found
      exact ⟨Siblings.mem_of_labelled? below _ l left, Siblings.mem_of_labelled? below _ r right⟩
    · cases found
  · split at found
    · next l r first last =>
      split at found
      · cases found
        exact ⟨(List.mem_filter.mp (List.mem_of_head? first)).1,
          (List.mem_filter.mp (List.mem_of_getLast? last)).1⟩
      · cases found
    · cases found

theorem grown_of_operands {t lhs rhs : FormTree} {op : String} {l r e : Expr}
    (found : binaryParts t.nodes = .ok (lhs, op, rhs)) (left : lhs.value.expr = .ok l)
    (right : rhs.value.expr = .ok r) (span : e.span = t.span)
    (details : Node.detailsOfExpr e = [])
    (children : Node.childrenOfExpr e = [.expr l, .expr r]) : GrownFrom t (.expr e) := by
  obtain ⟨inLeft, inRight⟩ := mem_of_binaryParts found
  refine .ofChildren span details ?_
  intro n below
  rw [Node.children, children] at below
  rcases List.mem_cons.mp below with rfl | behind
  · exact ⟨lhs, .single inLeft, .expr lhs l left⟩
  · cases List.mem_singleton.mp behind
    exact ⟨rhs, .single inRight, .expr rhs r right⟩

/-- A bound of a range that was read is the expression of one of the nodes. -/
theorem bound_of_fold (ts : List FormTree) (parts result : RangeParts)
    (folded : ts.foldlM RangeParts.add parts = .ok result) (e : Expr)
    (bound : result.lo = some e ∨ result.hi = some e) :
    (parts.lo = some e ∨ parts.hi = some e) ∨ ∃ t ∈ ts, t.value.expr = .ok e := by
  induction ts generalizing parts with
  | nil =>
    cases folded
    exact .inl bound
  | cons t ts ih =>
    rw [List.foldlM_cons] at folded
    obtain ⟨next, added, folded⟩ := bind_eq_ok.mp folded
    rcases ih next folded with early | ⟨u, later, ok⟩
    · unfold RangeParts.add at added
      split at added
      · cases pure_eq_ok.mp added
        exact .inl early
      · split at added
        · obtain ⟨hi, ok, same⟩ := bind_eq_ok.mp added
          cases pure_eq_ok.mp same
          rcases early with lower | upper
          · exact .inl (.inl lower)
          · exact .inr ⟨t, List.mem_cons_self, ok.trans (congrArg _ (Option.some.inj upper))⟩
        · obtain ⟨lo, ok, same⟩ := bind_eq_ok.mp added
          cases pure_eq_ok.mp same
          rcases early with lower | upper
          · exact .inr ⟨t, List.mem_cons_self, ok.trans (congrArg _ (Option.some.inj lower))⟩
          · exact .inl (.inr upper)
    · exact .inr ⟨u, List.mem_cons_of_mem _ later, ok⟩

theorem grown_rangeOf {t : FormTree} {e : Expr} (lowered : rangeOf t.info t.nodes = .ok e) :
    GrownFrom t (.expr e) := by
  obtain ⟨parts, folded, same⟩ := bind_eq_ok.mp lowered
  cases pure_eq_ok.mp same
  have bound (inner : Expr) (is : parts.lo = some inner ∨ parts.hi = some inner) :
      ∃ u, t.Holds u ∧ Yields u (.expr inner) := by
    rcases bound_of_fold _ {} parts folded inner is with early | ⟨u, spoken, ok⟩
    · rcases early with none | none <;> cases none
    · exact ⟨u, .single (List.mem_filter.mp spoken).1, .expr u inner ok⟩
  refine .ofChildren rfl rfl ?_
  intro n below
  rcases List.mem_append.mp below with lower | upper
  · obtain ⟨inner, is, rfl⟩ := Option.map_eq_some_iff.mp (Option.mem_toList.mp lower)
    exact bound inner (.inl is)
  · obtain ⟨inner, is, rfl⟩ := Option.map_eq_some_iff.mp (Option.mem_toList.mp upper)
    exact bound inner (.inr is)

theorem of_mem_exprsOf {ts : List FormTree} {es : List Expr} (lowered : exprsOf ts = .ok es)
    (e : Expr) (listed : e ∈ es) : ∃ t ∈ ts, t.value.expr = .ok e := by
  induction ts generalizing es with
  | nil =>
    cases lowered
    cases listed
  | cons t ts ih =>
    simp only [exprsOf, bind_eq_ok, pure_eq_ok] at lowered
    obtain ⟨first, ok, rest, others, rfl⟩ := lowered
    rcases List.mem_cons.mp listed with rfl | later
    · exact ⟨t, List.mem_cons_self, ok⟩
    · obtain ⟨u, inRest, found⟩ := ih others later
      exact ⟨u, List.mem_cons_of_mem _ inRest, found⟩

theorem yields_of_arguments {t : FormTree} {args : List Expr}
    (lowered : argumentsOf? ((t.nodes.labelled? "arguments").or (t.nodes.ofKind? "arguments")) =
      .ok args) (e : Expr) (listed : e ∈ args) : ∃ u, t.Holds u ∧ Yields u (.expr e) := by
  cases arguments : (t.nodes.labelled? "arguments").or (t.nodes.ofKind? "arguments") with
  | none =>
    rw [arguments] at lowered
    cases lowered
    cases listed
  | some list =>
    rw [arguments, argumentsOf?, argumentsOf] at lowered
    cases inner : exprsOf (list.nodes.parts.filter fun t => t.kind != "attribute_item") with
    | error _ =>
      rw [inner] at lowered
      cases lowered
    | ok es =>
      rw [inner] at lowered
      cases lowered
      obtain ⟨u, kept, ok⟩ := of_mem_exprsOf inner e listed
      have child := Siblings.mem_of_mem_parts _ u (List.mem_filter.mp kept).1
      have inside : list ∈ t.nodes := Siblings.mem_of_or arguments
        (Siblings.mem_of_labelled? _ _) (Siblings.mem_of_ofKind? _ _)
      exact ⟨u, .head inside (.single child), .expr u e ok⟩

theorem grown_callOf {t : FormTree} {e : Expr} (lowered : callOf t.info t.nodes = .ok e) :
    GrownFrom t (.expr e) := by
  rw [callOf_eq] at lowered
  obtain ⟨args, argsOk, lowered⟩ := bind_eq_ok.mp lowered
  have fromArgs (n : Node) (listed : n ∈ args.map Node.expr) : ∃ u, t.Holds u ∧ Yields u n := by
    obtain ⟨e, inArgs, rfl⟩ := List.mem_map.mp listed
    exact yields_of_arguments argsOk e inArgs
  unfold callWith at lowered
  split at lowered
  · cases pure_eq_ok.mp lowered
    refine .ofChildren rfl rfl ?_
    intro n below
    rcases List.mem_cons.mp below with rfl | behind
    · exact ⟨t, .refl, .unknown t⟩
    · exact fromArgs n behind
  · next func found =>
    have inFunc : func ∈ t.nodes := Siblings.mem_of_or found
      (Siblings.mem_of_labelled? _ _) (Siblings.mem_of_firstPart? _)
    split at lowered
    · next receiver method hit named =>
      obtain ⟨inner, ok, same⟩ := bind_eq_ok.mp lowered
      cases pure_eq_ok.mp same
      refine .ofChildren rfl rfl ?_
      intro n below
      rcases List.mem_cons.mp below with rfl | behind
      · have inReceiver : receiver ∈ func.nodes := by
          split at hit
          · exact Siblings.mem_of_or hit
              (Siblings.mem_of_labelled? _ _) (Siblings.mem_of_firstPart? _)
          · cases hit
        exact ⟨receiver, .head inFunc (.single inReceiver), .expr receiver inner ok⟩
      · exact fromArgs n behind
    · obtain ⟨inner, ok, same⟩ := bind_eq_ok.mp lowered
      cases pure_eq_ok.mp same
      refine .ofChildren rfl rfl ?_
      intro n below
      rcases List.mem_cons.mp below with rfl | behind
      · exact ⟨func, .single inFunc, .expr func inner ok⟩
      · exact fromArgs n behind

/-! Types. -/

section Types

variable {source : Source} {info : NodeInfo} {below : Siblings Forms}

theorem typeOf_span : (typeOf source info below).span = info.span := by
  unfold typeOf namedType scopedType genericType referenceType arrayType
  dsimp only
  repeat' split
  all_goals rfl

/-- The arguments of a type are the types of nodes further down. -/
theorem of_mem_typeOf_args (arg : Ty) (listed : arg ∈ (typeOf source info below).args) :
    ∃ child ∈ below, ∃ u, child.Holds u ∧ u.value.ty = arg := by
  have ofChild {child? : Option FormTree} (child : ∀ t, child? = some t → t ∈ below)
      (listed : arg ∈ (child?.map (·.value.ty)).toList) :
      ∃ child ∈ below, ∃ u, child.Holds u ∧ u.value.ty = arg := by
    obtain ⟨t, found, same⟩ := Option.map_eq_some_iff.mp (Option.mem_toList.mp listed)
    exact ⟨t, child t found, t, .refl, same⟩
  unfold typeOf at listed
  dsimp only at listed
  repeat' split at listed
  all_goals try cases listed
  · unfold namedType at listed
    split at listed <;> cases listed
  · unfold genericType at listed
    obtain ⟨u, isArg, same⟩ := List.mem_map.mp listed
    split at isArg
    · next list found =>
      have part := Siblings.mem_of_mem_parts _ u (List.mem_filter.mp isArg).1
      exact ⟨list, Siblings.mem_of_ofKind? below _ list found, u, .single part, same⟩
    · cases isArg
  · exact ofChild (fun t found => Siblings.mem_of_or found
      (Siblings.mem_of_labelled? _ _) (Siblings.mem_of_lastPart? _)) listed
  · obtain ⟨u, part, same⟩ := List.mem_map.mp listed
    exact ⟨u, Siblings.mem_of_mem_parts below u part, u, .refl, same⟩
  · exact ofChild (fun t found => Siblings.mem_of_or found
      (Siblings.mem_of_labelled? _ _) (Siblings.mem_of_firstPart? _)) listed

end Types

/-- A type and all types in it have the spans of nodes that its own node holds. -/
theorem Formed.spans_of_ty {source : Source} {t : FormTree} (formed : Formed source t) :
    ∀ s ∈ t.value.ty.spans, ∃ u, t.Holds u ∧ u.span = s := by
  induction t using Tree.inductionOnHeld with
  | step t ih =>
    intro s listed
    rw [formed.ty, Ty.spans_eq, typeOf_span] at listed
    rcases List.mem_cons.mp listed with rfl | deeper
    · exact ⟨t, .refl, rfl⟩
    · obtain ⟨arg, isArg, inArg⟩ := (Ty.mem_spansAll _ s).mp deeper
      obtain ⟨child, below, u, holds, rfl⟩ := of_mem_typeOf_args arg isArg
      obtain ⟨v, inside, same⟩ :=
        ih child below u holds ((formed.child below).holds holds) s inArg
      exact ⟨v, .head below (holds.trans inside), same⟩

theorem Formed.spans_of_held {source : Source} {t u : FormTree} (formed : Formed source t)
    (holds : t.Holds u) (s : Span) (listed : s ∈ u.value.ty.spans) :
    ∃ v, t.Holds v ∧ v.span = s := by
  obtain ⟨v, inside, same⟩ := (formed.holds holds).spans_of_ty s listed
  exact ⟨v, holds.trans inside, same⟩

/-! The parts of an `if`. -/

/-- What a condition evaluates comes from its node, and so does the pattern that it binds. -/
theorem yields_of_condOf {cond : FormTree} {tested : Cond} (lowered : condOf cond = .ok tested) :
    (∃ u, cond.Holds u ∧ Yields u (.ofCond tested)) ∧
      ∀ s ∈ tested.pattern?, ∃ u, cond.Holds u ∧ u.span = s := by
  unfold condOf at lowered
  split at lowered
  · split at lowered
    · cases lowered
    · next value found =>
      obtain ⟨inner, ok, same⟩ := bind_eq_ok.mp lowered
      cases pure_eq_ok.mp same
      have inside : value ∈ cond.nodes := Siblings.mem_of_or found
        (Siblings.mem_of_labelled? _ _) (Siblings.mem_of_lastPart? _)
      refine ⟨⟨value, .single inside, .expr value inner ok⟩, ?_⟩
      intro s isPattern
      cases isPattern
      cases pattern : (cond.nodes.labelled? "pattern").or cond.nodes.firstPart? with
      | none => exact ⟨cond, .refl, rfl⟩
      | some u =>
        exact ⟨u, .single (Siblings.mem_of_or pattern
          (Siblings.mem_of_labelled? _ _) (Siblings.mem_of_firstPart? _)), rfl⟩
  · split at lowered
    · obtain ⟨parts, flat, same⟩ := bind_eq_ok.mp lowered
      cases pure_eq_ok.mp same
      refine ⟨⟨cond, .refl, .chain cond parts flat⟩, ?_⟩
      intro s isPattern
      cases isPattern
      exact ⟨cond, .refl, rfl⟩
    · obtain ⟨inner, ok, same⟩ := bind_eq_ok.mp lowered
      cases pure_eq_ok.mp same
      refine ⟨⟨cond, .refl, .expr cond inner ok⟩, ?_⟩
      intro s none
      cases none

theorem yields_of_elseOf? {clause? : Option FormTree} {els : Else}
    (lowered : elseOf? clause? = .ok (some els)) :
    ∃ clause, clause? = some clause ∧ ∃ u, clause.Holds u ∧ Yields u (.ofElse els) := by
  cases clause? with
  | none => cases lowered
  | some clause =>
    refine ⟨clause, rfl, ?_⟩
    unfold elseOf? elseOf at lowered
    dsimp only at lowered
    split at lowered
    · cases lowered
    · next target first =>
      have inside : target ∈ clause.nodes := Siblings.mem_of_firstPart? _ target first
      split at lowered
      · obtain ⟨block, ok, same⟩ := bind_eq_ok.mp lowered
        cases pure_eq_ok.mp same
        exact ⟨target, .single inside, .block target block ok⟩
      · split at lowered
        · obtain ⟨e, ok, same⟩ := bind_eq_ok.mp lowered
          split at same
          · cases pure_eq_ok.mp same
            exact ⟨target, .single inside, .expr target _ ok⟩
          · cases pure_eq_ok.mp same
        · cases lowered

/-- An `if` comes from inside of its node when what it tests and its pattern do. -/
theorem grown_branch {t body : FormTree} {tested : Cond} {block : Block} {els : Option Else}
    (value : ∃ u, t.Holds u ∧ Yields u (.ofCond tested))
    (pattern : ∀ s ∈ tested.pattern?, ∃ u, t.Holds u ∧ u.span = s)
    (consequence : (t.nodes.labelled? "consequence").or (t.nodes.ofKind? "block") = some body)
    (blockOk : body.value.block = .ok block)
    (elsOk : elseOf? ((t.nodes.labelled? "alternative").or (t.nodes.ofKind? "else_clause")) =
      .ok els) :
    GrownFrom t (.expr (.branch ⟨tested, block, els, t.span⟩)) := by
  have inBody : body ∈ t.nodes := Siblings.mem_of_or consequence
    (Siblings.mem_of_labelled? _ _) (Siblings.mem_of_ofKind? _ _)
  refine ⟨rfl, fun s listed => pattern s (Option.mem_toList.mp listed), ?_⟩
  intro child below
  rcases List.mem_append.mp below with early | behind
  · rcases List.mem_cons.mp early with rfl | last
    · exact value
    · cases List.mem_singleton.mp last
      exact ⟨body, .single inBody, .block body block blockOk⟩
  · obtain ⟨target, found, rfl⟩ := Option.map_eq_some_iff.mp (Option.mem_toList.mp behind)
    cases found
    obtain ⟨clause, isClause, u, holds, yields⟩ := yields_of_elseOf? elsOk
    have inside : clause ∈ t.nodes := Siblings.mem_of_or isClause
      (Siblings.mem_of_labelled? _ _) (Siblings.mem_of_ofKind? _ _)
    exact ⟨u, .head inside holds, yields⟩

theorem grown_ifOf {t : FormTree} {e : Expr} (lowered : ifOf t.info t.nodes = .ok e) :
    GrownFrom t (.expr e) := by
  rcases ifOf_eq_ok lowered with
    kept | ⟨cond, body, tested, block, els, inside, consequence, elsOk, condOk, blockOk, rfl⟩
  · exact grown_keepParts kept
  · obtain ⟨⟨u, holds, yields⟩, pattern⟩ := yields_of_condOf condOk
    refine grown_branch ⟨u, .head inside holds, yields⟩ ?_ consequence blockOk elsOk
    intro s isPattern
    obtain ⟨v, holds, same⟩ := pattern s isPattern
    exact ⟨v, .head inside holds, same⟩

theorem grown_ifLetOf {t : FormTree} {e : Expr} (lowered : ifLetOf t.info t.nodes = .ok e) :
    GrownFrom t (.expr e) := by
  obtain ⟨pattern, value, body, scrutinee, block, els, parts, consequence, ok, blockOk, elsOk,
    rfl⟩ := ifLetOf_eq_ok lowered
  have inPattern := mem_of_letParts t.nodes pattern (.inl (congrArg Prod.fst parts))
  have inValue := mem_of_letParts t.nodes value (.inr (congrArg Prod.snd parts))
  refine grown_branch ⟨value, .single inValue, .expr value scrutinee ok⟩ ?_ consequence blockOk
    elsOk
  intro s isPattern
  cases isPattern
  exact ⟨pattern, .single inPattern, rfl⟩

/-! Every expression. -/

theorem grown_castOf {source : Source} {t : FormTree} {e : Expr} (formed : Formed source t)
    (lowered : castOf t.info t.nodes = .ok e) : GrownFrom t (.expr e) := by
  unfold castOf at lowered
  split at lowered
  · next value ty isValue isType =>
    obtain ⟨inner, ok, same⟩ := bind_eq_ok.mp lowered
    cases pure_eq_ok.mp same
    have inValue : value ∈ t.nodes := Siblings.mem_of_or isValue
      (Siblings.mem_of_labelled? _ _) (Siblings.mem_of_firstPart? _)
    have inType : ty ∈ t.nodes := Siblings.mem_of_or isType
      (Siblings.mem_of_labelled? _ _) (Siblings.mem_of_lastPart? _)
    refine ⟨rfl, fun s listed => formed.spans_of_held (.child inType) s listed, ?_⟩
    intro child below
    cases List.mem_singleton.mp below
    exact ⟨value, .single inValue, .expr value inner ok⟩
  · cases lowered
    exact grown_bare t t.kind

theorem grown_expr {source : Source} {t : FormTree} {e : Expr} (formed : Formed source t)
    (lowered : t.value.expr = .ok e) : GrownFrom t (.expr e) := by
  rw [formed.expr] at lowered
  by_cases binary : t.info.kind ∈ binaryKinds
  · obtain ⟨lhs, op, rhs, l, r, parts, left, right, rfl | rfl⟩ := exprOf_operands lowered binary
    · exact grown_of_operands parts left right rfl rfl rfl
    · exact grown_of_operands parts left right rfl rfl rfl
  by_cases other : t.info.kind ∉ placedKinds ∨
      t.info.kind ∈ ["expression_statement", "let_declaration"]
  · rw [exprOf_other other] at lowered
    exact grown_keepParts lowered
  obtain ⟨placed, noStatement⟩ := not_or.mp other
  have which := Decidable.not_not.mp placed
  simp only [placedKinds, List.mem_append, binary, false_or, List.mem_cons, List.not_mem_nil,
    or_false, not_or] at which noStatement
  rcases which with
    kind | kind | kind | kind | kind | kind | kind | kind | kind | kind | kind | kind | kind
  · obtain ⟨block, ok, rfl⟩ := exprOf_block lowered kind
    refine .ofChildren rfl rfl ?_
    intro child below
    cases List.mem_singleton.mp below
    exact ⟨t, .refl, .block t block ok⟩
  · exact absurd kind noStatement.1
  · exact absurd kind noStatement.2
  · rw [exprOf_if kind] at lowered
    exact grown_ifOf lowered
  · rw [exprOf_ifLet kind] at lowered
    exact grown_ifLetOf lowered
  · rw [exprOf_unary kind] at lowered
    exact grown_aroundOf lowered (Siblings.mem_of_lastPart? _)
      (fun _ => rfl) (fun _ => rfl) fun _ => rfl
  · rw [exprOf_reference kind] at lowered
    exact grown_aroundOf lowered (fun u found => Siblings.mem_of_or found
      (Siblings.mem_of_labelled? _ _) (Siblings.mem_of_lastPart? _))
      (fun _ => rfl) (fun _ => rfl) fun _ => rfl
  · rw [exprOf_castOf kind] at lowered
    exact grown_castOf formed lowered
  · rw [exprOf_range kind] at lowered
    exact grown_rangeOf lowered
  · rw [exprOf_closure kind] at lowered
    exact grown_aroundOf lowered (fun u found => Siblings.mem_of_or found
      (Siblings.mem_of_labelled? _ _) (Siblings.mem_of_lastPart? _))
      (fun _ => rfl) (fun _ => rfl) fun _ => rfl
  · rw [exprOf_paren kind] at lowered
    exact grown_aroundOf lowered (Siblings.mem_of_firstPart? _)
      (fun _ => rfl) (fun _ => rfl) fun _ => rfl
  · rw [exprOf_call kind] at lowered
    exact grown_callOf lowered
  · rw [exprOf_macroCall kind] at lowered
    cases lowered
    exact grown_bare t t.kind

end Lowering

end RustLint
