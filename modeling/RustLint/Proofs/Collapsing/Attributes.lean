import RustLint.Proofs.Collapsing.Placement

set_option autoImplicit false

namespace RustLint.CollapsibleIf

open Lowering (elseTarget? forms formed_forms)

/-- The kinds of nodes that are an `if`. -/
def IsIf (t : ParseTree) : Prop := t.kind = "if_expression" ∨ t.kind = "if_let_expression"

theorem IsIf.of_kind {P : String → Prop} {t : ParseTree} (isIf : IsIf t)
    (plain : P "if_expression") (withLet : P "if_let_expression") : P t.kind := by
  rcases isIf with kind | kind <;> rwa [kind]

/-- The block behind the condition of an `if`. -/
def thenBlock? {α : Type} (t : Tree α) : Option (Tree α) :=
  (t.nodes.labelled? "consequence").or (t.nodes.ofKind? "block")

/-- The block holds attributes and behind them the `if`, bare or as a statement. -/
structure AttributedIf (block : ParseTree) (attributes : List ParseTree) (node : ParseTree) :
    Prop where
  isBlock : block.kind = "block"
  nonempty : attributes ≠ []
  areAttributes : ∀ a ∈ attributes, a.kind = "attribute_item"
  isIf : IsIf node
  parts : block.nodes.parts = attributes ++ [node] ∨
    ∃ stmt, block.nodes.parts = attributes ++ [stmt] ∧ stmt.kind = "expression_statement" ∧
      stmt.nodes.firstPart? = some node

/-- The source of each attribute stands in the text. -/
def Contains (source : Source) (attributes : List ParseTree) (text : String) : Prop :=
  ∀ a ∈ attributes, (Lowering.textOf source a.info).toList <:+: text.toList

/-- If the expression collapses, the replacement contains the attributes. -/
def KeepsAttributes (source : Source) (attributes : List ParseTree) (e : Expr) : Prop :=
  ∀ c, ofExpr? e = some c → Contains source attributes (c.suggestion source).replacement

/-! The lowered block. -/

/-- Attributes are passed on to what stands behind them. -/
theorem stmtsOf_attributes (before attributes : List Lowering.FormTree) (t : Lowering.FormTree)
    (areAttributes : ∀ a ∈ attributes, a.kind = "attribute_item")
    (other : t.kind ≠ "attribute_item") :
    Lowering.stmtsOf before (attributes ++ [t]) =
      Option.toList <$> Lowering.stmtOf t (before ++ attributes) := by
  induction attributes generalizing before with
  | nil =>
    rw [List.nil_append, List.append_nil, Lowering.stmtsOf, if_neg other]
    cases Lowering.stmtOf t before with
    | error e => rfl
    | ok stmt? => exact congrArg Except.ok (List.append_nil stmt?.toList)
  | cons a attributes ih =>
    rw [List.cons_append, Lowering.stmtsOf, if_pos (areAttributes a List.mem_cons_self),
      ih (before ++ [a]) fun u later => areAttributes u (List.mem_cons_of_mem _ later),
      List.append_assoc, List.singleton_append]

section Attributed

variable {source : Source} {block node : ParseTree} {attributes : List ParseTree}

/-- Of the block only the `if` is left. -/
theorem stmts_of_attributed (attributed : AttributedIf block attributes node) (b : Block)
    (lowered : Block.ofTree source block = .ok b) :
    ∃ e semi span, Expr.ofTree source node = .ok e ∧ b.stmts = [.expr e semi span] := by
  -- The attributes come along to the statement, and only an item would take them.
  have passed (stmt : ParseTree) (parts : block.nodes.parts = attributes ++ [stmt])
      (other : stmt.kind ≠ "attribute_item") :
      Option.toList <$> Lowering.stmtOf (forms source stmt) (attributes.map (forms source)) =
        .ok b.stmts := by
    have stmts := Lowering.stmts_of_block source _ b (formed_forms source block) lowered
    rw [Tree.nodes, forms, Tree.children_annotate, Siblings.parts_map (Tree.info_annotate _),
      parts, List.map_append, List.map_singleton, stmtsOf_attributes] at stmts
    · exact stmts
    · intro a listed
      obtain ⟨t, isAttribute, rfl⟩ := List.mem_map.mp listed
      rw [Tree.kind_annotate]
      exact attributed.areAttributes t isAttribute
    · rwa [Tree.kind_annotate]
  have kind : (forms source node).kind = node.kind := Tree.kind_annotate _ node
  rcases attributed.parts with bare | ⟨stmt, statement, isStmt, first⟩
  · have isIf {P : String → Prop} := attributed.isIf.of_kind (P := P)
    have stmts := passed node bare (isIf (P := (· ≠ _)) (by decide) (by decide))
    rw [Lowering.stmtOf_expr (forms source node) _
      (kind ▸ isIf (P := (· ∉ _)) (by decide) (by decide))
      (kind ▸ isIf (P := (· ∉ _)) (by decide) (by decide))
      (kind ▸ isIf (P := (Lowering.isItemKind · = false)) (by decide) (by decide))] at stmts
    obtain ⟨stmt?, ok, same⟩ := Lowering.map_eq_ok.mp stmts
    obtain ⟨e, lowered, isStmt⟩ := Lowering.bind_eq_ok.mp ok
    cases Lowering.pure_eq_ok.mp isStmt
    exact ⟨e, false, _, lowered, same.symm⟩
  · have stmts := passed stmt statement (by simp [isStmt])
    have inner : (forms source stmt).nodes.firstPart? = some (forms source node) :=
      Lowering.firstPart?_annotate _ stmt node first
    have isStmt : (forms source stmt).kind = "expression_statement" :=
      (Tree.kind_annotate _ stmt).trans isStmt
    rw [Lowering.stmtOf_expressionStatement _ _ isStmt] at stmts
    obtain ⟨stmt?, ok, same⟩ := Lowering.map_eq_ok.mp stmts
    rcases Lowering.exprStmtOf_eq_ok ok with ⟨nothing, -⟩ | ⟨t, e, isFirst, lowered, rfl⟩
    · rw [nothing] at inner
      cases inner
    · cases isFirst.symm.trans inner
      exact ⟨e, _, _, lowered, same.symm⟩

theorem holdsOnly_of_attributed (attributed : AttributedIf block attributes node) (b : Block)
    (lowered : Block.ofTree source block = .ok b) (inner : If) :
    HoldsOnly b inner ↔ Expr.ofTree source node = .ok (.branch inner) := by
  obtain ⟨e, semi, span, ok, stmts⟩ := stmts_of_attributed attributed b lowered
  rw [ok, HoldsOnly, stmts]
  constructor
  · rintro ⟨_, _, same⟩
    cases same
    rfl
  · intro same
    cases same
    exact ⟨semi, span, rfl⟩

/-- An `if` that is lowered to a branch has the block and the else clause of its node. -/
theorem branch_of_isIf {outer : ParseTree} {o : If} (isIf : IsIf outer)
    (lowered : Expr.ofTree source outer = .ok (.branch o)) :
    o.span = outer.span ∧
      (∃ body, thenBlock? outer = some body ∧ Block.ofTree source body = .ok o.body) ∧
      Lowering.elseOf? (((outer.nodes.labelled? "alternative").or
        (outer.nodes.ofKind? "else_clause")).map (forms source)) = .ok o.els := by
  have expr : Lowering.exprOf (forms source outer).value.block (forms source outer).info
      (forms source outer).nodes = .ok (.branch o) :=
    (formed_forms source outer).expr.symm.trans lowered
  have info : (forms source outer).info = outer.info := Tree.info_annotate _ outer
  have found (label kind : String) :
      ((forms source outer).nodes.labelled? label).or ((forms source outer).nodes.ofKind? kind) =
        ((outer.nodes.labelled? label).or (outer.nodes.ofKind? kind)).map (forms source) := by
    rw [Tree.nodes, forms, Tree.children_annotate, Siblings.labelled?_map (Tree.info_annotate _),
      Siblings.ofKind?_map (Tree.info_annotate _), Option.map_or]
    rfl
  have block {body : Lowering.FormTree}
      (consequence : ((forms source outer).nodes.labelled? "consequence").or
        ((forms source outer).nodes.ofKind? "block") = some body) (b : Block)
      (ok : body.value.block = .ok b) :
      ∃ body, thenBlock? outer = some body ∧ Block.ofTree source body = .ok b := by
    rw [found] at consequence
    obtain ⟨t, isThen, rfl⟩ := Option.map_eq_some_iff.mp consequence
    exact ⟨t, isThen, ok⟩
  rcases isIf with kind | kind
  · rw [Lowering.exprOf_if (info ▸ kind)] at expr
    rcases Lowering.ifOf_eq_ok expr with
      kept | ⟨cond, body, tested, b, els, -, consequence, elsOk, -, blockOk, same⟩
    · obtain ⟨parts, -, same⟩ := Lowering.keepParts_eq_ok.mp kept
      cases same
    · cases same
      rw [found] at elsOk
      exact ⟨congrArg NodeInfo.span info, block consequence b blockOk, elsOk⟩
  · rw [Lowering.exprOf_ifLet (info ▸ kind)] at expr
    obtain ⟨pattern, value, body, scrutinee, b, els, -, consequence, -, blockOk, elsOk, same⟩ :=
      Lowering.ifLetOf_eq_ok expr
    cases same
    rw [found] at elsOk
    exact ⟨congrArg NodeInfo.span info, block consequence b blockOk, elsOk⟩

/-- The lowered block behind the `else` of an `if`. -/
theorem els_of_elseTarget? {outer : ParseTree} {o : If} (isIf : IsIf outer)
    (lowered : Expr.ofTree source outer = .ok (.branch o)) (target : elseTarget? outer = some block)
    (isBlock : block.kind = "block") :
    ∃ b, Block.ofTree source block = .ok b ∧ o.els = some (.block b) := by
  obtain ⟨-, -, elsOk⟩ := branch_of_isIf isIf lowered
  obtain ⟨clause, isClause, first⟩ := Option.bind_eq_some_iff.mp target
  rw [isClause, Option.map_some] at elsOk
  exact Lowering.elseOf?_block elsOk (Lowering.firstPart?_annotate _ clause block first)
    ((Tree.kind_annotate _ block).trans isBlock)

/-- All lowered code is code as written. -/
theorem ctxt_of_lowered {t : ParseTree} {e : Expr} (lowered : Expr.ofTree source t = .ok e)
    (n : Node) (visited : n ∈ (Node.expr e).walk) : n.span.ctxt = 0 := by
  have formed := formed_forms source t
  obtain ⟨u, holds, yields⟩ :=
    Lowering.yields_of_mem_walk formed (.expr _ e lowered) n visited
  rw [(Lowering.grownFrom_of_yields (formed.holds holds) yields).span]
  rfl

/-- An `else` block with attributes in front of its `if` collapses like one without. -/
theorem keepsAttributes_iff_of_else {outer : ParseTree} {e : Expr} (isIf : IsIf outer)
    (lowered : Expr.ofTree source outer = .ok e)
    (attributed : AttributedIf block attributes node) (target : elseTarget? outer = some block) :
    KeepsAttributes source attributes e ↔ ∀ o inner, e = .branch o →
      Expr.ofTree source node = .ok (.branch inner) →
        Contains source attributes (source.snippetBlock node.span) := by
  constructor
  · rintro keeps o inner rfl isInner
    obtain ⟨b, blockOk, els⟩ := els_of_elseTarget? isIf lowered target attributed.isBlock
    have only := (holdsOnly_of_attributed attributed b blockOk inner).mpr isInner
    have span := (branch_of_isIf attributed.isIf isInner).1
    have found : ofExpr? (.branch o) = some (.orElse b inner) := by
      simp only [ofExpr?, els]
      exact (ofElse?_eq_some_iff _ _).mpr ⟨b, inner, rfl, only, by rw [span]; rfl, rfl⟩
    rw [← span, ← Collapse.replacement_orElse source b inner]
    exact keeps _ found
  · intro contained c found
    cases e with
    | branch o =>
      obtain ⟨b, blockOk, els⟩ := els_of_elseTarget? isIf lowered target attributed.isBlock
      simp only [ofExpr?, els] at found
      obtain ⟨_, inner, ⟨⟩, only, -, rfl⟩ := (ofElse?_eq_some_iff _ c).mp found
      have isInner := (holdsOnly_of_attributed attributed b blockOk inner).mp only
      have span := (branch_of_isIf attributed.isIf isInner).1
      rw [Collapse.replacement_orElse, span]
      exact contained o inner rfl isInner
    | _ => cases found

/-- So does a block behind a condition. Where the outer `if` has an `else` as well, only what stands
behind that can collapse. -/
theorem keepsAttributes_iff_of_then {outer : ParseTree} {e : Expr} (isIf : IsIf outer)
    (lowered : Expr.ofTree source outer = .ok e)
    (attributed : AttributedIf block attributes node) (isThen : thenBlock? outer = some block) :
    KeepsAttributes source attributes e ↔ ∀ o, e = .branch o →
      (∀ lhs inner rhs, Expr.ofTree source node = .ok (.branch inner) → o.els = none →
        o.cond = .test lhs → inner.els = none → inner.cond = .test rhs →
          Contains source attributes
            ((Collapse.nested o lhs inner rhs).compose (source.snippet ·))) ∧
      ∀ behind inner, o.els = some (.block behind) → HoldsOnly behind inner →
        Contains source attributes (source.snippetBlock inner.span) := by
  constructor
  · rintro keeps o rfl
    obtain ⟨outerSpan, ⟨body, isBody, bodyOk⟩, -⟩ := branch_of_isIf isIf lowered
    cases isBody.symm.trans isThen
    refine ⟨?_, ?_⟩
    · intro lhs inner rhs isInner els cond innerEls innerCond
      have only := (holdsOnly_of_attributed attributed o.body bodyOk inner).mpr isInner
      have innerSpan := (branch_of_isIf attributed.isIf isInner).1
      have found : ofExpr? (.branch o) = some (.nested o lhs inner rhs) := by
        simp only [ofExpr?, els]
        refine (ofNested?_eq_some_iff o _).mpr
          ⟨lhs, inner, rhs, els, cond, only, innerEls, innerCond, ?_, rfl⟩
        rw [outerSpan, innerSpan]
        rfl
      rw [← Collapse.replacement_eq_compose]
      exact keeps _ found
    · intro behind inner els only
      have inBehind : .block behind ∈ (Node.expr (.branch o)).walk := by
        refine Node.mem_walk_of_mem_children _ _ _ (Node.mem_walk_self _) ?_
        simp [Node.children, Node.childrenOfExpr, els, Node.ofElse]
      have written := ctxt_of_lowered lowered _ (mem_walk_of_holdsOnly _ behind inner only inBehind)
      rw [← Collapse.replacement_orElse source behind inner]
      apply keeps
      simp only [ofExpr?, els]
      exact (ofElse?_eq_some_iff _ _).mpr ⟨behind, inner, rfl, only, written, rfl⟩
  · intro contained c found
    cases e with
    | branch o =>
      obtain ⟨-, ⟨body, isBody, bodyOk⟩, -⟩ := branch_of_isIf isIf lowered
      cases isBody.symm.trans isThen
      obtain ⟨nested, orElse⟩ := contained o rfl
      cases els : o.els with
      | none =>
        simp only [ofExpr?, els] at found
        obtain ⟨lhs, inner, rhs, -, cond, only, innerEls, innerCond, -, rfl⟩ :=
          (ofNested?_eq_some_iff o c).mp found
        have isInner := (holdsOnly_of_attributed attributed o.body bodyOk inner).mp only
        rw [Collapse.replacement_eq_compose]
        exact nested lhs inner rhs isInner els cond innerEls innerCond
      | some branch =>
        simp only [ofExpr?, els] at found
        obtain ⟨behind, inner, rfl, only, -, rfl⟩ := (ofElse?_eq_some_iff branch c).mp found
        rw [Collapse.replacement_orElse]
        exact orElse behind inner els only
    | _ => cases found

/-- An edit keeps attributes exactly where their text stands again in what it takes from the source:
in the inner `if` behind an `else`, in the two conditions and the inner block otherwise. -/
theorem keepsAttributes_iff {outer : ParseTree} {e : Expr} (isIf : IsIf outer)
    (lowered : Expr.ofTree source outer = .ok e)
    (attributed : AttributedIf block attributes node) :
    (elseTarget? outer = some block →
      (KeepsAttributes source attributes e ↔ ∀ o inner, e = .branch o →
        Expr.ofTree source node = .ok (.branch inner) →
          Contains source attributes (source.snippetBlock node.span))) ∧
    (thenBlock? outer = some block →
      (KeepsAttributes source attributes e ↔ ∀ o, e = .branch o →
        (∀ lhs inner rhs, Expr.ofTree source node = .ok (.branch inner) → o.els = none →
          o.cond = .test lhs → inner.els = none → inner.cond = .test rhs →
            Contains source attributes
              ((Collapse.nested o lhs inner rhs).compose (source.snippet ·))) ∧
        ∀ behind inner, o.els = some (.block behind) → HoldsOnly behind inner →
          Contains source attributes (source.snippetBlock inner.span))) :=
  ⟨keepsAttributes_iff_of_else isIf lowered attributed,
    keepsAttributes_iff_of_then isIf lowered attributed⟩

end Attributed

/-! The `if` in `fn f() { if x { #[cfg(t)] if y {} } }`. -/

def cfgSource : Source := ⟨"fn f() \x7b if x \x7b #[cfg(t)] if y \x7b\x7d \x7d \x7d", none⟩

def cfgAttribute : ParseTree := ⟨⟨"attribute_item", true, 16, 25, none⟩, (), []⟩

def cfgInner : ParseTree :=
  ⟨⟨"if_expression", true, 26, 33, none⟩, (), [
    ⟨⟨"identifier", true, 29, 30, some "condition"⟩, (), []⟩,
    ⟨⟨"block", true, 31, 33, some "consequence"⟩, (), []⟩]⟩

def cfgBlock : ParseTree :=
  ⟨⟨"block", true, 14, 35, some "consequence"⟩, (), [cfgAttribute, statement 26 33 cfgInner]⟩

def cfgOuter : ParseTree :=
  ⟨⟨"if_expression", true, 9, 35, none⟩, (), [
    ⟨⟨"identifier", true, 12, 13, some "condition"⟩, (), []⟩, cfgBlock]⟩

theorem cfgBlock_attributed : AttributedIf cfgBlock [cfgAttribute] cfgInner where
  isBlock := rfl
  nonempty := List.cons_ne_nil _ _
  areAttributes := by simp [cfgAttribute, Tree.kind]
  isIf := .inl rfl
  parts := .inr ⟨statement 26 33 cfgInner, rfl, rfl, rfl⟩

/-- The outer `if` collapses, and this is put in its place. -/
theorem replacement_cfgOuter :
    (Expr.ofTree cfgSource cfgOuter).toOption.bind (fun e =>
      (ofExpr? e).map fun c => (c.suggestion cfgSource).replacement) = some "if x && y \x7b\x7d" := by
  decide +kernel

theorem cfgOuter_keepsAttributes_iff :
    ∃ e, Expr.ofTree cfgSource cfgOuter = .ok e ∧
      (KeepsAttributes cfgSource [cfgAttribute] e ↔ ∀ o, e = .branch o →
        (∀ lhs inner rhs, Expr.ofTree cfgSource cfgInner = .ok (.branch inner) → o.els = none →
          o.cond = .test lhs → inner.els = none → inner.cond = .test rhs →
            Contains cfgSource [cfgAttribute]
              ((Collapse.nested o lhs inner rhs).compose (cfgSource.snippet ·))) ∧
        ∀ behind inner, o.els = some (.block behind) → HoldsOnly behind inner →
          Contains cfgSource [cfgAttribute] (cfgSource.snippetBlock inner.span)) := by
  have evaluated := replacement_cfgOuter
  cases lowered : Expr.ofTree cfgSource cfgOuter with
  | error e =>
    rw [lowered] at evaluated
    cases evaluated
  | ok e => exact ⟨e, rfl, (keepsAttributes_iff (.inl rfl) lowered cfgBlock_attributed).2 rfl⟩

/-- The edit drops the attribute, and with it the condition under which there is an inner `if`. -/
theorem not_keepsAttributes :
    ¬ ∀ (source : Source) (outer block node : ParseTree) (attributes : List ParseTree) (e : Expr),
      IsIf outer → AttributedIf block attributes node →
      thenBlock? outer = some block ∨ elseTarget? outer = some block →
      Expr.ofTree source outer = .ok e → KeepsAttributes source attributes e := by
  intro always
  have evaluated := replacement_cfgOuter
  cases lowered : Expr.ofTree cfgSource cfgOuter with
  | error e =>
    rw [lowered] at evaluated
    cases evaluated
  | ok e =>
    rw [lowered] at evaluated
    obtain ⟨c, found, replacement⟩ := Option.map_eq_some_iff.mp evaluated
    have kept := always cfgSource cfgOuter cfgBlock cfgInner [cfgAttribute] e (.inl rfl)
      cfgBlock_attributed (.inl rfl) lowered c found cfgAttribute List.mem_cons_self
    rw [replacement] at kept
    revert kept
    decide +kernel

end RustLint.CollapsibleIf
