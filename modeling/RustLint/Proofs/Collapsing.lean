import RustLint.Proofs.Traversal
import RustLint.Rules.CollapsibleIf

set_option autoImplicit false

namespace RustLint.CollapsibleIf

/-- The block is one expression statement, with or without semicolon, that is the `if`. -/
def HoldsOnly (block : Block) (inner : If) : Prop :=
  ∃ semi span, block.stmts = [.expr (.branch inner) semi span]

/-- The expression collapses, and this span and message are reported. It was not produced by a
macro itself. An `else` block asks only that its `if` was not either; two nested `if`s have to stem
from the same expansion. -/
inductive Collapses : Expr → Span → String → Prop
  | orElse (node inner : If) (block : Block) (written : node.span.ctxt = 0)
      (els : node.els = some (.block block)) (only : HoldsOnly block inner)
      (innerWritten : inner.span.ctxt = 0) :
      Collapses (.branch node) block.span "this `else \x7b if .. \x7d` block can be collapsed"
  | nested (node inner : If) (lhs rhs : Expr) (written : node.span.ctxt = 0)
      (cond : node.cond = .test lhs) (els : node.els = none) (only : HoldsOnly node.body inner)
      (innerCond : inner.cond = .test rhs) (innerEls : inner.els = none)
      (same : node.span.ctxt = inner.span.ctxt) :
      Collapses (.branch node) node.span "this if statement can be collapsed"

/-- The finding reports the expression. -/
def Reports (source : Source) (e : Expr) (f : Finding) : Prop :=
  Collapses e f.span f.message ∧ f.lint = Lint.collapsibleIf.name ∧
    f.location = some (.ofSpan source f.span)

/-- One finding for each listed expression that collapses, none for the others, in order. -/
inductive ReportsInOrder (source : Source) : List Expr → List Finding → Prop
  | nil : ReportsInOrder source [] []
  | reported (e : Expr) (f : Finding) (es : List Expr) (fs : List Finding)
      (here : Reports source e f) (rest : ReportsInOrder source es fs) :
      ReportsInOrder source (e :: es) (f :: fs)
  | passed (e : Expr) (es : List Expr) (fs : List Finding)
      (here : ∀ span message, ¬ Collapses e span message) (rest : ReportsInOrder source es fs) :
      ReportsInOrder source (e :: es) fs

theorem onlyIf?_eq_some_iff (block : Block) (inner : If) :
    onlyIf? block = some inner ↔ HoldsOnly block inner := by
  unfold onlyIf? HoldsOnly
  constructor
  · intro found
    split at found
    · next node semi span stmts =>
      cases found
      exact ⟨semi, span, stmts⟩
    · cases found
  · rintro ⟨semi, span, stmts⟩
    rw [stmts]

theorem inMacro_eq_false_iff (span : Span) : span.inMacro = false ↔ span.ctxt = 0 := by
  simp [Span.inMacro]

theorem sameContext_iff (a b : Span) : a.sameContext b = true ↔ a.ctxt = b.ctxt := by
  simp [Span.sameContext]

/-- What the matcher finds in an `else` branch. -/
theorem ofElse?_eq_some_iff (els : Else) (c : Collapse) :
    ofElse? els = some c ↔ ∃ block inner, els = .block block ∧ HoldsOnly block inner ∧
      inner.span.ctxt = 0 ∧ c = .orElse block inner := by
  cases els with
  | elseIf node => simp [ofElse?]
  | block block =>
    constructor
    · intro found
      simp only [ofElse?] at found
      split at found
      · next inner only =>
        split at found
        · cases found
        · next outside =>
          cases found
          refine ⟨block, inner, rfl, (onlyIf?_eq_some_iff block inner).mp only, ?_, rfl⟩
          exact (inMacro_eq_false_iff inner.span).mp (Bool.eq_false_iff.mpr outside)
      · cases found
    · rintro ⟨_, inner, ⟨⟩, only, written, rfl⟩
      simp only [ofElse?, (onlyIf?_eq_some_iff block inner).mpr only,
        (inMacro_eq_false_iff inner.span).mpr written]
      rfl

/-- What the matcher finds in an `if` without an `else` branch. -/
theorem ofNested?_eq_some_iff (outer : If) (c : Collapse) :
    ofNested? outer = some c ↔ ∃ lhs inner rhs, outer.els = none ∧ outer.cond = .test lhs ∧
      HoldsOnly outer.body inner ∧ inner.els = none ∧ inner.cond = .test rhs ∧
      outer.span.ctxt = inner.span.ctxt ∧ c = .nested outer lhs inner rhs := by
  constructor
  · intro found
    simp only [ofNested?] at found
    split at found
    · next lhs inner els cond only =>
      split at found
      · next rhs innerEls innerCond =>
        split at found
        · next same =>
          cases found
          exact ⟨lhs, inner, rhs, els, cond, (onlyIf?_eq_some_iff _ inner).mp only, innerEls,
            innerCond, (sameContext_iff _ _).mp same, rfl⟩
        · cases found
      · cases found
    · cases found
  · rintro ⟨lhs, inner, rhs, els, cond, only, innerEls, innerCond, same, rfl⟩
    simp only [ofNested?, els, cond, (onlyIf?_eq_some_iff _ inner).mpr only, innerEls, innerCond,
      (sameContext_iff _ _).mpr same, ↓reduceIte]

/-- What the matcher finds in code as written is reported, with its span and message. -/
theorem collapses_of_ofExpr? (e : Expr) (c : Collapse) (written : e.span.ctxt = 0)
    (found : ofExpr? e = some c) : Collapses e c.span c.message := by
  cases e with
  | branch node =>
    cases els : node.els with
    | some branch =>
      simp only [ofExpr?, els] at found
      obtain ⟨block, inner, rfl, only, innerWritten, rfl⟩ := (ofElse?_eq_some_iff branch c).mp found
      exact .orElse node inner block written els only innerWritten
    | none =>
      simp only [ofExpr?, els] at found
      obtain ⟨lhs, inner, rhs, -, cond, only, innerEls, innerCond, same, rfl⟩ :=
        (ofNested?_eq_some_iff node c).mp found
      exact .nested node inner lhs rhs written cond els only innerCond innerEls same
  | _ => cases found

/-- Nothing that collapses escapes the matcher. -/
theorem ofExpr?_of_collapses (e : Expr) (span : Span) (message : String)
    (collapses : Collapses e span message) :
    e.span.ctxt = 0 ∧ ∃ c, ofExpr? e = some c := by
  cases collapses with
  | orElse node inner block written els only innerWritten =>
    refine ⟨written, .orElse block inner, ?_⟩
    simp only [ofExpr?, els]
    exact (ofElse?_eq_some_iff _ _).mpr ⟨block, inner, rfl, only, innerWritten, rfl⟩
  | nested node inner lhs rhs written cond els only innerCond innerEls same =>
    refine ⟨written, .nested node lhs inner rhs, ?_⟩
    simp only [ofExpr?, els]
    exact (ofNested?_eq_some_iff _ _).mpr
      ⟨lhs, inner, rhs, els, cond, only, innerEls, innerCond, same, rfl⟩

theorem reports_finding (source : Source) (e : Expr) (c : Collapse) (written : e.span.ctxt = 0)
    (found : ofExpr? e = some c) : Reports source e (finding source c) :=
  ⟨collapses_of_ofExpr? e c written found, rfl, rfl⟩

/-- The matcher run over any list of expressions reports what collapses in it, in order. -/
theorem reportsInOrder (source : Source) (es : List Expr) :
    ReportsInOrder source es
      (((es.filter fun e => !e.span.inMacro).filterMap ofExpr?).map (finding source)) := by
  induction es with
  | nil => exact .nil
  | cons e es ih =>
    cases produced : e.span.inMacro with
    | true =>
      rw [List.filter_cons_of_neg (by simp [produced])]
      apply ReportsInOrder.passed e es _ _ ih
      intro span message collapses
      have written := (ofExpr?_of_collapses e span message collapses).1
      rw [(inMacro_eq_false_iff e.span).mpr written] at produced
      cases produced
    | false =>
      have written := (inMacro_eq_false_iff e.span).mp produced
      rw [List.filter_cons_of_pos (by simp [produced])]
      cases found : ofExpr? e with
      | none =>
        rw [List.filterMap_cons_none found]
        apply ReportsInOrder.passed e es _ _ ih
        intro span message collapses
        obtain ⟨c, matched⟩ := (ofExpr?_of_collapses e span message collapses).2
        rw [found] at matched
        cases matched
      | some c =>
        rw [List.filterMap_cons_some found, List.map_cons]
        exact .reported e _ es _ (reports_finding source e c written found) ih

/-- The rule reports exactly the expressions that collapse, once each, in the order in which
recursion on the tree meets them; the walk that it takes through any tree is that recursion. -/
theorem check_reports_preorder (source : Source) (crate : Crate) :
    (∀ root : Node, root.walk = root.preorder) ∧
      ReportsInOrder source ((Node.crate crate).preorder.filterMap Node.expr?)
        (check source crate) := by
  refine ⟨Node.walk_eq_preorder, ?_⟩
  rw [← Node.walk_eq_preorder]
  exact reportsInOrder source (Node.crate crate).exprs

end RustLint.CollapsibleIf
