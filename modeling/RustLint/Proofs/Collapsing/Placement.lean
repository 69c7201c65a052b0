import RustLint.Proofs.Collapsing
import RustLint.Proofs.Collapsing.Literals
import RustLint.Proofs.Lowering.Containment

set_option autoImplicit false

namespace RustLint.CollapsibleIf

namespace Collapse

/-- The spans whose source goes into the replacement. -/
def snippets : Collapse → List Span
  | orElse _ inner => [inner.span]
  | nested _ lhs inner rhs => [lhs.span, rhs.span, inner.body.span]

/-- The replacement made from the texts of the spans. -/
def compose (text : Span → String) : Collapse → String
  | orElse _ inner => Text.trimMultiline (text inner.span) true
  | nested _ lhs inner rhs =>
    let both := Fragment.and ⟨text lhs.span, Fragment.rootOp lhs⟩ ⟨text rhs.span, Fragment.rootOp rhs⟩
    "if " ++ both.text ++ " " ++ Text.trimMultiline (text inner.body.span) true

theorem replacement_eq_compose (source : Source) (c : Collapse) :
    (c.suggestion source).replacement = c.compose (source.snippet ·) := by
  cases c <;> rfl

theorem replacement_orElse (source : Source) (block : Block) (inner : If) :
    ((orElse block inner).suggestion source).replacement = source.snippetBlock inner.span := by
  rw [suggestion]

/-- Nothing but the listed spans is read. -/
theorem compose_congr (c : Collapse) (text text' : Span → String)
    (same : ∀ s ∈ c.snippets, text s = text' s) : c.compose text = c.compose text' := by
  cases c with
  | orElse block inner =>
    have whole := same inner.span List.mem_cons_self
    simp only [compose, whole]
  | nested outer lhs inner rhs =>
    have left := same lhs.span (by simp [snippets])
    have right := same rhs.span (by simp [snippets])
    have body := same inner.body.span (by simp [snippets])
    simp only [compose, left, right, body]

end Collapse

/-- The text of a covered span does not depend on the placeholder. -/
theorem snippet_of_covers (source : Source) (s : Span) (default default' : String)
    (covers : source.covers s = true) : source.snippet s default = source.snippet s default' := by
  rw [Source.snippet, Source.snippet, if_pos covers, if_pos covers]

/-! What a collapse is made of are nodes of the walk. -/

section Visited

variable (root : Node)

theorem mem_walk_of_holdsOnly (block : Block) (inner : If) (only : HoldsOnly block inner)
    (visited : .block block ∈ root.walk) :
    .expr (.branch inner) ∈ root.walk := by
  obtain ⟨semi, span, stmts⟩ := only
  have stmt : .stmt (.expr (.branch inner) semi span) ∈ root.walk := by
    refine Node.mem_walk_of_mem_children _ _ _ visited ?_
    rw [Node.children, stmts]
    exact List.mem_cons_self
  exact Node.mem_walk_of_mem_children _ _ _ stmt List.mem_cons_self

/-- The edit replaces a node of the walk, and its snippets are nodes of the walk as well. -/
theorem mem_walk_of_ofExpr? (e : Expr) (c : Collapse) (found : ofExpr? e = some c)
    (visited : .expr e ∈ root.walk) : ∀ s ∈ c.span :: c.snippets, ∃ n ∈ root.walk, n.span = s := by
  cases e with
  | branch node =>
    have below (child : Node) (isChild : child ∈ (Node.expr (.branch node)).children) :
        child ∈ root.walk := Node.mem_walk_of_mem_children _ _ _ visited isChild
    cases els : node.els with
    | some branch =>
      simp only [ofExpr?, els] at found
      obtain ⟨block, inner, rfl, only, -, rfl⟩ := (ofElse?_eq_some_iff branch c).mp found
      have inBlock : .block block ∈ root.walk := by
        apply below
        simp [Node.children, Node.childrenOfExpr, els, Node.ofElse]
      have inInner := mem_walk_of_holdsOnly root block inner only inBlock
      intro s isSpan
      rcases List.mem_cons.mp isSpan with rfl | snippet
      · exact ⟨_, inBlock, rfl⟩
      · cases List.mem_singleton.mp snippet
        exact ⟨_, inInner, rfl⟩
    | none =>
      simp only [ofExpr?, els] at found
      obtain ⟨lhs, inner, rhs, -, cond, only, -, innerCond, -, rfl⟩ :=
        (ofNested?_eq_some_iff node c).mp found
      have inLhs : .expr lhs ∈ root.walk := by
        apply below
        simp [Node.children, Node.childrenOfExpr, cond, Node.ofCond]
      have inInner : .expr (.branch inner) ∈ root.walk := by
        apply mem_walk_of_holdsOnly root node.body inner only
        apply below
        simp [Node.children, Node.childrenOfExpr]
      have inRhs : .expr rhs ∈ root.walk := by
        refine Node.mem_walk_of_mem_children _ _ _ inInner ?_
        simp [Node.children, Node.childrenOfExpr, innerCond, Node.ofCond]
      have inBody : .block inner.body ∈ root.walk := by
        refine Node.mem_walk_of_mem_children _ _ _ inInner ?_
        simp [Node.children, Node.childrenOfExpr]
      intro s isSpan
      rcases List.mem_cons.mp isSpan with rfl | snippet
      · exact ⟨_, visited, rfl⟩
      · simp only [Collapse.snippets, List.mem_cons, List.not_mem_nil, or_false] at snippet
        rcases snippet with rfl | rfl | rfl
        · exact ⟨_, inLhs, rfl⟩
        · exact ⟨_, inRhs, rfl⟩
        · exact ⟨_, inBody, rfl⟩
  | _ => cases found

theorem mem_walk_of_mem_collapses (crate : Crate) (c : Collapse) (listed : c ∈ collapses crate) :
    ∀ s ∈ c.span :: c.snippets, ∃ n ∈ (Node.crate crate).walk, n.span = s := by
  obtain ⟨e, isExpr, found⟩ := List.mem_filterMap.mp listed
  obtain ⟨n, visited, same⟩ := List.mem_filterMap.mp (List.mem_filter.mp isExpr).1
  have ofExpr : n = .expr e := by
    cases n <;> cases same
    rfl
  exact mem_walk_of_ofExpr? (Node.crate crate) e c found (ofExpr ▸ visited)

end Visited

/-- The spans of a well-nested tree over the file lie inside the file. -/
theorem covers_of_holds (source : Source) (root u : ParseTree) (start : 0 ≤ root.info.start)
    (stop : root.info.stop ≤ source.size) (nested : root.WellNested) (holds : root.Holds u) :
    source.covers u.span = true := by
  have inside := nested.contains holds
  have forwards := (nested u holds).1
  simp only [Span.contains, Bool.and_eq_true, decide_eq_true_eq] at inside
  simp only [Source.covers, Bool.and_eq_true, decide_eq_true_eq]
  have lo : root.span.lo = root.info.start := rfl
  have hi : root.span.hi = root.info.stop := rfl
  omega

/-- In a file with a well-nested parse tree every span of the syntax tree is one of the parse tree
and lies inside the span of the node above it. The edit of each finding replaces a part of the
crate, and is put together from parts of the file, whatever would stand for parts outside. -/
theorem suggestion_within (source : Source) (root : ParseTree) (crate : Crate)
    (start : 0 ≤ root.info.start) (stop : root.info.stop ≤ source.size) (nested : root.WellNested)
    (lowered : Crate.ofTree source root = .ok crate) :
    (∀ n ∈ (Node.crate crate).walk,
      (∀ s ∈ n.span :: n.details, s.ctxt = 0 ∧ ∃ u, root.Holds u ∧ u.span = s) ∧
        ∀ child ∈ n.children, n.span.contains child.span = true) ∧
      ∀ f ∈ check source crate, ∃ c ∈ collapses crate, f.suggestion = some (c.suggestion source) ∧
        crate.span.contains (c.suggestion source).span = true ∧
        (∀ s ∈ c.snippets, source.covers s = true) ∧
        ∀ default, (c.suggestion source).replacement = c.compose (source.snippet · default) := by
  have held (n : Node) (visited : n ∈ (Node.crate crate).walk) (s : Span)
      (listed : s ∈ n.span :: n.details) : ∃ u, root.Holds u ∧ u.span = s :=
    (Lowering.spans_of_mem_walk source root crate lowered n visited).1 s listed
  refine ⟨?_, ?_⟩
  · intro n visited
    refine ⟨?_, (Lowering.spans_of_mem_walk source root crate lowered n visited).2 nested⟩
    intro s listed
    obtain ⟨u, holds, rfl⟩ := held n visited s listed
    exact ⟨rfl, u, holds, rfl⟩
  · intro f reported
    obtain ⟨c, listed, rfl⟩ := List.mem_map.mp reported
    have ofCollapse (s : Span) (isSpan : s ∈ c.span :: c.snippets) :
        ∃ u, root.Holds u ∧ u.span = s := by
      obtain ⟨n, visited, same⟩ := mem_walk_of_mem_collapses crate c listed s isSpan
      exact held n visited s (same ▸ List.mem_cons_self)
    have covered (s : Span) (snippet : s ∈ c.snippets) : source.covers s = true := by
      obtain ⟨u, holds, rfl⟩ := ofCollapse s (List.mem_cons_of_mem _ snippet)
      exact covers_of_holds source root u start stop nested holds
    refine ⟨c, listed, rfl, ?_, covered, ?_⟩
    · obtain ⟨u, holds, same⟩ := ofCollapse c.span List.mem_cons_self
      obtain ⟨-, items, -, rfl⟩ := Lowering.ofTree_eq_ok.mp lowered
      have edited : (c.suggestion source).span = u.span := by
        rw [same]
        cases c <;> rfl
      rw [edited]
      exact nested.contains holds
    · intro default
      rw [Collapse.replacement_eq_compose]
      apply Collapse.compose_congr
      intro s snippet
      exact snippet_of_covers source s _ default (covered s snippet)

theorem movedFile_suggestion_within :
    ∃ crate, Crate.ofTree movedSource movedFile = .ok crate ∧
      ∃ f ∈ check movedSource crate, ∃ edit, f.suggestion = some edit ∧
        edit.span = ⟨11, 63, 0⟩ ∧ crate.span.contains edit.span = true := by
  have evaluated := collapses_movedFile
  cases lowered : Crate.ofTree movedSource movedFile with
  | error e =>
    rw [lowered] at evaluated
    cases evaluated
  | ok crate =>
    rw [lowered] at evaluated
    have single := Option.some.inj evaluated
    obtain ⟨c, listed, pair⟩ := List.mem_map.mp (single ▸ List.mem_singleton_self _)
    obtain ⟨-, edits⟩ := suggestion_within movedSource movedFile crate (by decide)
      (by decide +kernel) (by decide) lowered
    obtain ⟨d, -, edit, inside, -⟩ := edits (finding movedSource c) (List.mem_map_of_mem listed)
    have same : d.suggestion movedSource = c.suggestion movedSource := (Option.some.inj edit).symm
    refine ⟨crate, rfl, _, List.mem_map_of_mem listed, _, edit, ?_, inside⟩
    rw [same, (Prod.mk.inj pair).2]

end RustLint.CollapsibleIf
