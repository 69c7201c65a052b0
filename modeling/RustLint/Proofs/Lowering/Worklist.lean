import RustLint.Proofs.Lowering.Flattening

set_option autoImplicit false

namespace RustLint

namespace Tree

variable {α β : Type}

mutual

theorem size_annotate (f : NodeInfo → List (Tree β) → β) :
    ∀ t : Tree α, (annotate f t).size = t.size
  | ⟨info, value, children⟩ => by rw [annotate, size, size, sizeAll_annotateAll f children]

theorem sizeAll_annotateAll (f : NodeInfo → List (Tree β) → β) :
    ∀ ts : List (Tree α), sizeAll (annotateAll f ts) = sizeAll ts
  | [] => rfl
  | t :: ts => by
    rw [annotateAll, sizeAll, sizeAll, size_annotate f t, sizeAll_annotateAll f ts]

end

theorem sizeAll_reverse (ts : List (Tree α)) : sizeAll ts.reverse = sizeAll ts := by
  induction ts with
  | nil => rfl
  | cons t ts ih =>
    rw [List.reverse_cons, sizeAll_append, ih]
    simp only [sizeAll]
    omega

theorem size_pos (t : Tree α) : 0 < t.size := by
  cases t
  exact Nat.succ_pos _

/-- What stands below a node is less than the node. -/
theorem sizeAll_parts_lt (t : Tree α) : sizeAll t.nodes.parts < t.size :=
  Nat.lt_of_le_of_lt (sizeAll_filter_le _ _) (sizeAll_children_lt t)

end Tree

namespace Lowering

/-- The nodes that are still to be looked at, as a stack with its top at the end, and the parts
found so far, in order. -/
structure Worklist where
  stack : List FormTree
  found : List Part

namespace Worklist

/-- One round takes the node on top off the stack. Where it leaves the parts of the node there, the
last of them comes first and the first is on top. Without a node there is no further round. -/
def step (w : Worklist) : Except LowerError (Option Worklist) :=
  match w.stack.getLast? with
  | none => .ok none
  | some t =>
    let rest := w.stack.dropLast
    if isItemKind t.kind || t.kind = "attribute_item" then .ok (some ⟨rest, w.found⟩)
    else if t.kind = "block" then do
      let block ← t.value.block
      return some ⟨rest, w.found ++ [.block block]⟩
    else if isExprKind t.kind then do
      let expr ← t.value.expr
      return some ⟨rest, w.found ++ [.expr expr]⟩
    else .ok (some ⟨rest ++ t.nodes.parts.reverse, w.found⟩)

/-- What the rounds come to, if these are enough to end. -/
def run : Nat → Worklist → Option (Except LowerError (List Part))
  | 0, _ => none
  | rounds + 1, w =>
    match w.step with
    | .error e => some (.error e)
    | .ok none => some (.ok w.found)
    | .ok (some next) => run rounds next

/-- What the stack comes to when it is read from its top. -/
def outcome (w : Worklist) : Except LowerError (List Part) :=
  flatten w.stack.reverse w.found.reverse

/-- A round ends with the outcome, or it leaves less to do and the same outcome. -/
inductive Advances (w : Worklist) : Except LowerError (Option Worklist) → Prop
  | fails (e : LowerError) (outcome : w.outcome = .error e) : Advances w (.error e)
  | ends (outcome : w.outcome = .ok w.found) : Advances w (.ok none)
  | goesOn (next : Worklist) (outcome : w.outcome = next.outcome)
      (less : Tree.sizeAll next.stack < Tree.sizeAll w.stack) : Advances w (.ok (some next))

section Top

variable (rest : List FormTree) (found : List Part) {t : FormTree}

theorem step_aside (aside : IsAside t.kind) :
    step ⟨rest ++ [t], found⟩ = .ok (some ⟨rest, found⟩) := by
  rw [step, List.getLast?_concat, List.dropLast_concat]
  exact if_pos ((aside_iff t.kind).mpr aside)

theorem step_whole (considered : ¬IsAside t.kind) (whole : IsWhole t.kind) :
    step ⟨rest ++ [t], found⟩ = (fun p => some ⟨rest, found ++ [p]⟩) <$> partOf t := by
  rw [step, List.getLast?_concat, List.dropLast_concat, partOf]
  refine (if_neg ((aside_iff t.kind).not.mpr considered)).trans ?_
  split
  · rw [Functor.map_map]
    rfl
  · rw [if_pos ((isExprKind_iff t.kind).mpr whole), Functor.map_map]
    rfl

theorem step_other (considered : ¬IsAside t.kind) (other : ¬IsWhole t.kind) :
    step ⟨rest ++ [t], found⟩ = .ok (some ⟨rest ++ t.nodes.parts.reverse, found⟩) := by
  have noExpr := (isExprKind_iff t.kind).not.mpr other
  have noBlock : t.kind ≠ "block" := fun block => other (.inl block)
  rw [step, List.getLast?_concat, List.dropLast_concat]
  exact (if_neg ((aside_iff t.kind).not.mpr considered)).trans
    ((if_neg noBlock).trans (if_neg noExpr))

theorem outcome_concat :
    outcome ⟨rest ++ [t], found⟩ = flatten (t :: rest.reverse) found.reverse := by
  rw [outcome, List.reverse_concat]

theorem sizeAll_lt_concat : Tree.sizeAll rest < Tree.sizeAll (rest ++ [t]) := by
  have := t.size_pos
  rw [Tree.sizeAll_append]
  simp only [Tree.sizeAll]
  omega

end Top

theorem advances_step (w : Worklist) : w.Advances w.step := by
  obtain ⟨stack, found⟩ := w
  rcases List.eq_nil_or_concat' stack with rfl | ⟨rest, t, rfl⟩
  · refine .ends ?_
    rw [outcome, List.reverse_nil, flatten, List.reverse_reverse]
  by_cases aside : IsAside t.kind
  · rw [step_aside rest found aside]
    refine .goesOn _ ?_ (sizeAll_lt_concat rest)
    rw [outcome_concat, flatten_aside _ _ aside, outcome]
  by_cases whole : IsWhole t.kind
  · have outcome : outcome ⟨rest ++ [t], found⟩ =
        partOf t >>= fun p => flatten rest.reverse (p :: found.reverse) := by
      rw [outcome_concat, flatten_whole _ _ aside whole]
    rw [step_whole rest found aside whole]
    cases lowered : partOf t with
    | error e =>
      rw [lowered] at outcome
      exact .fails e outcome
    | ok p =>
      rw [lowered] at outcome
      refine .goesOn _ (outcome.trans ?_) (sizeAll_lt_concat rest)
      rw [Worklist.outcome, List.reverse_concat]
      rfl
  · rw [step_other rest found aside whole]
    refine .goesOn _ ?_ ?_
    · rw [outcome_concat, flatten_other _ _ aside whole, outcome, List.reverse_append,
        List.reverse_reverse]
    · have := t.sizeAll_parts_lt
      simp only [Tree.sizeAll_append, Tree.sizeAll_reverse, Tree.sizeAll]
      omega

/-- The loop ends, after no more rounds than there are nodes. -/
theorem run_eq_outcome (rounds : Nat) (w : Worklist) (enough : Tree.sizeAll w.stack < rounds) :
    w.run rounds = some w.outcome := by
  induction rounds generalizing w with
  | zero => omega
  | succ rounds ih =>
    have advances := w.advances_step
    rw [run]
    generalize w.step = left at advances
    cases advances with
    | fails e outcome => exact congrArg some outcome.symm
    | ends outcome => exact congrArg some outcome.symm
    | goesOn next outcome less => exact (ih next (by omega)).trans (congrArg some outcome.symm)

end Worklist

/-- What a node holds, found with a stack, is what the recursion over its parts finds: the outermost
blocks and expressions, lowered one after the other. They are in document order, and the first that
does not lower decides the error. -/
theorem flatten_outermost (source : Source) (t : ParseTree) :
    flatten (forms source t).nodes.parts [] =
        (t.nodes.parts.flatMap Tree.outermost).mapM (Part.ofTree source) ∧
      Worklist.run t.size ⟨(forms source t).nodes.parts.reverse, []⟩ =
        some ((t.nodes.parts.flatMap Tree.outermost).mapM (Part.ofTree source)) ∧
      (t.nodes.parts.flatMap Tree.outermost).Sublist t.preorder := by
  have enough : Tree.sizeAll (forms source t).nodes.parts.reverse < t.size := by
    rw [Tree.sizeAll_reverse, ← Tree.size_annotate (formsOf source) t]
    exact Tree.sizeAll_parts_lt _
  refine ⟨flatten_forms source t, ?_, t.parts_outermost_sublist⟩
  rw [Worklist.run_eq_outcome t.size _ enough, Worklist.outcome, List.reverse_reverse,
    List.reverse_nil, flatten_forms]

end Lowering

end RustLint
