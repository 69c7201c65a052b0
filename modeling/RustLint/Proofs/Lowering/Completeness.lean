import RustLint.Proofs.Lowering.Failure

set_option autoImplicit false

namespace RustLint

namespace Siblings

variable {α β : Type}

/-- The place of the first child with the label; without one, of the first of the kind. -/
def placeOf? (below : Siblings α) (label kind : String) : Option Nat :=
  (below.findIdx? (·.info.label == some label)).or (below.findIdx? (·.kind == kind))

/-- The parts of an `if` beside its block and what follows `else`. -/
def besideBranches (below : Siblings α) : List (Tree α) :=
  (below.zipIdx.filter fun (t, i) =>
    t.info.isPart && some i != below.placeOf? "consequence" "block" &&
      some i != below.placeOf? "alternative" "else_clause").map (·.1)

theorem placeOf?_annotate (f : NodeInfo → List (Tree β) → β) (below : Siblings α)
    (label kind : String) :
    placeOf? (below.map (Tree.annotate f)) label kind = placeOf? below label kind := by
  simp only [placeOf?, List.findIdx?_map, Function.comp_def, Tree.info_annotate,
    Tree.kind_annotate]

theorem besideBranches_annotate (f : NodeInfo → List (Tree β) → β) (below : Siblings α) :
    besideBranches (below.map (Tree.annotate f)) =
      (besideBranches below).map (Tree.annotate f) := by
  simp only [besideBranches, placeOf?_annotate, List.zipIdx_map, List.filter_map, List.map_map,
    Function.comp_def, Prod.map_fst, Prod.map_snd, Tree.info_annotate, id_eq]

end Siblings

namespace Lowering

/-- The node has the parts that the lowering cannot do without. Where labels are missing, what
stands at the ends will do for operands, and what is left for the pattern and the value. -/
@[mk_iff]
structure IsComplete {α : Type} (t : Tree α) : Prop where
  operands : t.kind ∈ binaryKinds →
    (t.nodes.labelled? "left").isSome ∧ (t.nodes.labelled? "right").isSome ∨ t.nodes.spoken ≠ []
  operator : t.kind ∈ binaryKinds →
    (t.nodes.labelled? "operator").isSome ∨ ∃ child ∈ t.nodes.spoken, child.info.named = false
  letValue : t.kind = "let_condition" →
    (t.nodes.labelled? "value").isSome ∨ t.nodes.parts ≠ []
  ifLetBlock : t.kind = "if_let_expression" →
    (t.nodes.labelled? "consequence").isSome ∨ (t.nodes.ofKind? "block").isSome
  ifLetParts : t.kind = "if_let_expression" →
    (t.nodes.labelled? "pattern").isSome ∧ (t.nodes.labelled? "value").isSome ∨
      2 ≤ t.nodes.besideBranches.length
  selfType : t.kind = "impl_item" →
    (t.nodes.labelled? "type").isSome ∨
      ∃ child ∈ t.nodes.parts, child.kind ∉ ["type_parameters", "where_clause", "declaration_list"]

instance {α : Type} (t : Tree α) : Decidable (IsComplete t) :=
  decidable_of_iff' _ (isComplete_iff t)

theorem IsComplete.annotate {α β : Type} {t : Tree α} (complete : IsComplete t)
    (f : NodeInfo → List (Tree β) → β) : IsComplete (Tree.annotate f t) := by
  have keeps := Tree.info_annotate (α := α) f
  rw [isComplete_iff] at complete ⊢
  simpa only [Tree.kind_annotate, Tree.nodes, Tree.children_annotate,
    Siblings.labelled?_map keeps, Siblings.ofKind?_map keeps, Siblings.spoken_map keeps,
    Siblings.parts_map keeps, Siblings.besideBranches_annotate, Option.isSome_map, ne_eq,
    List.map_eq_nil_iff, List.length_map, List.mem_map, exists_exists_and_eq_and, keeps]
    using complete

/-- The pattern and the value are found under their labels or among two further parts. -/
theorem exists_letParts {t : FormTree} (complete : IsComplete t)
    (kind : t.kind = "if_let_expression") :
    ∃ pattern value, letParts t.nodes = (some pattern, some value) := by
  unfold letParts
  dsimp only
  split
  · next pattern value _ => exact ⟨pattern, value, rfl⟩
  · next unlabelled =>
    have two : 2 ≤ (branchRest t.nodes).length := by
      rcases complete.ifLetParts kind with ⟨isPattern, isValue⟩ | two
      · obtain ⟨pattern, first⟩ := Option.isSome_iff_exists.mp isPattern
        obtain ⟨value, second⟩ := Option.isSome_iff_exists.mp isValue
        exact absurd (Prod.ext first second) (unlabelled pattern value)
      · exact two
    rcases rest : branchRest t.nodes with _ | ⟨first, _ | ⟨second, more⟩⟩
    · simp [rest] at two
    · simp [rest] at two
    · exact ⟨_, _, rfl⟩

/-- An `impl` has a self type under its label, or a part to take for it. -/
theorem exists_selfType {t : FormTree} (complete : IsComplete t) (kind : t.kind = "impl_item") :
    ∃ selfTy, (implTypes t.nodes).2 = some selfTy := by
  unfold implTypes
  split
  · next selfTy _ => exact ⟨selfTy, rfl⟩
  · next unlabelled =>
    have some : t.nodes.parts.filter (fun u => !(besideImplTypes.contains u.kind)) ≠ [] := by
      rcases complete.selfType kind with label | ⟨child, part, type⟩
      · simp [unlabelled] at label
      · refine List.ne_nil_of_mem (List.mem_filter.mpr ⟨part, ?_⟩)
        simpa [besideImplTypes] using type
    dsimp only
    split
    · exact ⟨_, rfl⟩
    · obtain ⟨first, rest, types⟩ := List.exists_cons_of_ne_nil some
      exact ⟨first, by rw [types, List.head?_cons]⟩

/-- No error is the fault of a complete node. -/
theorem IsComplete.not_blamed {t : FormTree} (complete : IsComplete t) (e : LowerError) :
    ¬ Blamed t e := by
  intro blamed
  cases blamed with
  | gap e gap =>
    cases gap with
    | operand kind unlabelled empty =>
      rcases complete.operands kind with ⟨left, right⟩ | spoken
      · rcases unlabelled with none | none <;> simp [none] at left right
      · exact spoken empty
    | operator inArguments kind unlabelled named =>
      rcases complete.operator kind with label | ⟨child, spoken, unnamed⟩
      · simp [unlabelled] at label
      · simp [named child spoken] at unnamed
    | letValue kind unlabelled empty =>
      rcases complete.letValue kind with label | parts
      · simp [unlabelled] at label
      · exact parts empty
  | selfType kind missing =>
    obtain ⟨selfTy, found⟩ := exists_selfType complete kind
    simp [found] at missing
  | ifLet kind missing =>
    obtain ⟨pattern, value, parts⟩ := exists_letParts complete kind
    simp only [parts, reduceCtorEq, Option.or_eq_none_iff, false_or] at missing
    rcases complete.ifLetBlock kind with label | block
    · simp [missing.1] at label
    · simp [missing.2] at block

/-- A source file lowers when all of its nodes are complete. -/
theorem exists_crate_of_isComplete (source : Source) (root : ParseTree)
    (kind : root.kind = "source_file") (complete : ∀ t, root.Holds t → IsComplete t) :
    ∃ crate, Crate.ofTree source root = .ok crate := by
  cases lowered : Crate.ofTree source root with
  | ok crate => exact ⟨crate, rfl⟩
  | error e =>
    exfalso
    rcases blamed_of_error lowered with ⟨other, -⟩ | ⟨u, holds, blamed⟩
    · exact other kind
    · obtain ⟨t, inRoot, rfl⟩ := Tree.holds_annotate _ root u holds
      exact ((complete t inRoot).annotate _).not_blamed e blamed

/-- `impl S { fn f() { if let a = b {} c + d; if let e = g {} } }` without any labels. The first
`if let` is a node of the older grammar, the second one of the newer. -/
def bareFile : ParseTree :=
  let leaf (kind : String) (start stop : Int) : ParseTree :=
    ⟨⟨kind, true, start, stop, none⟩, (), []⟩
  let body : ParseTree := ⟨⟨"block", true, 16, 58, none⟩, (), [
    ⟨⟨"if_let_expression", true, 18, 33, none⟩, (), [
      leaf "identifier" 25 26, leaf "identifier" 29 30, leaf "block" 31 33]⟩,
    ⟨⟨"expression_statement", true, 34, 40, none⟩, (), [
      ⟨⟨"binary_expression", true, 34, 39, none⟩, (), [
        leaf "identifier" 34 35, ⟨⟨"+", false, 36, 37, none⟩, (), []⟩, leaf "identifier" 38 39]⟩]⟩,
    ⟨⟨"if_expression", true, 41, 56, none⟩, (), [
      ⟨⟨"let_condition", true, 44, 53, none⟩, (), [
        leaf "identifier" 48 49, leaf "identifier" 52 53]⟩,
      leaf "block" 54 56]⟩]⟩
  ⟨⟨"source_file", true, 0, 60, none⟩, (), [
    ⟨⟨"impl_item", true, 0, 60, none⟩, (), [
      leaf "type_identifier" 5 6,
      ⟨⟨"declaration_list", true, 7, 60, none⟩, (), [
        ⟨⟨"function_item", true, 9, 58, none⟩, (), [leaf "identifier" 12 13, body]⟩]⟩]⟩]⟩

/-- The file without labels has all that it needs. -/
theorem exists_crate_bareFile : bareFile.kind = "source_file" ∧
    (∀ t, bareFile.Holds t → IsComplete t) ∧
    ∃ crate, Crate.ofTree ⟨"impl S \x7b fn f() \x7b if let a = b \x7b\x7d c + d; " ++
      "if let e = g \x7b\x7d \x7d \x7d", none⟩ bareFile = .ok crate := by
  have complete : ∀ t, bareFile.Holds t → IsComplete t := by decide
  exact ⟨rfl, complete, exists_crate_of_isComplete _ bareFile rfl complete⟩

end Lowering

end RustLint
