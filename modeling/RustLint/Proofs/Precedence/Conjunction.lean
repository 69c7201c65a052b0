import RustLint.Proofs.Precedence.Grouping
import RustLint.Rules.CollapsibleIf
import Mathlib.Data.List.Forall2

set_option autoImplicit false

namespace RustLint.Precedence

/-- The expression that a fragment stands for. The text is an operand, or an expression with the
recorded operator at its root; beside an operator that the table does not know it may be anything
with matching brackets, and stands for itself in parentheses. -/
inductive Reads (f : Fragment) : Tree → Prop
  | atom (t : Tree) (recorded : f.op = none) (parsed : parse f.text = some t)
      (root : t.root? = none) : Reads f t
  | rooted (t : Tree) (op : String) (recorded : f.op = some op) (parsed : parse f.text = some t)
      (root : t.root? = some op) : Reads f t
  | unknown (op : String) (trees : List TokenTree) (recorded : f.op = some op)
      (undefined : Operator.find? op = none) (matched : treesOf? f.text = some trees) :
      Reads f (parenthesised trees)

/-- The operator is looser than `&&`. -/
def isLoose (op : String) : Bool := looseLevels.any (·.symbols.contains op)

namespace Tree

/-- What an expression adds to a chain of `&&`: its own conjuncts, or else itself, in parentheses
where it is looser. -/
def joined (t : Tree) : List Tree :=
  match t.root? with
  | none => [t]
  | some op => if op = "&&" then t.conjuncts else if isLoose op then [.paren t] else [t]

/-- Evaluates conditions joined by `&&` from the left and stops at the first that fails. What all
other expressions do is left to `leaf`. -/
def run {M : Type → Type} [Monad M] (leaf : Tree → M Bool) : Tree → M Bool
  | paren inner => inner.run leaf
  | binary op lhs rhs =>
    if op = "&&" then do
      if ← lhs.run leaf then rhs.run leaf else return false
    else leaf (.binary op lhs rhs)
  | t => leaf t

end Tree

/-! Where parentheses are written. -/

theorem needsParen_of_mem_table (op : Operator) (known : op ∈ Operator.table)
    (side : Associativity) : Operator.and.needsParen op.symbol side = isLoose op.symbol := by
  have all : ∀ op ∈ Operator.table, ∀ side ∈ [Associativity.both, .left, .right, .none],
      Operator.and.needsParen op.symbol side = isLoose op.symbol := by decide
  exact all op known side (by cases side <;> decide)

theorem needsParen_of_unknown (op : String) (undefined : Operator.find? op = none)
    (side : Associativity) (isSide : side ≠ .both) : Operator.and.needsParen op side = true := by
  have other : Operator.and.symbol ≠ op := by
    rintro rfl
    exact absurd undefined (by decide)
  have equal : Operator.and.levelBeside op = Operator.and.level := by
    rw [Operator.levelBeside, undefined]
  have regroups : (Operator.and.assoc != side) = true := by
    cases side <;> first | rfl | exact (isSide rfl).elim
  simp only [Operator.needsParen, equal, if_neg other, regroups, decide_true, Bool.and_true,
    Bool.or_true, Bool.true_or]

/-- Every operator of the grammar is in the table. -/
theorem mem_table_of_mem_levels (level : Level) (listed : level ∈ levels) (op : String)
    (known : op ∈ level.symbols) : ∃ o ∈ Operator.table, o.symbol = op := by
  have all : ∀ op ∈ levels.flatMap (·.symbols), ∃ o ∈ Operator.table, o.symbol = op := by decide
  exact all op (List.mem_flatMap.mpr ⟨level, listed, known⟩)

theorem needsParen_of_root? (text : String) (t : Tree) (parsed : parse text = some t) (op : String)
    (root : t.root? = some op) (side : Associativity) :
    Operator.and.needsParen op side = isLoose op := by
  obtain ⟨tokens, trees, c, -, -, -, grouped⟩ := (parse_eq_some text t).mp parsed
  obtain ⟨level, listed, known⟩ := root?_of_group levels c t grouped op root
  obtain ⟨o, inTable, rfl⟩ := mem_table_of_mem_levels level listed op known
  exact needsParen_of_mem_table o inTable side

theorem tight_of_root? (t : Tree) (root : t.root? = none) : t.Tight := by
  intro op isRoot
  rw [root] at isRoot
  cases isRoot

theorem root?_parenthesised (trees : List TokenTree) : (parenthesised trees).root? = none := by
  unfold parenthesised
  split <;> rfl

theorem conjuncts_of_root?_none (t : Tree) (root : t.root? = none) : t.conjuncts = [t] :=
  Tree.conjuncts_of_root? t (by rw [root]; exact nofun)

/-- A looser expression is one condition once it stands in parentheses. -/
theorem parse_parens_of_loose (text : String) (t : Tree) (parsed : parse text = some t) (op : String)
    (root : t.root? = some op) (loose : isLoose op = true) :
    parse ("(" ++ text ++ ")") = some (.paren t) ∧ t.joined = [.paren t] := by
  have noAnd : op ≠ "&&" := by
    rintro rfl
    exact absurd loose (by decide)
  obtain ⟨trees, matched, whole⟩ := Option.bind_eq_some_iff.mp parsed
  have inParens : parenthesised trees = .paren t := by rw [parenthesised, whole]
  constructor
  · rw [parse_parens text trees matched, inParens]
  · rw [Tree.joined, root]
    simp only [if_neg noAnd, loose, if_true]

/-- Any other expression needs none and adds its own conjuncts. -/
theorem tight_of_not_loose (t : Tree) (op : String) (root : t.root? = some op)
    (loose : isLoose op = false) : t.Tight ∧ t.conjuncts = t.joined := by
  constructor
  · intro o isRoot level listed known
    cases root.symm.trans isRoot
    have isLoose : isLoose op = true :=
      List.any_eq_true.mpr ⟨level, listed, List.contains_iff_mem.mpr known⟩
    rw [loose] at isLoose
    cases isLoose
  · rw [Tree.joined, root]
    by_cases isAnd : op = "&&"
    · simp only [if_pos isAnd]
    · simp only [if_neg isAnd, loose, Bool.false_eq_true, if_false]
      apply Tree.conjuncts_of_root?
      intro other
      exact isAnd (Option.some.inj (root.symm.trans other))

/-- As an operand of `&&` a fragment is an expression that is not looser, with the conjuncts that it
is to add. -/
theorem parse_operand (f : Fragment) (t : Tree) (reads : Reads f t) (side : Associativity)
    (isSide : side ≠ .both) :
    ∃ u, parse (f.operand Operator.and side) = some u ∧ u.Tight ∧ u.conjuncts = t.joined := by
  cases reads with
  | atom _ recorded parsed root =>
    refine ⟨t, ?_, tight_of_root? t root, ?_⟩
    · rw [Fragment.operand, recorded]
      exact parsed
    · rw [Tree.joined, root, conjuncts_of_root?_none t root]
  | rooted _ op recorded parsed root =>
    have parens := needsParen_of_root? f.text t parsed op root side
    cases loose : isLoose op with
    | true =>
      obtain ⟨inParens, single⟩ := parse_parens_of_loose f.text t parsed op root loose
      refine ⟨.paren t, ?_, tight_of_root? _ rfl, ?_⟩
      · rw [Fragment.operand, recorded]
        simp only [parens, loose, if_true]
        exact inParens
      · rw [single]
        rfl
    | false =>
      obtain ⟨tight, conjuncts⟩ := tight_of_not_loose t op root loose
      refine ⟨t, ?_, tight, conjuncts⟩
      rw [Fragment.operand, recorded]
      simp only [parens, loose, Bool.false_eq_true, if_false]
      exact parsed
  | unknown op trees recorded undefined matched =>
    refine ⟨parenthesised trees, ?_, tight_of_root? _ (root?_parenthesised trees), ?_⟩
    · rw [Fragment.operand, recorded]
      simp only [needsParen_of_unknown op undefined side isSide, if_true]
      exact parse_parens f.text trees matched
    · rw [Tree.joined, root?_parenthesised trees,
        conjuncts_of_root?_none _ (root?_parenthesised trees)]

theorem parse_and (f g : Fragment) (t u : Tree) (left : Reads f t) (right : Reads g u) :
    ∃ w, parse (f.and g).text = some w ∧ w.root? = some "&&" ∧
      w.conjuncts = t.joined ++ u.joined := by
  obtain ⟨t', leftParsed, leftTight, leftConjuncts⟩ := parse_operand f t left .left (by decide)
  obtain ⟨u', rightParsed, rightTight, rightConjuncts⟩ := parse_operand g u right .right (by decide)
  obtain ⟨w, parsed, root, conjuncts⟩ :=
    parse_around_and _ _ t' u' leftParsed rightParsed leftTight rightTight
  exact ⟨w, parsed, root, by rw [conjuncts, leftConjuncts, rightConjuncts]⟩

theorem joined_of_and (t : Tree) (root : t.root? = some "&&") : t.joined = t.conjuncts := by
  rw [Tree.joined, root]
  rfl

/-- All further fragments add their conjuncts behind those of the first. -/
theorem parse_foldl_and (more : List Fragment) (ts : List Tree) (reads : List.Forall₂ Reads more ts)
    (f : Fragment) (t : Tree) (recorded : f.op = some "&&") (parsed : parse f.text = some t)
    (root : t.root? = some "&&") :
    ∃ w, parse (more.foldl Fragment.and f).text = some w ∧ w.root? = some "&&" ∧
      w.conjuncts = t.conjuncts ++ ts.flatMap Tree.joined := by
  induction reads generalizing f t with
  | nil => exact ⟨t, parsed, root, by simp⟩
  | cons first others ih =>
    rename_i g u more us
    obtain ⟨v, parsedBoth, rootBoth, conjuncts⟩ :=
      parse_and f g t u (.rooted t "&&" recorded parsed root) first
    obtain ⟨w, parsedAll, rootAll, all⟩ := ih (f.and g) v rfl parsedBoth rootBoth
    refine ⟨w, parsedAll, rootAll, ?_⟩
    rw [all, conjuncts, joined_of_and t root, List.flatMap_cons, List.append_assoc]

/-! What conditions joined by `&&` evaluate. -/

section Run

variable {M : Type → Type} [Monad M]

/-- The second condition is evaluated exactly when the first one holds. -/
def bothHold (x y : M Bool) : M Bool := do
  if ← x then y else return false

/-- The conditions are evaluated from the left up to the first that fails. -/
def allHold : List (M Bool) → M Bool
  | [] => return true
  | x :: xs => bothHold x (allHold xs)

variable [LawfulMonad M]

theorem allHold_singleton (x : M Bool) : allHold [x] = x := by
  have same : (fun holds : Bool => if holds = true then (pure true : M Bool) else pure false) =
      pure := by
    funext holds
    cases holds <;> rfl
  rw [allHold, allHold, bothHold, same, bind_pure]

theorem allHold_append (xs ys : List (M Bool)) :
    allHold (xs ++ ys) = bothHold (allHold xs) (allHold ys) := by
  induction xs with
  | nil => simp [allHold, bothHold]
  | cons x xs ih =>
    rw [List.cons_append, allHold, ih, allHold]
    simp only [bothHold, bind_assoc]
    congr 1
    funext holds
    cases holds <;> simp

/-- An expression evaluates its conjuncts in order. -/
theorem run_eq_allHold (leaf : Tree → M Bool) :
    (t : Tree) → t.run leaf = allHold (t.conjuncts.map (Tree.run leaf))
  | .operand _ | .paren _ | .range _ _ _ => (allHold_singleton _).symm
  | .binary op lhs rhs => by
    by_cases isAnd : op = "&&"
    · rw [Tree.run, if_pos isAnd, Tree.conjuncts, if_pos isAnd, List.map_append, allHold_append,
        ← run_eq_allHold leaf lhs, ← run_eq_allHold leaf rhs]
      rfl
    · rw [Tree.conjuncts, if_neg isAnd]
      exact (allHold_singleton _).symm

/-- What an expression adds to a chain evaluates as the expression does. -/
theorem run_joined (leaf : Tree → M Bool) (t : Tree) :
    allHold (t.joined.map (Tree.run leaf)) = t.run leaf := by
  unfold Tree.joined
  split
  · exact allHold_singleton _
  · split
    · exact (run_eq_allHold leaf t).symm
    · split
      · exact allHold_singleton _
      · exact allHold_singleton _

end Run

/-- Fragments joined by `&&` are a chain of `&&` of the conjuncts of all of them in order. The
condition written for two nested `if`s evaluates the inner condition exactly when the outer one
holds, whatever the conditions do. -/
theorem and_conjuncts :
    (∀ (f g : Fragment) (more : List Fragment) (ts : List Tree),
      List.Forall₂ Reads (f :: g :: more) ts →
      ∃ w, parse ((g :: more).foldl Fragment.and f).text = some w ∧ w.root? = some "&&" ∧
        w.conjuncts = ts.flatMap Tree.joined) ∧
    ∀ (source : Source) (outer inner : If) (lhs rhs : Expr) (t u : Tree),
      Reads (Fragment.ofExpr source lhs) t → Reads (Fragment.ofExpr source rhs) u →
      ∃ cond w, ((CollapsibleIf.Collapse.nested outer lhs inner rhs).suggestion source).replacement =
          "if " ++ cond ++ " " ++ source.snippetBlock inner.body.span ∧
        parse cond = some w ∧
        ∀ (M : Type → Type) [Monad M] [LawfulMonad M] (leaf : Tree → M Bool),
          w.run leaf = bothHold (t.run leaf) (u.run leaf) := by
  constructor
  · intro f g more ts reads
    cases reads with
    | cons first others =>
      cases others with
      | cons second others =>
        rename_i t u us
        obtain ⟨v, parsed, root, conjuncts⟩ := parse_and f g t u first second
        obtain ⟨w, parsedAll, rootAll, all⟩ :=
          parse_foldl_and more us others (f.and g) v rfl parsed root
        refine ⟨w, parsedAll, rootAll, ?_⟩
        rw [all, conjuncts, List.flatMap_cons, List.flatMap_cons, List.append_assoc]
  · intro source outer inner lhs rhs t u left right
    obtain ⟨w, parsed, -, conjuncts⟩ := parse_and _ _ t u left right
    refine ⟨_, w, rfl, parsed, ?_⟩
    intro M _ _ leaf
    rw [run_eq_allHold leaf w, conjuncts, List.map_append, allHold_append, run_joined, run_joined]

/-! The source `if a || b { if c {} }` and its two `if`s. -/

def sampleSource : Source := ⟨"if a || b \x7b if c \x7b\x7d \x7d", none⟩

def sampleOuterTest : Expr :=
  .binary "||" (.other "identifier" [] ⟨3, 4, 0⟩) (.other "identifier" [] ⟨8, 9, 0⟩) ⟨3, 9, 0⟩

def sampleInnerTest : Expr := .other "identifier" [] ⟨15, 16, 0⟩

def sampleInner : If := ⟨.test sampleInnerTest, ⟨[], ⟨17, 19, 0⟩⟩, none, ⟨12, 19, 0⟩⟩

def sampleOuter : If :=
  ⟨.test sampleOuterTest, ⟨[.expr (.branch sampleInner) false ⟨12, 19, 0⟩], ⟨10, 21, 0⟩⟩, none,
    ⟨0, 21, 0⟩⟩

/-- The outer condition goes in parentheses, and both are evaluated as before. -/
theorem sample_conjuncts :
    (∃ w, parse (([⟨"c", none⟩] : List Fragment).foldl Fragment.and ⟨"a || b", some "||"⟩).text =
        some w ∧
      w.conjuncts = [.paren (.binary "||" (.operand [.leaf (.word "a")])
        (.operand [.leaf (.word "b")])), .operand [.leaf (.word "c")]]) ∧
    ∃ cond w t u, ((CollapsibleIf.Collapse.nested sampleOuter sampleOuterTest sampleInner
          sampleInnerTest).suggestion sampleSource).replacement =
        "if " ++ cond ++ " " ++ sampleSource.snippetBlock ⟨17, 19, 0⟩ ∧
      parse cond = some w ∧ parse "a || b" = some t ∧ parse "c" = some u ∧
      ∀ (M : Type → Type) [Monad M] [LawfulMonad M] (leaf : Tree → M Bool),
        w.run leaf = bothHold (t.run leaf) (u.run leaf) := by
  have outer : Reads ⟨"a || b", some "||"⟩ (.binary "||" (.operand [.leaf (.word "a")])
      (.operand [.leaf (.word "b")])) := .rooted _ "||" rfl rfl rfl
  have inner : Reads ⟨"c", none⟩ (.operand [.leaf (.word "c")]) := .atom _ rfl rfl rfl
  have outerText : Fragment.ofExpr sampleSource sampleOuterTest = ⟨"a || b", some "||"⟩ := by
    decide +kernel
  have innerText : Fragment.ofExpr sampleSource sampleInnerTest = ⟨"c", none⟩ := by
    decide +kernel
  constructor
  · obtain ⟨w, parsed, -, conjuncts⟩ :=
      and_conjuncts.1 _ _ [] _ (.cons outer (.cons inner .nil))
    exact ⟨w, parsed, conjuncts⟩
  · obtain ⟨cond, w, written, parsed, runs⟩ := and_conjuncts.2 sampleSource sampleOuter sampleInner
      sampleOuterTest sampleInnerTest _ _ (outerText ▸ outer) (innerText ▸ inner)
    exact ⟨cond, w, _, _, written, parsed, rfl, rfl, runs⟩

end RustLint.Precedence
