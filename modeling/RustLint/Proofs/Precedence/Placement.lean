import RustLint.Proofs.Precedence.Conjunction
import RustLint.Proofs.Precedence.Regrouping

set_option autoImplicit false

namespace RustLint.Precedence

/-! The table and the levels of the grammar. -/

/-- How the level of the symbol groups. -/
def groupingOf (symbol : String) : Option Grouping := levels[levelOf symbol]?.map (·.grouping)

theorem levelOf_lt_length : ∀ op ∈ Operator.table, levelOf op.symbol < levels.length := by decide

theorem levelBeside_eq_iff : ∀ op ∈ Operator.table, ∀ r ∈ Operator.table,
    op.levelBeside r.symbol = op.level ↔ levelOf r.symbol = levelOf op.symbol := by decide

theorem levelBeside_eq_iff_of_mem {op : Operator} {l : Level} {s : String}
    (known : op ∈ Operator.table) (listed : l ∈ levels) (isSymbol : s ∈ l.symbols) :
    op.levelBeside s = op.level ↔ levelOf s = levelOf op.symbol := by
  obtain ⟨o, inTable, rfl⟩ := mem_table_of_mem_levels l listed s isSymbol
  exact levelBeside_eq_iff op known o inTable

/-- On the left an operand without parentheses binds tighter, or as tight where the level groups
from the left. -/
theorem levelOf_of_plain_left : ∀ op ∈ Operator.table, ∀ r ∈ Operator.table, op.symbol ≠ "as" →
    op.needsParen r.symbol .left = false →
    levelOf op.symbol ≤ levelOf r.symbol ∧
      (groupingOf op.symbol = some .left ∨ levelOf op.symbol < levelOf r.symbol) := by decide

/-- On the right it binds tighter, or as tight where the level groups from the right, or it is a run
of the operator and grouping makes no difference. -/
theorem levelOf_of_plain_right : ∀ op ∈ Operator.table, ∀ r ∈ Operator.table, op.symbol ≠ "as" →
    op.needsParen r.symbol .right = false →
    levelOf op.symbol < levelOf r.symbol ∨ levelOf op.symbol = levelOf r.symbol ∧
      (groupingOf op.symbol = some .right ∨
        groupingOf op.symbol = some .left ∧ r.symbol = op.symbol ∧ op.assoc = .both) := by decide

theorem mem_rangeSymbols_iff : ∀ op ∈ Operator.table,
    op.symbol ∈ rangeSymbols ↔ groupingOf op.symbol = some .range := by decide

theorem groupingOf_of_both : ∀ op ∈ Operator.table, op.assoc = .both →
    groupingOf op.symbol = some .left := by decide

/-- The levels around that of an operator. -/
structure AtLevel (op : Operator) (loose : List Level) (level : Level) (tight : List Level) :
    Prop where
  split : levels = loose ++ level :: tight
  own : op.symbol ∈ level.symbols
  grouping : groupingOf op.symbol = some level.grouping
  looser : ∀ l ∈ loose, ∀ s ∈ l.symbols, levelOf s < levelOf op.symbol
  same : ∀ s ∈ level.symbols, levelOf s = levelOf op.symbol
  tighter : ∀ l ∈ tight, ∀ s ∈ l.symbols, levelOf op.symbol < levelOf s
  ranges : level.grouping = .range → level.symbols = rangeSymbols

theorem levelOf_of_mem : ∀ i : Fin levels.length, ∀ s ∈ levels[i].symbols, levelOf s = i := by
  decide

theorem exists_atLevel (op : Operator) (known : op ∈ Operator.table) :
    ∃ loose level tight, AtLevel op loose level tight := by
  have ranges : ∀ i : Fin levels.length, levels[i].grouping = .range →
      levels[i].symbols = rangeSymbols := by decide
  have inside := levelOf_lt_length op known
  refine ⟨levels.take (levelOf op.symbol), levels[levelOf op.symbol],
    levels.drop (levelOf op.symbol + 1), ?_, ?_, ?_, ?_, ?_, ?_, ranges ⟨_, inside⟩⟩
  · rw [← List.drop_eq_getElem_cons inside, List.take_append_drop]
  · exact List.contains_iff_mem.mp (List.findIdx_getElem (w := inside))
  · rw [groupingOf, List.getElem?_eq_getElem inside]
    rfl
  · intro l listed s isSymbol
    obtain ⟨i, bound, rfl⟩ := List.getElem_of_mem listed
    rw [List.length_take] at bound
    rw [List.getElem_take] at isSymbol
    have place : levelOf s = i := levelOf_of_mem ⟨i, by omega⟩ s isSymbol
    omega
  · intro s isSymbol
    exact levelOf_of_mem ⟨_, inside⟩ s isSymbol
  · intro l listed s isSymbol
    obtain ⟨i, bound, rfl⟩ := List.getElem_of_mem listed
    rw [List.length_drop] at bound
    rw [List.getElem_drop] at isSymbol
    have place : levelOf s = levelOf op.symbol + 1 + i := levelOf_of_mem ⟨_, by omega⟩ s isSymbol
    omega

theorem boundTree?_of_some (ls : List Level) (c : Chain) (t : Tree) (grouped : group ls c = some t) :
    boundTree? (group ls) c = some (some t) := by
  unfold boundTree?
  split
  · rw [group_operand] at grouped
    cases grouped
  · rw [grouped]
    rfl

/-! Chains around an operator. -/

/-- What comes of two operands around the operator: the operator between them, or the right operand
is a run, and the left one goes in front of the first operand of its level. -/
inductive Placed (op : Operator) (t u : Tree) : Tree → Prop
  | whole (apart : ¬ (op.assoc = .both ∧ u.root? = some op.symbol)) :
      Placed op t u (.around op.symbol t u)
  | run (first : Tree) (rest : List (String × Tree)) (isRun : u = joinLeft first rest)
      (both : op.assoc = .both) (root : u.root? = some op.symbol)
      (level : ∀ o ∈ rest.map (·.1), op.levelBeside o = op.level)
      (head : ∀ r, first.root? = some r → op.levelBeside r ≠ op.level) :
      Placed op t u (joinLeft (.binary op.symbol t first) rest)

section Around

variable {op : Operator} {loose tight : List Level} {level : Level}
  (here : AtLevel op loose level tight) {c d : Chain} {t u : Tree}

include here

/-- A chain of a tree that binds at least as tight. -/
theorem AtLevel.group_of_le (grouped : group levels c = some t)
    (root : ∀ r, t.root? = some r → levelOf op.symbol ≤ levelOf r) :
    (∀ l ∈ loose, ∀ o ∈ c.ops, o ∉ l.symbols) ∧ group (level :: tight) c = some t := by
  rw [here.split] at grouped
  refine group_of_root? loose (level :: tight) c t grouped ?_
  intro r isRoot l listed isSymbol
  have notLooser := root r isRoot
  have isLooser := here.looser l listed r isSymbol
  omega

/-- A chain of a tree that binds tighter. -/
theorem AtLevel.group_of_lt (grouped : group levels c = some t)
    (root : ∀ r, t.root? = some r → levelOf op.symbol < levelOf r) :
    (∀ l ∈ loose, ∀ o ∈ c.ops, o ∉ l.symbols) ∧ (∀ o ∈ c.ops, o ∉ level.symbols) ∧
      group tight c = some t := by
  obtain ⟨noLooser, whole⟩ := here.group_of_le grouped fun r isRoot => Nat.le_of_lt (root r isRoot)
  obtain ⟨noOwn, tightOk⟩ := group_of_root? [level] tight c t whole (by
    intro r isRoot l listed isSymbol
    obtain rfl := List.mem_singleton.mp listed
    have isTighter := root r isRoot
    have own := here.same r isSymbol
    omega)
  exact ⟨noLooser, noOwn level (List.mem_singleton_self level), tightOk⟩

theorem AtLevel.around_of_right (right : level.grouping = .right)
    (noOwn : ∀ o ∈ c.ops, o ∉ level.symbols) (left : group tight c = some t)
    (behind : group (level :: tight) d = some u) :
    group (level :: tight) (c.append op.symbol d) = some (.binary op.symbol t u) := by
  obtain ⟨second, others, secondOk, linked, rfl⟩ := (group_of_right level tight d u right).mp behind
  refine (group_of_right level tight _ _ right).mpr ⟨t, (op.symbol, second) :: others, ?_, ?_, rfl⟩
  · rw [Chain.append, splitAt_append _ _ d.first _ _ _ here.own, splitAt_of_none _ _ _ noOwn]
    exact left
  · rw [Chain.append, splitAt_append _ _ d.first _ _ _ here.own, splitAt_of_none _ _ _ noOwn]
    exact (linkTrees?_cons _ _ _ _ _).mpr ⟨second, others, secondOk, linked, rfl⟩

theorem AtLevel.around_of_range (range : level.grouping = .range)
    (noOwn : ∀ o ∈ c.ops, o ∉ level.symbols) (left : group tight c = some t)
    (noOwn' : ∀ o ∈ d.ops, o ∉ level.symbols) (behind : group tight d = some u) :
    group (level :: tight) (c.append op.symbol d) = some (.range op.symbol (some t) (some u)) := by
  rw [group_cons, Chain.append, splitAt_append _ _ d.first _ _ _ here.own,
    splitAt_of_none _ _ _ noOwn, splitAt_of_none _ _ _ noOwn', range]
  simp [Grouping.join, boundTree?_of_some tight _ _ left, boundTree?_of_some tight _ _ behind]

/-- From the left a chain goes in front of the first operand of the other. -/
theorem AtLevel.around_of_left (left : level.grouping = .left)
    (inFront : group (level :: tight) c = some t) (behind : group (level :: tight) d = some u) :
    ∃ first rest, u = joinLeft first rest ∧ (∀ o ∈ rest.map (·.1), o ∈ level.symbols) ∧
      (∀ r, first.root? = some r → ∃ l ∈ tight, r ∈ l.symbols) ∧
      group (level :: tight) (c.append op.symbol d) =
        some (joinLeft (.binary op.symbol t first) rest) := by
  obtain ⟨head, links, headOk, linked, rfl⟩ := (group_of_left level tight c t left).mp inFront
  obtain ⟨first, rest, firstOk, linked', rfl⟩ := (group_of_left level tight d u left).mp behind
  refine ⟨first, rest, rfl, ?_, ?_, ?_⟩
  · intro o listed
    rw [ops_of_linkTrees? _ _ _ linked'] at listed
    exact mem_symbols_of_splitAt _ _ _ o listed
  · exact root?_of_group tight _ first firstOk
  · have all := linkTrees?_append (group tight) _ _ links ((op.symbol, first) :: rest) linked
      ((linkTrees?_cons _ _ _ _ _).mpr ⟨first, rest, firstOk, linked', rfl⟩)
    refine (group_of_left level tight _ _ left).mpr
      ⟨head, links ++ (op.symbol, first) :: rest, ?_, ?_, ?_⟩
    · rw [Chain.append, splitAt_append _ _ d.first _ _ _ here.own]
      exact headOk
    · rw [Chain.append, splitAt_append _ _ d.first _ _ _ here.own]
      exact all
    · rw [joinLeft_append, joinLeft_cons]

end Around

/-- The tree binds so tight that it gets no parentheses on the side of the operator. -/
def Plain (op : Operator) (side : Associativity) (t : Tree) : Prop :=
  ∀ r, t.root? = some r → op.needsParen r side = false

/-- The operator is that of a range exactly on the level of ranges, and grouping makes a difference
unless the level groups from the left. -/
theorem AtLevel.kind {op : Operator} {loose tight : List Level} {level : Level}
    (here : AtLevel op loose level tight) (known : op ∈ Operator.table) :
    (op.symbol ∈ rangeSymbols ↔ level.grouping = .range) ∧
      (op.assoc = .both → level.grouping = .left) := by
  have isRange := mem_rangeSymbols_iff op known
  have ofBoth := groupingOf_of_both op known
  rw [here.grouping, Option.some.injEq] at isRange ofBoth
  exact ⟨isRange, ofBoth⟩

section Plain

variable {op : Operator} {loose tight : List Level} {level : Level}
  (here : AtLevel op loose level tight) (known : op ∈ Operator.table) (noCast : op.symbol ≠ "as")
  {c d : Chain} {t u : Tree}

include here known noCast

theorem AtLevel.of_plain_left (grouped : group levels c = some t) (plain : Plain op .left t)
    (r : String) (root : t.root? = some r) :
    levelOf op.symbol ≤ levelOf r ∧ (level.grouping = .left ∨ levelOf op.symbol < levelOf r) := by
  obtain ⟨l, listed, isSymbol⟩ := root?_of_group levels c t grouped r root
  obtain ⟨o, inTable, rfl⟩ := mem_table_of_mem_levels l listed r isSymbol
  have sides := levelOf_of_plain_left op known o inTable noCast (plain _ root)
  rw [here.grouping, Option.some.injEq] at sides
  exact sides

theorem AtLevel.of_plain_right (grouped : group levels d = some u) (plain : Plain op .right u)
    (r : String) (root : u.root? = some r) :
    levelOf op.symbol < levelOf r ∨ levelOf op.symbol = levelOf r ∧ (level.grouping = .right ∨
      level.grouping = .left ∧ r = op.symbol ∧ op.assoc = .both) := by
  obtain ⟨l, listed, isSymbol⟩ := root?_of_group levels d u grouped r root
  obtain ⟨o, inTable, rfl⟩ := mem_table_of_mem_levels l listed r isSymbol
  have sides := levelOf_of_plain_right op known o inTable noCast (plain _ root)
  rw [here.grouping, Option.some.injEq, Option.some.injEq] at sides
  exact sides

theorem AtLevel.le_of_plain_right (grouped : group levels d = some u) (plain : Plain op .right u)
    (r : String) (root : u.root? = some r) : levelOf op.symbol ≤ levelOf r := by
  have sides := here.of_plain_right known noCast grouped plain r root
  omega

/-- Ranges have no ranges as bounds. -/
theorem AtLevel.lt_of_plain_right (side : level.grouping = .range) (grouped : group levels d = some u)
    (plain : Plain op .right u) (r : String) (root : u.root? = some r) :
    levelOf op.symbol < levelOf r := by
  have sides := here.of_plain_right known noCast grouped plain r root
  simpa [side] using sides

theorem AtLevel.placed_of_left (side : level.grouping = .left) (left : group levels c = some t)
    (right : group levels d = some u) (plainLeft : Plain op .left t)
    (plainRight : Plain op .right u) :
    ∃ w, group (level :: tight) (c.append op.symbol d) = some w ∧ Placed op t u w := by
  have noRange : op.symbol ∉ rangeSymbols := by
    rw [(here.kind known).1, side]
    nofun
  have atRight := here.of_plain_right known noCast right plainRight
  obtain ⟨-, inFront⟩ := here.group_of_le left fun r root =>
    (here.of_plain_left known noCast left plainLeft r root).1
  obtain ⟨-, behind⟩ :=
    here.group_of_le right (here.le_of_plain_right known noCast right plainRight)
  obtain ⟨first, rest, rfl, own, head, both⟩ := here.around_of_left side inFront behind
  refine ⟨_, both, ?_⟩
  -- Without an operator of the level on the right, the right operand is the first operand itself.
  by_cases several : rest = []
  · subst several
    have apart : ¬ (op.assoc = .both ∧ first.root? = some op.symbol) := by
      rintro ⟨-, root⟩
      obtain ⟨l, listed, isSymbol⟩ := head op.symbol root
      exact Nat.lt_irrefl _ (here.tighter l listed op.symbol isSymbol)
    have whole := Placed.whole (t := t) apart
    rwa [Tree.around, if_neg noRange] at whole
  · obtain ⟨r, listed, root⟩ := root?_joinLeft first rest several
    have same := here.same r (own r listed)
    rcases atRight r root with tighter | ⟨-, isRight | ⟨-, rfl, isBoth⟩⟩
    · omega
    · rw [side] at isRight
      cases isRight
    · refine .run first rest rfl isBoth root ?_ ?_
      · intro o listed
        have inLevels : level ∈ levels := by simp [here.split]
        exact (levelBeside_eq_iff_of_mem known inLevels (own o listed)).mpr
          (here.same o (own o listed))
      · intro r root
        obtain ⟨l, listed, isSymbol⟩ := head r root
        have inLevels : l ∈ levels := by simp [here.split, listed]
        rw [Ne, levelBeside_eq_iff_of_mem known inLevels isSymbol]
        exact Nat.ne_of_gt (here.tighter l listed r isSymbol)

theorem AtLevel.placed (left : group levels c = some t) (right : group levels d = some u)
    (plainLeft : Plain op .left t) (plainRight : Plain op .right u) :
    ∃ w, group (level :: tight) (c.append op.symbol d) = some w ∧ Placed op t u w := by
  have kind := here.kind known
  have atLeft := here.of_plain_left known noCast left plainLeft
  have apart (other : level.grouping ≠ .left) : ¬ (op.assoc = .both ∧ u.root? = some op.symbol) :=
    fun same => other (kind.2 same.1)
  cases side : level.grouping with
  | left => exact here.placed_of_left known noCast side left right plainLeft plainRight
  | right =>
    obtain ⟨-, noOwn, inFront⟩ := here.group_of_lt left fun r root =>
      (atLeft r root).2.resolve_left (by rw [side]; nofun)
    obtain ⟨-, behind⟩ :=
      here.group_of_le right (here.le_of_plain_right known noCast right plainRight)
    refine ⟨_, here.around_of_right side noOwn inFront behind, ?_⟩
    have whole := Placed.whole (t := t) (apart (by rw [side]; nofun))
    rwa [Tree.around, if_neg (by rw [kind.1, side]; nofun)] at whole
  | range =>
    obtain ⟨-, noOwn, inFront⟩ := here.group_of_lt left fun r root =>
      (atLeft r root).2.resolve_left (by rw [side]; nofun)
    obtain ⟨-, noOwn', behind⟩ :=
      here.group_of_lt right (here.lt_of_plain_right known noCast side right plainRight)
    refine ⟨_, here.around_of_range side noOwn inFront noOwn' behind, ?_⟩
    have whole := Placed.whole (t := t) (apart (by rw [side]; nofun))
    rwa [Tree.around, if_pos (kind.1.mpr side)] at whole

/-- The levels that are looser leave the chains as they are. -/
theorem AtLevel.placed_of_levels (left : group levels c = some t) (right : group levels d = some u)
    (plainLeft : Plain op .left t) (plainRight : Plain op .right u) :
    ∃ w, group levels (c.append op.symbol d) = some w ∧ Placed op t u w := by
  obtain ⟨w, both, placed⟩ := here.placed known noCast left right plainLeft plainRight
  obtain ⟨noLooser, -⟩ := here.group_of_le left fun r root =>
    (here.of_plain_left known noCast left plainLeft r root).1
  obtain ⟨noLooser', -⟩ :=
    here.group_of_le right (here.le_of_plain_right known noCast right plainRight)
  refine ⟨w, ?_, placed⟩
  rw [here.split, group_append_of_none loose (level :: tight) _ ?_]
  · exact both
  · intro l listed o isOp
    rw [Chain.ops_append] at isOp
    rcases List.mem_append.mp isOp with inLeft | isBehind
    · exact noLooser l listed o inLeft
    · rcases List.mem_cons.mp isBehind with rfl | inRight
      · exact fun isSymbol => Nat.lt_irrefl _ (here.looser l listed _ isSymbol)
      · exact noLooser' l listed o inRight

/-- A left operand that is a range without parentheses stands beside an operator that is looser. -/
theorem AtLevel.lt_of_range (left : group levels c = some t) (plainLeft : Plain op .left t)
    (o : String) (listed : o ∈ c.ops) (isRange : o ∈ rangeSymbols) :
    levelOf op.symbol < levelOf o := by
  have atLeft := here.of_plain_left known noCast left plainLeft
  obtain ⟨noLooser, -⟩ := here.group_of_le left fun r root => (atLeft r root).1
  -- The level of ranges can be neither looser than the operator nor its own.
  have ranges : (⟨rangeSymbols, .range⟩ : Level) ∈ loose ++ level :: tight := by
    rw [← here.split]
    simp [levels, looseLevels]
  rcases List.mem_append.mp ranges with isLooser | notLooser
  · exact (noLooser _ isLooser o listed isRange).elim
  · rcases List.mem_cons.mp notLooser with rfl | isTighter
    · obtain ⟨-, noOwn, -⟩ := here.group_of_lt left fun r root =>
        (atLeft r root).2.resolve_left (by decide)
      exact (noOwn o listed isRange).elim
    · exact here.tighter _ isTighter o isRange

/-- Behind a range operator the chain is read as it is on its own. -/
theorem AtLevel.read_behind (right : group levels d = some u) (plainRight : Plain op .right u)
    (behind : List Piece) (readOk : read .start [] behind = some d) :
    read (behindOperator op.symbol) [] behind = some d := by
  by_cases isRange : op.symbol ∈ rangeSymbols
  · have side := (here.kind known).1.mp isRange
    obtain ⟨-, noOwn, -⟩ :=
      here.group_of_lt right (here.lt_of_plain_right known noCast side right plainRight)
    rw [here.ranges side] at noOwn
    rw [behindOperator, if_neg noCast, if_pos (List.contains_iff_mem.mpr isRange)]
    exact read_bound behind d readOk noOwn
  · rw [behindOperator, if_neg noCast, if_neg (by simpa using isRange)]
    exact readOk

end Plain

end RustLint.Precedence
