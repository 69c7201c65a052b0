import RustLint.Proofs.Precedence.Grammar

set_option autoImplicit false

namespace RustLint.Precedence

/-! Chains split at the operators of a level. -/

theorem splitAt_of_none (symbols : List String) (first : List Piece)
    (rest : List (String × List Piece)) (none : ∀ op ∈ rest.map (·.1), op ∉ symbols) :
    splitAt symbols first rest = (⟨first, rest⟩, []) := by
  induction rest generalizing first with
  | nil => rfl
  | cons link rest ih =>
    obtain ⟨op, operand⟩ := link
    have noOp : op ∉ symbols := none op List.mem_cons_self
    rw [splitAt, ih operand fun o later => none o (List.mem_cons_of_mem _ later)]
    simp [noOp]

theorem mem_symbols_of_splitAt (symbols : List String) (first : List Piece)
    (rest : List (String × List Piece)) (op : String)
    (listed : op ∈ (splitAt symbols first rest).2.map (·.1)) : op ∈ symbols := by
  induction rest generalizing first with
  | nil => cases listed
  | cons link rest ih =>
    obtain ⟨o, operand⟩ := link
    rw [splitAt] at listed
    by_cases known : symbols.contains o = true
    · simp only [if_pos known, List.map_cons] at listed
      rcases List.mem_cons.mp listed with rfl | later
      · exact List.contains_iff_mem.mp known
      · exact ih operand later
    · simp only [if_neg known] at listed
      exact ih operand listed

theorem splitAt_eq_nil (symbols : List String) (first : List Piece)
    (rest : List (String × List Piece)) (whole : (splitAt symbols first rest).2 = []) :
    ∀ op ∈ rest.map (·.1), op ∉ symbols := by
  induction rest generalizing first with
  | nil =>
    intro op listed
    cases listed
  | cons link rest ih =>
    obtain ⟨o, operand⟩ := link
    rw [splitAt] at whole
    by_cases known : symbols.contains o = true
    · simp only [if_pos known] at whole
      cases whole
    · simp only [if_neg known] at whole
      intro op listed
      rcases List.mem_cons.mp listed with rfl | later
      · exact fun isKnown => known (List.contains_iff_mem.mpr isKnown)
      · exact ih operand whole op later

/-- At an operator of the level the chain falls apart. -/
theorem splitAt_append (symbols : List String) (first second : List Piece)
    (front behind : List (String × List Piece)) (op : String) (known : op ∈ symbols) :
    splitAt symbols first (front ++ (op, second) :: behind) =
      ((splitAt symbols first front).1, (splitAt symbols first front).2 ++
        (op, (splitAt symbols second behind).1) :: (splitAt symbols second behind).2) := by
  induction front generalizing first with
  | nil =>
    have isKnown : symbols.contains op = true := List.contains_iff_mem.mpr known
    simp only [List.nil_append, splitAt, if_pos isKnown]
  | cons link front ih =>
    obtain ⟨o, operand⟩ := link
    rw [List.cons_append, splitAt, ih operand, splitAt]
    by_cases isKnown : symbols.contains o = true
    · simp only [if_pos isKnown]
      rfl
    · simp only [if_neg isKnown]

/-! Operands of one level put together. -/

theorem join_nil (grouping : Grouping) (tree : Chain → Option Tree) (first : Chain) :
    grouping.join tree first [] = tree first := by
  cases grouping with
  | left | right =>
    cases found : tree first <;> simp [Grouping.join, found, linkTrees?, joinLeft, joinRight]
  | range => rfl

theorem linkTrees?_cons (tree : Chain → Option Tree) (op : String) (chain : Chain)
    (rest : List (String × Chain)) (trees : List (String × Tree)) :
    linkTrees? tree ((op, chain) :: rest) = some trees ↔
      ∃ t others, tree chain = some t ∧ linkTrees? tree rest = some others ∧
        (op, t) :: others = trees := by
  simp only [linkTrees?, Option.bind_eq_bind, Option.bind_eq_some_iff, Option.pure_def,
    Option.some.injEq, exists_and_left]

/-- Operands are put together exactly when each of them can be. -/
theorem join_eq_some (join : Tree → List (String × Tree) → Tree) (tree : Chain → Option Tree)
    (first : Chain) (rest : List (String × Chain)) (t : Tree) :
    (do return join (← tree first) (← linkTrees? tree rest)) = some t ↔
      ∃ head trees, tree first = some head ∧ linkTrees? tree rest = some trees ∧
        join head trees = t := by
  simp only [Option.bind_eq_bind, Option.bind_eq_some_iff, Option.pure_def, Option.some.injEq,
    exists_and_left]

theorem ops_of_linkTrees? (tree : Chain → Option Tree) (rest : List (String × Chain))
    (trees : List (String × Tree)) (linked : linkTrees? tree rest = some trees) :
    trees.map (·.1) = rest.map (·.1) := by
  induction rest generalizing trees with
  | nil =>
    cases linked
    rfl
  | cons link rest ih =>
    obtain ⟨t, others, -, othersOk, rfl⟩ :=
      (linkTrees?_cons tree link.1 link.2 rest trees).mp linked
    rw [List.map_cons, List.map_cons, ih others othersOk]

theorem tree_of_linkTrees? (tree : Chain → Option Tree) (rest : List (String × Chain))
    (trees : List (String × Tree)) (linked : linkTrees? tree rest = some trees) (t : Tree)
    (listed : t ∈ trees.map (·.2)) : ∃ chain, tree chain = some t := by
  induction rest generalizing trees with
  | nil =>
    cases linked
    cases listed
  | cons link rest ih =>
    obtain ⟨u, others, first, othersOk, rfl⟩ :=
      (linkTrees?_cons tree link.1 link.2 rest trees).mp linked
    rcases List.mem_cons.mp listed with rfl | later
    · exact ⟨link.2, first⟩
    · exact ih others othersOk later

theorem linkTrees?_append (tree : Chain → Option Tree) (front behind : List (String × Chain))
    (ts us : List (String × Tree)) (frontOk : linkTrees? tree front = some ts)
    (behindOk : linkTrees? tree behind = some us) :
    linkTrees? tree (front ++ behind) = some (ts ++ us) := by
  induction front generalizing ts with
  | nil =>
    cases frontOk
    exact behindOk
  | cons link front ih =>
    obtain ⟨t, others, first, othersOk, rfl⟩ :=
      (linkTrees?_cons tree link.1 link.2 front ts).mp frontOk
    exact (linkTrees?_cons tree link.1 link.2 (front ++ behind) _).mpr
      ⟨t, others ++ us, first, ih others othersOk, rfl⟩

theorem root?_joinLeft (first : Tree) (rest : List (String × Tree)) (several : rest ≠ []) :
    ∃ op ∈ rest.map (·.1), (joinLeft first rest).root? = some op := by
  rcases List.eq_nil_or_concat rest with rfl | ⟨front, ⟨op, last⟩, rfl⟩
  · exact (several rfl).elim
  · refine ⟨op, by simp, ?_⟩
    rw [joinLeft, List.concat_eq_append, List.foldl_append]
    rfl

theorem root?_joinRight (first : Tree) (rest : List (String × Tree)) (several : rest ≠ []) :
    ∃ op ∈ rest.map (·.1), (joinRight first rest).root? = some op := by
  cases rest with
  | nil => exact (several rfl).elim
  | cons link rest => exact ⟨link.1, List.mem_cons_self, rfl⟩

/-- The same for operands that are put together on their own first. -/
theorem root?_of_linkTrees? (join : Tree → List (String × Tree) → Tree)
    (rooted : ∀ first rest, rest ≠ [] → ∃ op ∈ rest.map (·.1), (join first rest).root? = some op)
    (tree : Chain → Option Tree) (first : Chain) (rest : List (String × Chain))
    (several : rest ≠ []) (t : Tree)
    (joined : (do return join (← tree first) (← linkTrees? tree rest)) = some t) :
    ∃ op ∈ rest.map (·.1), t.root? = some op := by
  obtain ⟨head, trees, -, linked, rfl⟩ := (join_eq_some join tree first rest t).mp joined
  have ops : trees.map (·.1) = rest.map (·.1) := ops_of_linkTrees? tree rest trees linked
  have severalTrees : trees ≠ [] := by
    rintro rfl
    apply several
    rwa [List.map_nil, eq_comm, List.map_eq_nil_iff] at ops
  rw [← ops]
  exact rooted head trees severalTrees

/-- The root of several operands is one of the operators between them. -/
theorem root?_of_join (grouping : Grouping) (tree : Chain → Option Tree) (first : Chain)
    (rest : List (String × Chain)) (several : rest ≠ []) (t : Tree)
    (joined : grouping.join tree first rest = some t) :
    ∃ op ∈ rest.map (·.1), t.root? = some op := by
  cases grouping with
  | left => exact root?_of_linkTrees? joinLeft root?_joinLeft tree first rest several t joined
  | right => exact root?_of_linkTrees? joinRight root?_joinRight tree first rest several t joined
  | range =>
    match rest with
    | [] => exact (several rfl).elim
    | [(op, upper)] =>
      obtain ⟨lo, -, joined⟩ := Option.bind_eq_some_iff.mp joined
      obtain ⟨hi, -, joined⟩ := Option.bind_eq_some_iff.mp joined
      split at joined
      · cases joined
      · cases joined
        exact ⟨op, by simp, rfl⟩
    | _ :: _ :: _ => cases joined

/-! Levels that do not occur. -/

theorem group_cons (level : Level) (tighter : List Level) (c : Chain) :
    group (level :: tighter) c = level.grouping.join (group tighter)
      (splitAt level.symbols c.first c.rest).1 (splitAt level.symbols c.first c.rest).2 := rfl

theorem group_of_left (level : Level) (tighter : List Level) (c : Chain) (t : Tree)
    (left : level.grouping = .left) :
    group (level :: tighter) c = some t ↔
      ∃ first rest, group tighter (splitAt level.symbols c.first c.rest).1 = some first ∧
        linkTrees? (group tighter) (splitAt level.symbols c.first c.rest).2 = some rest ∧
        joinLeft first rest = t := by
  rw [group_cons, left]
  exact join_eq_some joinLeft (group tighter) _ _ t

theorem group_of_right (level : Level) (tighter : List Level) (c : Chain) (t : Tree)
    (right : level.grouping = .right) :
    group (level :: tighter) c = some t ↔
      ∃ first rest, group tighter (splitAt level.symbols c.first c.rest).1 = some first ∧
        linkTrees? (group tighter) (splitAt level.symbols c.first c.rest).2 = some rest ∧
        joinRight first rest = t := by
  rw [group_cons, right]
  exact join_eq_some joinRight (group tighter) _ _ t

theorem group_cons_of_none (level : Level) (tighter : List Level) (c : Chain)
    (none : ∀ op ∈ c.ops, op ∉ level.symbols) : group (level :: tighter) c = group tighter c := by
  rw [group_cons, splitAt_of_none level.symbols c.first c.rest none]
  exact join_nil level.grouping (group tighter) c

theorem root?_of_operandTree? (pieces : List Piece) (t : Tree)
    (operand : operandTree? pieces = some t) : t.root? = none := by
  unfold operandTree? at operand
  split at operand
  · cases operand
  · cases operand
    rfl
  · cases operand
    rfl

/-- The root of a chain is an operator of one of the levels. -/
theorem root?_of_group (ls : List Level) (c : Chain) (t : Tree) (grouped : group ls c = some t)
    (op : String) (root : t.root? = some op) : ∃ level ∈ ls, op ∈ level.symbols := by
  induction ls generalizing c with
  | nil =>
    obtain ⟨first, rest⟩ := c
    cases rest with
    | nil =>
      rw [root?_of_operandTree? first t grouped] at root
      cases root
    | cons link rest => cases grouped
  | cons level tighter ih =>
    by_cases none : (splitAt level.symbols c.first c.rest).2 = []
    · rw [group_cons_of_none level tighter c (splitAt_eq_nil _ _ _ none)] at grouped
      obtain ⟨other, listed, known⟩ := ih c grouped
      exact ⟨other, List.mem_cons_of_mem _ listed, known⟩
    · rw [group_cons] at grouped
      obtain ⟨o, listed, isRoot⟩ := root?_of_join _ _ _ _ none t grouped
      cases root.symm.trans isRoot
      exact ⟨level, List.mem_cons_self, mem_symbols_of_splitAt _ _ _ op listed⟩

/-- A root of a tighter level, or none at all, says that no operator of the looser levels occurs. -/
theorem group_of_root? (loose tight : List Level) (c : Chain) (t : Tree)
    (grouped : group (loose ++ tight) c = some t)
    (root : ∀ op, t.root? = some op → ∀ level ∈ loose, op ∉ level.symbols) :
    (∀ level ∈ loose, ∀ op ∈ c.ops, op ∉ level.symbols) ∧ group tight c = some t := by
  induction loose with
  | nil =>
    refine ⟨?_, grouped⟩
    intro level listed
    cases listed
  | cons level loose ih =>
    rw [List.cons_append] at grouped
    by_cases none : (splitAt level.symbols c.first c.rest).2 = []
    · have absent := splitAt_eq_nil level.symbols c.first c.rest none
      rw [group_cons_of_none level (loose ++ tight) c absent] at grouped
      obtain ⟨others, whole⟩ := ih grouped fun op isRoot l listed =>
        root op isRoot l (List.mem_cons_of_mem _ listed)
      refine ⟨?_, whole⟩
      intro l listed
      rcases List.mem_cons.mp listed with rfl | later
      · exact absent
      · exact others l later
    · rw [group_cons] at grouped
      obtain ⟨op, listed, isRoot⟩ := root?_of_join _ _ _ _ none t grouped
      exact (root op isRoot level List.mem_cons_self (mem_symbols_of_splitAt _ _ _ op listed)).elim

/-- A single operand is what it is on every level. -/
theorem group_operand (ls : List Level) (pieces : List Piece) :
    group ls ⟨pieces, []⟩ = operandTree? pieces := by
  induction ls with
  | nil => rfl
  | cons level ls ih => rw [group_cons_of_none level ls _ (by simp [Chain.ops]), ih]

theorem group_append_of_none (loose tight : List Level) (c : Chain)
    (none : ∀ level ∈ loose, ∀ op ∈ c.ops, op ∉ level.symbols) :
    group (loose ++ tight) c = group tight c := by
  induction loose with
  | nil => rfl
  | cons level loose ih =>
    rw [List.cons_append, group_cons_of_none level _ c (none level List.mem_cons_self)]
    exact ih fun l listed => none l (List.mem_cons_of_mem _ listed)

/-! Chains around `&&`. -/

theorem conjuncts_joinLeft (first : Tree) (rest : List (String × Tree))
    (ands : ∀ op ∈ rest.map (·.1), op = "&&")
    (single : ∀ t ∈ rest.map (·.2), t.root? ≠ some "&&") :
    (joinLeft first rest).conjuncts = first.conjuncts ++ rest.map (·.2) := by
  induction rest generalizing first with
  | nil => simp [joinLeft]
  | cons link rest ih =>
    obtain ⟨op, t⟩ := link
    obtain rfl : op = "&&" := ands op List.mem_cons_self
    have one : t.conjuncts = [t] := Tree.conjuncts_of_root? t (single t List.mem_cons_self)
    rw [joinLeft, List.foldl_cons, ← joinLeft, ih _
      (fun o later => ands o (List.mem_cons_of_mem _ later))
      (fun u later => single u (List.mem_cons_of_mem _ later))]
    simp [Tree.conjuncts, one]

/-- The operators at which a chain is split on the level of `&&`. -/
theorem ands_of_splitAt (c : Chain) :
    ∀ op ∈ (splitAt andLevel.symbols c.first c.rest).2.map (·.1), op = "&&" := by
  intro op listed
  exact List.mem_singleton.mp (mem_symbols_of_splitAt _ _ _ op listed)

/-- Operands of the tighter levels joined by `&&` are its conjuncts. -/
theorem conjuncts_of_linkTrees? (chain : Chain) (links : List (String × Chain)) (first : Tree)
    (rest : List (String × Tree)) (firstOk : group tightLevels chain = some first)
    (linked : linkTrees? (group tightLevels) links = some rest)
    (ands : ∀ op ∈ links.map (·.1), op = "&&") :
    (joinLeft first rest).conjuncts = first :: rest.map (·.2) := by
  have noAnd (chain : Chain) (u : Tree) (ok : group tightLevels chain = some u) :
      u.root? ≠ some "&&" := by
    intro root
    obtain ⟨level, listed, known⟩ := root?_of_group tightLevels chain u ok "&&" root
    revert level
    decide
  rw [conjuncts_joinLeft first rest, Tree.conjuncts_of_root? first (noAnd chain first firstOk)]
  · rfl
  · rw [ops_of_linkTrees? _ links rest linked]
    exact ands
  · intro u listed
    obtain ⟨other, ok⟩ := tree_of_linkTrees? _ links rest linked u listed
    exact noAnd other u ok

theorem group_andLevel (c : Chain) (t : Tree) :
    group (andLevel :: tightLevels) c = some t ↔
      ∃ first rest, group tightLevels (splitAt andLevel.symbols c.first c.rest).1 = some first ∧
        linkTrees? (group tightLevels) (splitAt andLevel.symbols c.first c.rest).2 = some rest ∧
        joinLeft first rest = t :=
  group_of_left andLevel tightLevels c t rfl

/-- Two chains around `&&` are a chain of `&&` of the conjuncts of the one and then those of the
other. -/
theorem group_append_and (c d : Chain) (t u : Tree)
    (left : group (andLevel :: tightLevels) c = some t)
    (right : group (andLevel :: tightLevels) d = some u) :
    ∃ w, group (andLevel :: tightLevels) (c.append "&&" d) = some w ∧ w.root? = some "&&" ∧
      w.conjuncts = t.conjuncts ++ u.conjuncts := by
  obtain ⟨first, rest, firstOk, linked, rfl⟩ := (group_andLevel c t).mp left
  obtain ⟨second, others, secondOk, othersLinked, rfl⟩ := (group_andLevel d u).mp right
  have split := splitAt_append andLevel.symbols c.first d.first c.rest d.rest "&&"
    (List.mem_singleton_self "&&")
  have behind := (linkTrees?_cons (group tightLevels) "&&" _ _ _).mpr
    ⟨second, others, secondOk, othersLinked, rfl⟩
  have all := linkTrees?_append _ _ _ rest _ linked behind
  have ands : ∀ op ∈ ((splitAt andLevel.symbols c.first c.rest).2 ++
      ("&&", (splitAt andLevel.symbols d.first d.rest).1) ::
        (splitAt andLevel.symbols d.first d.rest).2).map (·.1), op = "&&" := by
    intro op listed
    rw [List.map_append, List.map_cons] at listed
    rcases List.mem_append.mp listed with inFront | isBehind
    · exact ands_of_splitAt c op inFront
    · rcases List.mem_cons.mp isBehind with rfl | later
      · rfl
      · exact ands_of_splitAt d op later
  refine ⟨joinLeft first (rest ++ ("&&", second) :: others), ?_, ?_, ?_⟩
  · refine (group_andLevel _ _).mpr ⟨first, _, ?_, ?_, rfl⟩
    · rw [Chain.append, split]
      exact firstOk
    · rw [Chain.append, split]
      exact all
  · obtain ⟨op, listed, root⟩ := root?_joinLeft first (rest ++ ("&&", second) :: others) (by simp)
    rw [ops_of_linkTrees? _ _ _ all] at listed
    rw [root, ands op listed]
  · rw [conjuncts_of_linkTrees? _ _ first _ firstOk all ands,
      conjuncts_of_linkTrees? _ _ first rest firstOk linked (ands_of_splitAt c),
      conjuncts_of_linkTrees? _ _ second others secondOk othersLinked (ands_of_splitAt d)]
    simp

/-! Texts around `&&`. -/

/-- The tree needs no parentheses beside `&&`. -/
def Tree.Tight (t : Tree) : Prop :=
  ∀ op, t.root? = some op → ∀ level ∈ looseLevels, op ∉ level.symbols

theorem parse_eq_some (text : String) (t : Tree) :
    parse text = some t ↔ ∃ tokens trees c, lex text = some tokens ∧ trees? tokens = some trees ∧
      read .start [] (piecesOf trees) = some c ∧ group levels c = some t := by
  simp only [parse, treesOf?, parseTrees, parsePieces, Option.bind_eq_some_iff]
  constructor
  · rintro ⟨trees, ⟨tokens, lexed, matched⟩, c, readOk, grouped⟩
    exact ⟨tokens, trees, c, lexed, matched, readOk, grouped⟩
  · rintro ⟨tokens, trees, c, lexed, matched, readOk, grouped⟩
    exact ⟨trees, ⟨tokens, lexed, matched⟩, c, readOk, grouped⟩

/-- Two tight expressions around `&&` are a chain of `&&` of their conjuncts. -/
theorem parse_around_and (lhs rhs : String) (t u : Tree) (left : parse lhs = some t)
    (right : parse rhs = some u) (leftTight : t.Tight) (rightTight : u.Tight) :
    ∃ w, parse (lhs ++ " " ++ "&&" ++ " " ++ rhs) = some w ∧ w.root? = some "&&" ∧
      w.conjuncts = t.conjuncts ++ u.conjuncts := by
  obtain ⟨tokens, trees, c, lexed, matched, readOk, grouped⟩ := (parse_eq_some lhs t).mp left
  obtain ⟨tokens', trees', d, lexed', matched', readOk', grouped'⟩ :=
    (parse_eq_some rhs u).mp right
  obtain ⟨absent, whole⟩ :=
    group_of_root? looseLevels (andLevel :: tightLevels) c t grouped leftTight
  obtain ⟨absent', whole'⟩ :=
    group_of_root? looseLevels (andLevel :: tightLevels) d u grouped' rightTight
  obtain ⟨w, both, root, conjuncts⟩ := group_append_and c d t u whole whole'
  have lexedBoth := lex_around "&&" lhs rhs tokens tokens' (by decide) lexed lexed'
  have matchedBoth := trees?_operator "&&" tokens tokens' trees trees' matched matched'
  refine ⟨w, (parse_eq_some _ w).mpr ⟨_, _, c.append "&&" d, lexedBoth, matchedBoth, ?_, ?_⟩, root,
    conjuncts⟩
  · have noRange : ∀ o ∈ c.ops, o ∉ rangeSymbols :=
      absent ⟨rangeSymbols, .range⟩ (by simp [looseLevels])
    rw [piecesOf_append, piecesOf]
    exact read_operator .start [] _ _ c d "&&" (by decide) (by decide) (by decide) readOk noRange
      readOk'
  · rw [levels, group_append_of_none looseLevels (andLevel :: tightLevels)]
    · exact both
    · intro level listed op isOp
      rw [Chain.ops_append] at isOp
      rcases List.mem_append.mp isOp with inLeft | isBehind
      · exact absent level listed op inLeft
      · rcases List.mem_cons.mp isBehind with rfl | inRight
        · revert level
          decide
        · exact absent' level listed op inRight

/-- Token trees in parentheses: the expression that they are, if they are one. -/
def parenthesised (trees : List TokenTree) : Tree :=
  match parseTrees trees with
  | some t => .paren t
  | none => .operand [.group .paren trees]

/-- Whatever a text with matching brackets is, in parentheses it is an operand. -/
theorem parse_parens (text : String) (trees : List TokenTree)
    (matched : treesOf? text = some trees) :
    parse ("(" ++ text ++ ")") = some (parenthesised trees) := by
  obtain ⟨tokens, lexed, nested⟩ := Option.bind_eq_some_iff.mp matched
  refine (parse_eq_some _ _).mpr ⟨_, _, ⟨piecesOf [.group .paren trees], []⟩,
    lex_parens text tokens lexed, trees?_parens tokens trees nested, rfl, ?_⟩
  rw [group_operand, piecesOf, piecesOf, inner, if_pos rfl, parenthesised, parseTrees]
  cases parsePieces (piecesOf trees) <;> rfl

end RustLint.Precedence
