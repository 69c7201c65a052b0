import RustLint.Proofs.Precedence.Placement

set_option autoImplicit false

namespace RustLint.Precedence

/-- The tree is the operator between the two operands, but for parentheses and, where grouping makes
no difference, for how a run of the operator groups. -/
structure Combines (op : Operator) (t u w : Tree) : Prop where
  regrouped : Regrouped (some op.symbol) w (.around op.symbol t u)
  exact : op.assoc ≠ .both → Regrouped none w (.around op.symbol t u)

/-- Behind the tree the operator is read as a part of it: it opens the arguments of the type that
the tree ends in, or stands where a range still lacks its upper bound. -/
def Tree.Swallows (symbol : String) (t : Tree) : Prop :=
  (symbol ∈ ["<", "<<"] ∧ ∃ tokens name, t.ending = some ("as", some (.operand tokens)) ∧
    tokens.getLast? = some (.leaf (.word name))) ∨
  ∃ op, t.ending = some (op, none)

/-- Without parentheses the left operand swallows the operator, and it gets none. -/
structure Absorbs (op : Operator) (t : Tree) : Prop where
  plain : ∀ r, t.root? = some r → op.needsParen r .left = false
  swallows : t.Swallows op.symbol

/-- The right operand is a run of the operator, gets no parentheses, and begins with an operand that
has an operator of the same level at its root. -/
structure Exposes (op : Operator) (u : Tree) : Prop where
  both : op.assoc = .both
  run : u.root? = some op.symbol
  head : ∃ r, (u.runHead op.symbol).root? = some r ∧ op.levelBeside r = op.level

/-- The fragment is the expression: an operand, or an expression with the recorded operator at its
root. -/
structure Denotes (f : Fragment) (t : Tree) : Prop where
  parsed : parse f.text = some t
  root : t.root? = none ∨ t.root? = f.op

theorem scan_symbol : ∀ op ∈ Operator.table, op.symbol ≠ "as" →
    scan .blank (op.symbol.toList ++ [' ']) = (.blank, [operatorToken op.symbol]) := by decide

theorem mem_binarySymbols : ∀ op ∈ Operator.table, op.symbol ≠ "as" →
    op.symbol ∈ binarySymbols := by decide

/-- Where a bound is missing, no operator can stand that is looser than a range. -/
theorem next_bound : ∀ op ∈ Operator.table, ∀ o ∈ rangeSymbols, levelOf op.symbol < levelOf o →
    next .bound (.leaf (operatorToken op.symbol)) = .stuck := by decide

/-- Behind the name of a type its arguments begin. -/
theorem next_typeName : ∀ symbol ∈ ["<", "<<"],
    ∃ depth, next .typeName (.leaf (operatorToken symbol)) = .more (.typeGenerics depth) := by
  intro symbol angle
  simp only [List.mem_cons, List.not_mem_nil, or_false] at angle
  rcases angle with rfl | rfl
  · exact ⟨1, rfl⟩
  · exact ⟨2, rfl⟩

theorem find?_symbol : ∀ op ∈ Operator.table, Operator.find? op.symbol = some op := by decide

theorem needsParen_run : ∀ op ∈ Operator.table, op.symbol ≠ "as" → op.assoc = .both →
    op.needsParen op.symbol .right = false := by decide

/-! Texts around an operator. -/

/-- Whether an expression swallows an operator shows in its chain. -/
theorem swallows_iff (c : Chain) (t : Tree) (groups : Groups c t) (symbol : String) :
    t.Swallows symbol ↔
      (symbol ∈ ["<", "<<"] ∧ ∃ operand, c.rest.getLast? = some ("as", operand) ∧
        EndsInWord operand) ∨ ∃ op, c.rest.getLast? = some (op, []) := by
  rw [Tree.Swallows, ending_of_groups c t groups]
  simp only [Option.map_eq_some_iff, Prod.mk.injEq, Prod.exists]
  refine or_congr (and_congr_right fun _ => ?_) ?_
  · constructor
    · rintro ⟨tokens, name, ⟨_, operand, listed, rfl, single⟩, word⟩
      refine ⟨operand, listed, ?_⟩
      rw [operandTree?_eq_operand operand tokens single, List.getLast?_map] at word
      obtain ⟨piece, last, isName⟩ := Option.map_eq_some_iff.mp word
      exact ⟨piece, last, by rw [isName]; rfl⟩
    · rintro ⟨operand, listed, word⟩
      have single := operandTree?_of_endsInWord operand word
      obtain ⟨piece, last, isWord⟩ := word
      obtain ⟨name, isName⟩ := exists_word_of_isWord piece.token isWord
      refine ⟨_, name, ⟨"as", operand, listed, rfl, single⟩, ?_⟩
      rw [List.getLast?_map, last, Option.map_some, isName]
  · constructor
    · rintro ⟨_, op, operand, listed, rfl, none⟩
      rw [operandTree?_eq_none_iff] at none
      exact ⟨op, none ▸ listed⟩
    · rintro ⟨op, listed⟩
      exact ⟨op, op, [], listed, rfl, rfl⟩

section Texts

variable {op : Operator} (known : op ∈ Operator.table) (noCast : op.symbol ≠ "as")
  {lhs rhs : String} {t u : Tree} (left : parse lhs = some t) (right : parse rhs = some u)

include known noCast left right

/-- Two expressions around an operator are read as their pieces around it. -/
theorem read_around : ∃ pieces behind c d,
    read .start [] pieces = some c ∧ group levels c = some t ∧
    read .start [] behind = some d ∧ group levels d = some u ∧
    ∀ w, parse (lhs ++ " " ++ op.symbol ++ " " ++ rhs) = some w ↔
      ∃ e, read .start [] (pieces ++ ⟨.leaf (operatorToken op.symbol), none⟩ :: behind) = some e ∧
        group levels e = some w := by
  obtain ⟨tokens, trees, c, lexed, matched, readOk, grouped⟩ := (parse_eq_some lhs t).mp left
  obtain ⟨tokens', trees', d, lexed', matched', readOk', grouped'⟩ :=
    (parse_eq_some rhs u).mp right
  have lexedBoth := lex_around op.symbol lhs rhs tokens tokens' (scan_symbol op known noCast) lexed
    lexed'
  have matchedBoth := trees?_operator op.symbol tokens tokens' trees trees' matched matched'
  refine ⟨piecesOf trees, piecesOf trees', c, d, readOk, grouped, readOk', grouped', ?_⟩
  intro w
  have pieces : piecesOf (trees ++ .leaf (operatorToken op.symbol) :: trees') =
      piecesOf trees ++ ⟨.leaf (operatorToken op.symbol), none⟩ :: piecesOf trees' := by
    rw [piecesOf_append, piecesOf]
    rfl
  rw [parse_eq_some, ← pieces]
  constructor
  · rintro ⟨tokens'', trees'', e, lexed'', matched'', whole, groupedBoth⟩
    cases lexedBoth.symm.trans lexed''
    cases matchedBoth.symm.trans matched''
    exact ⟨e, whole, groupedBoth⟩
  · rintro ⟨e, whole, groupedBoth⟩
    exact ⟨_, _, e, lexedBoth, matchedBoth, whole, groupedBoth⟩

theorem parse_around (plainLeft : Plain op .left t) (plainRight : Plain op .right u)
    (closed : ¬ t.Swallows op.symbol) :
    ∃ w, parse (lhs ++ " " ++ op.symbol ++ " " ++ rhs) = some w ∧ Placed op t u w := by
  obtain ⟨loose, level, tight, here⟩ := exists_atLevel op known
  obtain ⟨pieces, behind, c, d, readOk, grouped, readOk', grouped', texts⟩ :=
    read_around known noCast left right
  obtain ⟨q, last, ends, hasRange, bound, name⟩ := ends_of_read pieces c readOk
  rw [swallows_iff c t (groups_of_group levels c t grouped), ← bound, ← name] at closed
  have complete : q ∈ completePhases := ends.resolve_right fun isBound => closed (.inr isBound)
  have noName : q = .typeName → op.symbol ∉ ["<", "<<"] := fun isName angle =>
    closed (.inl ⟨angle, isName⟩)
  have ended := next_operator_of_complete q complete op.symbol (mem_binarySymbols op known noCast)
    noName
  have further := here.read_behind known noCast grouped' plainRight behind readOk'
  have both := read_append .start q [] pieces behind c d op.symbol
    ⟨.leaf (operatorToken op.symbol), none⟩ readOk last ended further
  obtain ⟨w, groupedBoth, placed⟩ :=
    here.placed_of_levels known noCast grouped grouped' plainLeft plainRight
  exact ⟨w, (texts w).mpr ⟨_, both, groupedBoth⟩, placed⟩

/-- An expression that swallows the operator does not come out whole. -/
theorem leaves_ne_of_swallows (plainLeft : Plain op .left t) (swallows : t.Swallows op.symbol)
    (w : Tree) (parsed : parse (lhs ++ " " ++ op.symbol ++ " " ++ rhs) = some w) :
    w.leaves ≠ t.leaves ++ u.leaves := by
  obtain ⟨pieces, behind, c, d, readOk, grouped, readOk', grouped', texts⟩ :=
    read_around known noCast left right
  obtain ⟨q, last, ends, hasRange, bound, name⟩ := ends_of_read pieces c readOk
  rw [swallows_iff c t (groups_of_group levels c t grouped), ← bound] at swallows
  obtain ⟨e, whole, groupedBoth⟩ := (texts w).mp parsed
  rcases swallows with ⟨angle, operand, listed, word⟩ | isBound
  -- The type goes on with the operator, or the operator can stand nowhere.
  · obtain rfl := name.mpr ⟨operand, listed, word⟩
    obtain ⟨depth, goesOn⟩ := next_typeName op.symbol angle
    obtain ⟨front, operand', more, others, here, there⟩ :=
      operands_of_more .start .typeName (.typeGenerics depth) [] pieces behind c e
        ⟨.leaf (operatorToken op.symbol), none⟩ readOk last goesOn whole
    obtain rfl : operand' = operand := by
      have lastOperand : c.operands.getLast? = some operand := by
        rw [Chain.operands, List.getLast?_cons, List.getLast?_map, listed]
        rfl
      rw [here] at lastOperand
      simpa using lastOperand
    exact leaves_ne_of_longer (groups_of_group levels c t grouped)
      (groups_of_group levels e w groupedBoth) here there word u.leaves
  · obtain ⟨o, listed, isRange⟩ := hasRange isBound
    obtain ⟨loose, level, tight, here⟩ := exists_atLevel op known
    have looser := here.lt_of_range known noCast grouped plainLeft o listed isRange
    have stuck := next_bound op known o isRange looser
    subst isBound
    have noChain := read_stuck .start .bound [] pieces behind c
      ⟨.leaf (operatorToken op.symbol), none⟩ readOk last stuck
    rw [noChain] at whole
    cases whole

end Texts

/-! Fragments around an operator. -/

/-- Parentheses around the operands make no difference. -/
theorem combines_congr (op : Operator) {t t' u u' : Tree} (w : Tree) (left : Regrouped none t t')
    (right : Regrouped none u u') : Combines op t u w ↔ Combines op t' u' w := by
  have around := regrouped_around none op.symbol left right
  constructor
  · intro combines
    exact ⟨combines.regrouped.trans around.of_none, fun one => (combines.exact one).trans around⟩
  · intro combines
    exact ⟨combines.regrouped.trans around.symm.of_none,
      fun one => (combines.exact one).trans around.symm⟩

/-- The operator comes out between its operands unless the right one exposes its first operand. -/
theorem combines_iff_of_placed (op : Operator) (known : op ∈ Operator.table) (t u w : Tree)
    (placed : Placed op t u w) : Combines op t u w ↔ ¬ Exposes op u := by
  cases placed with
  | whole apart =>
    refine iff_of_true ⟨.refl _, fun _ => .refl _⟩ ?_
    intro exposes
    exact apart ⟨exposes.both, exposes.run⟩
  | run first rest isRun both root level head =>
    subst isRun
    have noRange : op.symbol ∉ rangeSymbols := by
      rw [mem_rangeSymbols_iff op known, groupingOf_of_both op known both]
      nofun
    have own : first.root? ≠ some op.symbol := by
      intro isOwn
      refine head op.symbol isOwn ?_
      exact (levelBeside_eq_iff op known op known).mpr rfl
    -- The operators of the level on the right are one run, or another one ends the run too early.
    by_cases run : ∀ o ∈ rest.map (·.1), o = op.symbol
    · have plain := regrouped_joinLeft op.symbol rest run t first
      refine iff_of_true ⟨?_, fun one => (one both).elim⟩ ?_
      · rw [Tree.around, if_neg noRange]
        exact plain
      · rintro ⟨-, -, r, isHead, same⟩
        rw [runHead_joinLeft op.symbol rest run, runHead_of_root?_ne op.symbol first own] at isHead
        exact head r isHead same
    · have regroups := not_regrouped_joinLeft op.symbol t first rest run
      refine iff_of_false ?_ (not_not_intro ⟨both, root, ?_⟩)
      · intro combines
        have same := combines.regrouped
        rw [Tree.around, if_neg noRange] at same
        exact regroups same
      · obtain ⟨front, o, v, behind, rfl, other, isRun⟩ := exists_last_other op.symbol rest run
        refine ⟨o, ?_, level o (by simp)⟩
        rw [joinLeft_append, joinLeft_cons, runHead_joinLeft op.symbol behind isRun,
          Tree.runHead, if_neg other]
        rfl

/-- The operand that a fragment gives is the expression itself, which needs no parentheses then, or
the expression in parentheses. -/
theorem operand_cases (op : Operator) (side : Associativity) (f : Fragment) (t : Tree)
    (denotes : Denotes f t) :
    (parse (f.operand op side) = some t ∧ Plain op side t) ∨
      (parse (f.operand op side) = some (.paren t) ∧
        ∀ r, t.root? = some r → op.needsParen r side = true) := by
  obtain ⟨parsed, root⟩ := denotes
  cases recorded : f.op with
  | none =>
    rw [recorded, or_self] at root
    left
    rw [Fragment.operand, recorded]
    refine ⟨parsed, fun r isRoot => ?_⟩
    rw [root] at isRoot
    cases isRoot
  | some other =>
    have isRecorded (r : String) (isRoot : t.root? = some r) : r = other := by
      rw [recorded, isRoot] at root
      exact Option.some.inj (root.resolve_left (Option.some_ne_none r))
    cases needs : op.needsParen other side with
    | true =>
      right
      obtain ⟨trees, matched, whole⟩ := Option.bind_eq_some_iff.mp parsed
      refine ⟨?_, fun r isRoot => isRecorded r isRoot ▸ needs⟩
      rw [Fragment.operand, recorded]
      simp only [needs, if_true]
      rw [parse_parens f.text trees matched, parenthesised, whole]
    | false =>
      left
      refine ⟨?_, fun r isRoot => isRecorded r isRoot ▸ needs⟩
      rw [Fragment.operand, recorded]
      simp only [needs, Bool.false_eq_true, if_false]
      exact parsed

theorem plain_paren (op : Operator) (side : Associativity) (t : Tree) : Plain op side (.paren t) :=
  fun _ => nofun

theorem not_swallows_paren (symbol : String) (t : Tree) : ¬ (Tree.paren t).Swallows symbol := by
  rintro (⟨-, _, _, ⟨⟩, -⟩ | ⟨_, ⟨⟩⟩)

/-- As a left operand a fragment needs no more parentheses, and swallows the operator only if its
expression absorbs it. -/
theorem parse_left_operand (op : Operator) (f : Fragment) (t : Tree) (denotes : Denotes f t) :
    ∃ t', parse (f.operand op .left) = some t' ∧ Plain op .left t' ∧ Regrouped none t' t ∧
      (t'.Swallows op.symbol ↔ Absorbs op t) := by
  rcases operand_cases op .left f t denotes with ⟨parsed, plain⟩ | ⟨parsed, parens⟩
  · exact ⟨t, parsed, plain, .refl t, fun swallows => ⟨plain, swallows⟩, Absorbs.swallows⟩
  · refine ⟨.paren t, parsed, plain_paren op .left t, .paren t, ?_, ?_⟩
    · exact fun swallows => (not_swallows_paren _ t swallows).elim
    · rintro ⟨plain, swallows⟩
      have ending : t.ending ≠ none := by
        rcases swallows with ⟨-, _, _, ending, -⟩ | ⟨_, ending⟩ <;> simp [ending]
      obtain ⟨r, root⟩ := exists_root?_of_ending t ending
      have contrary := parens r root
      rw [plain r root] at contrary
      cases contrary

/-- As a right operand it exposes its first operand only if its expression does. -/
theorem parse_right_operand (op : Operator) (known : op ∈ Operator.table) (noCast : op.symbol ≠ "as")
    (g : Fragment) (u : Tree) (denotes : Denotes g u) :
    ∃ u', parse (g.operand op .right) = some u' ∧ Plain op .right u' ∧ Regrouped none u' u ∧
      (Exposes op u' ↔ Exposes op u) := by
  rcases operand_cases op .right g u denotes with ⟨parsed, plain⟩ | ⟨parsed, parens⟩
  · exact ⟨u, parsed, plain, .refl u, .rfl⟩
  · refine ⟨.paren u, parsed, plain_paren op .right u, .paren u, ?_, ?_⟩
    · rintro ⟨-, ⟨⟩, -⟩
    · rintro ⟨both, root, -⟩
      have contrary := parens _ root
      rw [needsParen_run op known noCast both] at contrary
      cases contrary

theorem combineSymbol_eq (op : Operator) (known : op ∈ Operator.table) (f g : Fragment) :
    Fragment.combineSymbol op.symbol f g = .ok (.combine op f g) := by
  have found : Operator.ofSymbol op.symbol = .ok op := by
    rw [Operator.ofSymbol, find?_symbol op known]
  by_cases plain : (f.op.isNone && g.op.isNone) = true
  · have noOps := Bool.and_eq_true_iff.mp plain
    rw [Option.isNone_iff_eq_none, Option.isNone_iff_eq_none] at noOps
    rw [Fragment.combineSymbol, if_pos plain, Fragment.combine, Fragment.operand, Fragment.operand,
      noOps.1, noOps.2]
  · rw [Fragment.combineSymbol, if_neg plain, found]
    rfl

/-- Two fragments around an operator are the operator between their expressions, but for how a run
of it groups, exactly unless the left one absorbs the operator or the right one exposes its first
operand. -/
theorem combines_iff (op : Operator) (known : op ∈ Operator.table) (noCast : op.symbol ≠ "as")
    (f g : Fragment) (t u : Tree) (left : Denotes f t) (right : Denotes g u) :
    (∃ h w, Fragment.combineSymbol op.symbol f g = .ok h ∧ h.op = some op.symbol ∧
      parse h.text = some w ∧ Combines op t u w) ↔ ¬ Absorbs op t ∧ ¬ Exposes op u := by
  obtain ⟨t', leftParsed, leftPlain, leftSame, swallows⟩ := parse_left_operand op f t left
  obtain ⟨u', rightParsed, rightPlain, rightSame, exposes⟩ :=
    parse_right_operand op known noCast g u right
  have written := combineSymbol_eq op known f g
  rw [← swallows, ← exposes]
  constructor
  · rintro ⟨h, w, isCombined, -, parsed, combines⟩
    obtain rfl := Except.ok.inj (written.symm.trans isCombined)
    have combines' := (combines_congr op w leftSame rightSame).mpr combines
    have closed : ¬ t'.Swallows op.symbol := by
      intro isSwallowed
      -- Regrouping keeps all tokens in order, which what is swallowed does not.
      apply leaves_ne_of_swallows known noCast leftParsed rightParsed leftPlain isSwallowed w parsed
      have same := combines'.regrouped.invariant Tree.leaves (leaves_of_regroups _)
      rw [same, leaves_around]
    obtain ⟨w', parsed', placed⟩ :=
      parse_around known noCast leftParsed rightParsed leftPlain rightPlain closed
    obtain rfl := Option.some.inj (parsed.symm.trans parsed')
    exact ⟨closed, (combines_iff_of_placed op known t' u' w placed).mp combines'⟩
  · rintro ⟨closed, hidden⟩
    obtain ⟨w, parsed, placed⟩ :=
      parse_around known noCast leftParsed rightParsed leftPlain rightPlain closed
    have combines := (combines_iff_of_placed op known t' u' w placed).mpr hidden
    exact ⟨_, w, written, rfl, parsed, (combines_congr op w leftSame rightSame).mp combines⟩

/-! Products of `a`, `b`, `c` and `d`. -/

def named (name : String) : Tree := .operand [.leaf (.word name)]

/-- A quotient on the left gets parentheses, and a product on the right needs none. -/
theorem quotient_combines :
    Denotes ⟨"a / b", some "/"⟩ (.binary "/" (named "a") (named "b")) ∧
    Denotes ⟨"c * d", some "*"⟩ (.binary "*" (named "c") (named "d")) ∧
    ∃ h w, Fragment.combineSymbol "*" ⟨"a / b", some "/"⟩ ⟨"c * d", some "*"⟩ = .ok h ∧
      h.op = some "*" ∧ parse h.text = some w ∧
      Combines ⟨"*", 13, .both⟩ (.binary "/" (named "a") (named "b"))
        (.binary "*" (named "c") (named "d")) w := by
  have left : Denotes ⟨"a / b", some "/"⟩ (.binary "/" (named "a") (named "b")) := ⟨rfl, .inr rfl⟩
  have right : Denotes ⟨"c * d", some "*"⟩ (.binary "*" (named "c") (named "d")) :=
    ⟨rfl, .inr rfl⟩
  refine ⟨left, right, (combines_iff ⟨"*", 13, .both⟩ (by decide) (by decide) _ _ _ _ left right).mpr
    ⟨?_, ?_⟩⟩
  · rintro ⟨plain, -⟩
    exact absurd (plain "/" rfl) (by decide)
  · rintro ⟨-, -, r, root, -⟩
    cases root

/-- A product that begins with a quotient loses it to the operand in front. -/
theorem not_combines : ¬ ∀ op ∈ Operator.table, op.symbol ≠ "as" → ∀ (f g : Fragment) (t u : Tree),
    Denotes f t → Denotes g u → ∃ h w, Fragment.combineSymbol op.symbol f g = .ok h ∧
      parse h.text = some w ∧ Regrouped (some op.symbol) w (.around op.symbol t u) := by
  intro always
  obtain ⟨h, w, written, parsed, same⟩ := always ⟨"*", 13, .both⟩ (by decide) (by decide)
    ⟨"a", none⟩ ⟨"b / c * d", some "*"⟩ (named "a")
    (.binary "*" (.binary "/" (named "b") (named "c")) (named "d")) ⟨rfl, .inl rfl⟩ ⟨rfl, .inr rfl⟩
  cases written
  have tree : parse "a * b / c * d" = some (.binary "*"
      (.binary "/" (.binary "*" (named "a") (named "b")) (named "c")) (named "d")) := rfl
  obtain rfl := Option.some.inj (parsed.symm.trans tree)
  have lengths := same.invariant (Tree.runLength "*") (runLength_of_regroups "*")
  exact absurd lengths (by decide)

end RustLint.Precedence
