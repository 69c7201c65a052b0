import RustLint.Proofs.Precedence.Grouping
import RustLint.Proofs.Precedence.Reading
import Mathlib.Data.List.Basic
import Mathlib.Logic.Relation

set_option autoImplicit false

namespace RustLint.Precedence

/-! The last operator and the tokens of a tree. -/

namespace Tree

/-- The last operator outside of parentheses, with the operand behind it if there is one. -/
def ending : Tree → Option (String × Option Tree)
  | operand _ | paren _ => none
  | binary op _ rhs => rhs.ending.or (some (op, some rhs))
  | range op _ none => some (op, none)
  | range op _ (some hi) => hi.ending.or (some (op, some hi))

mutual

/-- The tokens of the operands in order, those in parentheses included. -/
def leaves : Tree → List (List TokenTree)
  | operand tokens => [tokens]
  | paren inner => inner.leaves
  | binary _ lhs rhs => lhs.leaves ++ rhs.leaves
  | range _ lo hi => boundLeaves lo ++ boundLeaves hi

def boundLeaves : Option Tree → List (List TokenTree)
  | none => []
  | some t => t.leaves

end

end Tree

/-- The tree groups the operands of the chain. -/
inductive Groups : Chain → Tree → Prop
  | operand (pieces : List Piece) (t : Tree) (single : operandTree? pieces = some t) :
      Groups ⟨pieces, []⟩ t
  | binary (op : String) (c d : Chain) (t u : Tree) (left : Groups c t) (right : Groups d u) :
      Groups (c.append op d) (.binary op t u)
  | range (op : String) (c d : Chain) (lo hi : Option Tree)
      (lower : ∀ t, lo = some t → Groups c t) (noLower : lo = none → c = ⟨[], []⟩)
      (upper : ∀ u, hi = some u → Groups d u) (noUpper : hi = none → d = ⟨[], []⟩) :
      Groups (c.append op d) (.range op lo hi)

namespace Chain

theorem append_assoc (c d e : Chain) (op o : String) :
    (c.append op d).append o e = c.append op (d.append o e) := by
  simp [append]

/-- A chain and the chains behind it, each behind an operator. -/
def joined (c : Chain) (rest : List (String × Chain)) : Chain :=
  rest.foldl (fun c (op, d) => c.append op d) c

theorem joined_append (c d : Chain) (op : String) (rest : List (String × Chain)) :
    (c.append op d).joined rest = c.append op (d.joined rest) := by
  induction rest generalizing d with
  | nil => rfl
  | cons link rest ih =>
    obtain ⟨o, e⟩ := link
    change ((c.append op d).append o e).joined rest = c.append op ((d.append o e).joined rest)
    rw [append_assoc, ih]

theorem joined_splitAt (symbols : List String) (first : List Piece)
    (rest : List (String × List Piece)) :
    (splitAt symbols first rest).1.joined (splitAt symbols first rest).2 = ⟨first, rest⟩ := by
  induction rest generalizing first with
  | nil => rfl
  | cons link rest ih =>
    obtain ⟨op, operand⟩ := link
    have behind : (⟨first, []⟩ : Chain).append op ⟨operand, rest⟩ =
        ⟨first, (op, operand) :: rest⟩ := rfl
    rw [← behind, ← ih operand, ← joined_append, splitAt]
    by_cases known : symbols.contains op = true
    · simp only [if_pos known]
      rfl
    · simp only [if_neg known]
      rfl

end Chain

section Groups

variable {tree : Chain → Option Tree} (grouped : ∀ c t, tree c = some t → Groups c t)

include grouped

theorem groups_joinLeft (rest : List (String × Chain)) (trees : List (String × Tree))
    (linked : linkTrees? tree rest = some trees) (c : Chain) (t : Tree) (first : Groups c t) :
    Groups (c.joined rest) (joinLeft t trees) := by
  induction rest generalizing trees c t with
  | nil =>
    cases linked
    exact first
  | cons link rest ih =>
    obtain ⟨u, others, second, othersOk, rfl⟩ :=
      (linkTrees?_cons tree link.1 link.2 rest trees).mp linked
    exact ih others othersOk _ _ (.binary link.1 c link.2 t u first (grouped link.2 u second))

theorem groups_joinRight (rest : List (String × Chain)) (trees : List (String × Tree))
    (linked : linkTrees? tree rest = some trees) (c : Chain) (t : Tree) (first : Groups c t) :
    Groups (c.joined rest) (joinRight t trees) := by
  induction rest generalizing trees c t with
  | nil =>
    cases linked
    exact first
  | cons link rest ih =>
    obtain ⟨u, others, second, othersOk, rfl⟩ :=
      (linkTrees?_cons tree link.1 link.2 rest trees).mp linked
    have behind := ih others othersOk link.2 u (grouped link.2 u second)
    have all := Groups.binary link.1 c _ t _ first behind
    rw [← Chain.joined_append] at all
    exact all

theorem groups_boundTree? (c : Chain) (bound : Option Tree) (found : boundTree? tree c = some bound) :
    (∀ t, bound = some t → Groups c t) ∧ (bound = none → c = ⟨[], []⟩) := by
  unfold boundTree? at found
  split at found
  · cases found
    exact ⟨nofun, fun _ => rfl⟩
  · obtain ⟨t, ok, rfl⟩ := Option.map_eq_some_iff.mp found
    refine ⟨?_, nofun⟩
    rintro _ ⟨⟩
    exact grouped c t ok

theorem groups_join (grouping : Grouping) (first : Chain) (rest : List (String × Chain)) (t : Tree)
    (joined : grouping.join tree first rest = some t) : Groups (first.joined rest) t := by
  cases grouping with
  | left =>
    obtain ⟨head, trees, headOk, linked, rfl⟩ := (join_eq_some joinLeft tree first rest t).mp joined
    exact groups_joinLeft grouped rest trees linked first head (grouped first head headOk)
  | right =>
    obtain ⟨head, trees, headOk, linked, rfl⟩ := (join_eq_some joinRight tree first rest t).mp joined
    exact groups_joinRight grouped rest trees linked first head (grouped first head headOk)
  | range =>
    match rest with
    | [] => exact grouped first t joined
    | [(op, upper)] =>
      obtain ⟨lo, lower, joined⟩ := Option.bind_eq_some_iff.mp joined
      obtain ⟨hi, higher, joined⟩ := Option.bind_eq_some_iff.mp joined
      split at joined
      · cases joined
      · cases joined
        obtain ⟨lowerOk, noLower⟩ := groups_boundTree? grouped first lo lower
        obtain ⟨upperOk, noUpper⟩ := groups_boundTree? grouped upper hi higher
        exact .range op first upper lo hi lowerOk noLower upperOk noUpper
    | _ :: _ :: _ => cases joined

end Groups

/-- The levels group the operands of a chain. -/
theorem groups_of_group (ls : List Level) (c : Chain) (t : Tree) (grouped : group ls c = some t) :
    Groups c t := by
  induction ls generalizing c t with
  | nil =>
    obtain ⟨first, rest⟩ := c
    cases rest with
    | nil => exact .operand first t grouped
    | cons link rest => cases grouped
  | cons level tighter ih =>
    rw [group_cons] at grouped
    have joined := groups_join ih level.grouping _ _ t grouped
    rwa [Chain.joined_splitAt] at joined

theorem operandTree?_eq_none_iff (pieces : List Piece) :
    operandTree? pieces = none ↔ pieces = [] := by
  unfold operandTree?
  split <;> simp_all

theorem operandTree?_eq_operand (pieces : List Piece) (tokens : List TokenTree)
    (single : operandTree? pieces = some (.operand tokens)) : tokens = pieces.map (·.token) := by
  unfold operandTree? at single
  split at single <;> simp_all

theorem operandTree?_of_endsInWord (pieces : List Piece) (word : EndsInWord pieces) :
    operandTree? pieces = some (.operand (pieces.map (·.token))) := by
  obtain ⟨last, listed, isWord⟩ := word
  unfold operandTree?
  split
  · cases listed
  · cases listed
    cases isWord
  · rfl

theorem operandTree?_of_several (front behind : List Piece) (piece : Piece) (some : front ≠ []) :
    operandTree? (front ++ piece :: behind) =
      Option.some (.operand ((front ++ piece :: behind).map (·.token))) := by
  obtain ⟨first, front, rfl⟩ := List.exists_cons_of_ne_nil some
  unfold operandTree?
  split
  · simp_all
  · simp_all
  · rfl

theorem ending_of_operandTree? (pieces : List Piece) (t : Tree)
    (single : operandTree? pieces = some t) : t.ending = none := by
  unfold operandTree? at single
  split at single <;> cases single <;> rfl

theorem operandTree?_of_groups (c : Chain) (t : Tree) (groups : Groups c t) (single : c.rest = []) :
    operandTree? c.first = some t := by
  cases groups with
  | operand pieces t found => exact found
  | binary op c d => simp [Chain.append] at single
  | range op c d => simp [Chain.append] at single

/-- The last operator of a chain is that of its last part, or else the one in front of it. -/
theorem ending_append (c d : Chain) (op : String) (u : Tree) (groups : Groups d u)
    (ending : u.ending = d.rest.getLast?.map fun link => (link.1, operandTree? link.2)) :
    u.ending.or (some (op, some u)) =
      (c.append op d).rest.getLast?.map fun link => (link.1, operandTree? link.2) := by
  rw [Chain.append, List.getLast?_append_cons, ending]
  cases single : d.rest with
  | nil => simp [operandTree?_of_groups d u groups single]
  | cons link rest =>
    rw [List.getLast?_cons_cons]
    cases listed : (link :: rest).getLast? with
    | none => simp at listed
    | some last => rfl

/-- The last operator of a tree is that of its chain. -/
theorem ending_of_groups (c : Chain) (t : Tree) (groups : Groups c t) :
    t.ending = c.rest.getLast?.map fun link => (link.1, operandTree? link.2) := by
  induction groups with
  | operand pieces t single => exact ending_of_operandTree? pieces t single
  | binary op c d t u left right ihLeft ihRight => exact ending_append c d op u right ihRight
  | range op c d lo hi lower noLower upper noUpper ihLower ihUpper =>
    cases hi with
    | none =>
      obtain rfl := noUpper rfl
      simp [Tree.ending, Chain.append, operandTree?]
    | some u => exact ending_append c d op u (upper u rfl) (ihUpper u rfl)

theorem boundLeaves_of_groups (c : Chain) (bound : Option Tree)
    (leaves : ∀ t, bound = some t →
      t.leaves = c.operands.flatMap fun operand => Tree.boundLeaves (operandTree? operand))
    (missing : bound = none → c = ⟨[], []⟩) :
    Tree.boundLeaves bound =
      c.operands.flatMap fun operand => Tree.boundLeaves (operandTree? operand) := by
  cases bound with
  | none =>
    obtain rfl := missing rfl
    rfl
  | some t => exact leaves t rfl

/-- The tokens of a tree are those of its chain. -/
theorem leaves_of_groups (c : Chain) (t : Tree) (groups : Groups c t) :
    t.leaves = c.operands.flatMap fun operand => Tree.boundLeaves (operandTree? operand) := by
  induction groups with
  | operand pieces t single => simp [Chain.operands, single, Tree.boundLeaves]
  | binary op c d t u left right ihLeft ihRight =>
    rw [Tree.leaves, ihLeft, ihRight, Chain.operands_append, List.flatMap_append]
  | range op c d lo hi lower noLower upper noUpper ihLower ihUpper =>
    rw [Tree.leaves, boundLeaves_of_groups c lo ihLower noLower,
      boundLeaves_of_groups d hi ihUpper noUpper, Chain.operands_append, List.flatMap_append]

theorem exists_root?_of_ending (t : Tree) (ending : t.ending ≠ none) : ∃ r, t.root? = some r := by
  cases t with
  | operand _ | paren _ => exact (ending rfl).elim
  | binary op _ _ | range op _ _ => exact ⟨op, rfl⟩

/-- Where the last operand of a chain, one that ends in a word, goes on in another chain, the tokens
of the trees differ. -/
theorem leaves_ne_of_longer {c e : Chain} {t w : Tree} (short : Groups c t) (long : Groups e w)
    {front others : List (List Piece)} {operand more : List Piece} {piece : Piece}
    (here : c.operands = front ++ [operand])
    (there : e.operands = front ++ (operand ++ piece :: more) :: others)
    (word : EndsInWord operand) (behind : List (List TokenTree)) : w.leaves ≠ t.leaves ++ behind := by
  have nonempty : operand ≠ [] := by
    rintro rfl
    obtain ⟨_, impossible, -⟩ := word
    cases impossible
  rw [leaves_of_groups e w long, leaves_of_groups c t short, here, there]
  simp only [List.flatMap_append, List.flatMap_cons, List.flatMap_nil, List.append_assoc,
    operandTree?_of_several operand more piece nonempty, operandTree?_of_endsInWord operand word,
    Tree.boundLeaves, Tree.leaves]
  -- Behind the same front the first tokens that differ are those of the operand.
  simp

/-! Parentheses and runs of one operator. -/

/-- One tree becomes the other: parentheses go, or two operands of a run of the operator are grouped
with each other first. With no operator, only parentheses go. -/
inductive Regroups (free : Option String) : Tree → Tree → Prop
  | paren (inner : Tree) : Regroups free (.paren inner) inner
  | assoc (op : String) (a b c : Tree) (isFree : free = some op) :
      Regroups free (.binary op (.binary op a b) c) (.binary op a (.binary op b c))
  | inside (t t' : Tree) (step : Regroups free t t') : Regroups free (.paren t) (.paren t')
  | left (op : String) (t t' u : Tree) (step : Regroups free t t') :
      Regroups free (.binary op t u) (.binary op t' u)
  | right (op : String) (t u u' : Tree) (step : Regroups free u u') :
      Regroups free (.binary op t u) (.binary op t u')
  | lower (op : String) (lo lo' : Tree) (hi : Option Tree) (step : Regroups free lo lo') :
      Regroups free (.range op (some lo) hi) (.range op (some lo') hi)
  | upper (op : String) (lo : Option Tree) (hi hi' : Tree) (step : Regroups free hi hi') :
      Regroups free (.range op lo (some hi)) (.range op lo (some hi'))

/-- The trees are one expression, but for parentheses and for how runs of the operator group. -/
def Regrouped (free : Option String) : Tree → Tree → Prop := Relation.EqvGen (Regroups free)

namespace Regrouped

variable {free : Option String}

theorem refl (t : Tree) : Regrouped free t t := Relation.EqvGen.refl t

theorem symm {t u : Tree} (same : Regrouped free t u) : Regrouped free u t :=
  Relation.EqvGen.symm _ _ same

theorem trans {t u v : Tree} (first : Regrouped free t u) (second : Regrouped free u v) :
    Regrouped free t v := Relation.EqvGen.trans _ _ _ first second

/-- What every step keeps the trees have in common. -/
theorem invariant {α : Type} (value : Tree → α)
    (kept : ∀ t t', Regroups free t t' → value t = value t') {t u : Tree}
    (same : Regrouped free t u) : value t = value u := by
  induction same with
  | rel t t' step => exact kept t t' step
  | refl t => rfl
  | symm t u _ ih => exact ih.symm
  | trans t u v _ _ first second => exact first.trans second

/-- Trees that are one expression are so inside of a larger one. -/
theorem congr (around : Tree → Tree)
    (steps : ∀ t t', Regroups free t t' → Regroups free (around t) (around t')) {t u : Tree}
    (same : Regrouped free t u) : Regrouped free (around t) (around u) := by
  induction same with
  | rel t t' step => exact .rel _ _ (steps t t' step)
  | refl t => exact .refl _
  | symm t u _ ih => exact ih.symm
  | trans t u v _ _ first second => exact first.trans second

theorem binary (op : String) {t t' u u' : Tree} (left : Regrouped free t t')
    (right : Regrouped free u u') : Regrouped free (.binary op t u) (.binary op t' u') := by
  have first := left.congr (fun lhs => .binary op lhs u) fun _ _ step => .left op _ _ u step
  have second := right.congr (fun rhs => .binary op t' rhs) fun _ _ step => .right op t' _ _ step
  exact first.trans second

theorem range (op : String) {t t' u u' : Tree} (lower : Regrouped free t t')
    (upper : Regrouped free u u') :
    Regrouped free (.range op (some t) (some u)) (.range op (some t') (some u')) := by
  have first := lower.congr (fun lo => .range op (some lo) (some u)) fun _ _ step =>
    .lower op _ _ (some u) step
  have second := upper.congr (fun hi => .range op (some t') (some hi)) fun _ _ step =>
    .upper op (some t') _ _ step
  exact first.trans second

theorem paren (t : Tree) : Regrouped free (.paren t) t := .rel _ _ (.paren t)

end Regrouped

theorem regroups_of_none {free : Option String} {t t' : Tree} (step : Regroups none t t') :
    Regroups free t t' := by
  induction step with
  | paren inner => exact .paren inner
  | assoc op a b c isFree => cases isFree
  | inside t t' _ ih => exact .inside t t' ih
  | left op t t' u _ ih => exact .left op t t' u ih
  | right op t u u' _ ih => exact .right op t u u' ih
  | lower op lo lo' hi _ ih => exact .lower op lo lo' hi ih
  | upper op lo hi hi' _ ih => exact .upper op lo hi hi' ih

theorem Regrouped.of_none {free : Option String} {t u : Tree} (same : Regrouped none t u) :
    Regrouped free t u := by
  induction same with
  | rel t t' step => exact .rel _ _ (regroups_of_none step)
  | refl t => exact .refl t
  | symm t u _ ih => exact ih.symm
  | trans t u v _ _ first second => exact first.trans second

theorem leaves_of_regroups (free : Option String) (t t' : Tree) (step : Regroups free t t') :
    t.leaves = t'.leaves := by
  induction step with
  | paren inner => rfl
  | assoc op a b c isFree => simp [Tree.leaves]
  | inside t t' step ih => exact ih
  | left op t t' u step ih => simp [Tree.leaves, ih]
  | right op t u u' step ih => simp [Tree.leaves, ih]
  | lower op lo lo' hi step ih => simp [Tree.leaves, Tree.boundLeaves, ih]
  | upper op lo hi hi' step ih => simp [Tree.leaves, Tree.boundLeaves, ih]

/-- The operator between two operands. -/
def Tree.around (symbol : String) (t u : Tree) : Tree :=
  if symbol ∈ rangeSymbols then .range symbol (some t) (some u) else .binary symbol t u

theorem regrouped_around (free : Option String) (symbol : String) {t t' u u' : Tree}
    (left : Regrouped free t t') (right : Regrouped free u u') :
    Regrouped free (.around symbol t u) (.around symbol t' u') := by
  unfold Tree.around
  split
  · exact .range symbol left right
  · exact .binary symbol left right

theorem leaves_around (symbol : String) (t u : Tree) :
    (Tree.around symbol t u).leaves = t.leaves ++ u.leaves := by
  unfold Tree.around
  split <;> rfl

/-- How many operands a run of the operator at the root has, parentheses aside. -/
def Tree.runLength (op : String) : Tree → Nat
  | .operand _ | .range _ _ _ => 1
  | .paren inner => inner.runLength op
  | .binary o lhs rhs => if o = op then lhs.runLength op + rhs.runLength op else 1

theorem Tree.runLength_pos (op : String) : (t : Tree) → 0 < t.runLength op
  | .operand _ | .range _ _ _ => Nat.one_pos
  | .paren inner => inner.runLength_pos op
  | .binary o lhs rhs => by
    unfold Tree.runLength
    split
    · exact Nat.add_pos_left (lhs.runLength_pos op) _
    · exact Nat.one_pos

theorem runLength_of_regroups (op : String) (t t' : Tree) (step : Regroups (some op) t t') :
    t.runLength op = t'.runLength op := by
  induction step with
  | paren inner => rfl
  | assoc o a b c isFree =>
    obtain rfl : op = o := Option.some.inj isFree
    simp [Tree.runLength, Nat.add_assoc]
  | inside t t' step ih => exact ih
  | left o t t' u step ih => simp only [Tree.runLength, ih]
  | right o t u u' step ih => simp only [Tree.runLength, ih]
  | lower o lo lo' hi step ih => rfl
  | upper o lo hi hi' step ih => rfl

/-! Trees around an operator that are put together from the left. -/

/-- The operand that a run of the operator begins with. -/
def Tree.runHead (op : String) : Tree → Tree
  | .binary o lhs rhs => if o = op then lhs.runHead op else .binary o lhs rhs
  | t => t

theorem runHead_of_root?_ne (op : String) (t : Tree) (other : t.root? ≠ some op) :
    t.runHead op = t := by
  cases t with
  | operand _ | paren _ | range _ _ _ => rfl
  | binary o lhs rhs =>
    have noOp : o ≠ op := fun same => other (congrArg some same)
    rw [Tree.runHead, if_neg noOp]

theorem joinLeft_cons (first t : Tree) (op : String) (rest : List (String × Tree)) :
    joinLeft first ((op, t) :: rest) = joinLeft (.binary op first t) rest := rfl

theorem joinLeft_append (first : Tree) (front behind : List (String × Tree)) :
    joinLeft first (front ++ behind) = joinLeft (joinLeft first front) behind :=
  List.foldl_append

theorem regrouped_joinLeft_congr (free : Option String) (rest : List (String × Tree)) (t t' : Tree)
    (same : Regrouped free t t') : Regrouped free (joinLeft t rest) (joinLeft t' rest) := by
  induction rest generalizing t t' with
  | nil => exact same
  | cons link rest ih => exact ih _ _ (same.binary link.1 (.refl link.2))

section Runs

variable (op : String) (rest : List (String × Tree)) (run : ∀ o ∈ rest.map (·.1), o = op)

include run

/-- An operand in front of a run goes into the run. -/
theorem regrouped_joinLeft (t first : Tree) :
    Regrouped (some op) (joinLeft (.binary op t first) rest)
      (.binary op t (joinLeft first rest)) := by
  induction rest generalizing first with
  | nil => exact .refl _
  | cons link rest ih =>
    obtain ⟨o, u⟩ := link
    obtain rfl : o = op := run o List.mem_cons_self
    have step : Regrouped (some o) (.binary o (.binary o t first) u)
        (.binary o t (.binary o first u)) := .rel _ _ (.assoc o t first u rfl)
    have inFront := regrouped_joinLeft_congr (some o) rest _ _ step
    exact inFront.trans (ih (fun e later => run e (List.mem_cons_of_mem _ later)) _)

theorem runHead_joinLeft (first : Tree) : (joinLeft first rest).runHead op = first.runHead op := by
  induction rest generalizing first with
  | nil => rfl
  | cons link rest ih =>
    obtain ⟨o, u⟩ := link
    obtain rfl : o = op := run o List.mem_cons_self
    rw [joinLeft_cons, ih fun e later => run e (List.mem_cons_of_mem _ later)]
    simp [Tree.runHead]

/-- Behind its first operand a run has the same length, whatever that operand is. -/
theorem runLength_joinLeft (first other : Tree) :
    (joinLeft first rest).runLength op + other.runLength op =
      (joinLeft other rest).runLength op + first.runLength op := by
  induction rest generalizing first other with
  | nil => exact Nat.add_comm _ _
  | cons link rest ih =>
    obtain ⟨o, u⟩ := link
    obtain rfl : o = op := run o List.mem_cons_self
    have longer := ih (fun e later => run e (List.mem_cons_of_mem _ later))
      (.binary o first u) (.binary o other u)
    simp only [Tree.runLength, if_true] at longer
    rw [joinLeft_cons, joinLeft_cons]
    omega

end Runs

/-- Operators that are not all the same have a last one that is another, and a run behind it. -/
theorem exists_last_other (op : String) (rest : List (String × Tree))
    (mixed : ¬ ∀ o ∈ rest.map (·.1), o = op) :
    ∃ front o t behind, rest = front ++ (o, t) :: behind ∧ o ≠ op ∧
      ∀ o ∈ behind.map (·.1), o = op := by
  induction rest with
  | nil => exact (mixed nofun).elim
  | cons link rest ih =>
    obtain ⟨o, t⟩ := link
    by_cases run : ∀ o ∈ rest.map (·.1), o = op
    · refine ⟨[], o, t, rest, rfl, ?_, run⟩
      rintro rfl
      apply mixed
      intro e listed
      rcases List.mem_cons.mp listed with rfl | later
      · rfl
      · exact run e later
    · obtain ⟨front, e, u, behind, rfl, other, isRun⟩ := ih run
      exact ⟨(o, t) :: front, e, u, behind, rfl, other, isRun⟩

/-- An operand in front of several operators is in none of the runs behind the first of them. -/
theorem not_regrouped_joinLeft (op : String) (t first : Tree) (rest : List (String × Tree))
    (mixed : ¬ ∀ o ∈ rest.map (·.1), o = op) :
    ¬ Regrouped (some op) (joinLeft (.binary op t first) rest)
      (.binary op t (joinLeft first rest)) := by
  obtain ⟨front, o, u, behind, rfl, other, run⟩ := exists_last_other op rest mixed
  intro same
  have lengths := same.invariant (Tree.runLength op) (runLength_of_regroups op)
  have positive := t.runLength_pos op
  have equal := runLength_joinLeft op behind run
    (.binary o (joinLeft (.binary op t first) front) u) (.binary o (joinLeft first front) u)
  simp only [joinLeft_append, joinLeft_cons, Tree.runLength, if_neg other, if_true]
    at lengths equal
  omega

end RustLint.Precedence
