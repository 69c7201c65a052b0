import RustLint.Proofs.Precedence.Operand

set_option autoImplicit false

namespace RustLint.Precedence

/-- The phase behind the last of the pieces. -/
def lastPhase (p : Phase) : List Piece → Option Phase
  | [] => some p
  | piece :: pieces =>
    match next p piece.token with
    | .more p' => lastPhase p' pieces
    | .operator op => lastPhase (behindOperator op) pieces
    | .stuck => none

/-- The phase behind the last of the pieces where they are one operand. -/
def operandPhase (p : Phase) : List Piece → Option Phase
  | [] => some p
  | piece :: pieces =>
    match next p piece.token with
    | .more p' => operandPhase p' pieces
    | .operator _ | .stuck => none

/-- The operands in order. -/
def Chain.operands (c : Chain) : List (List Piece) := c.first :: c.rest.map (·.2)

theorem Chain.operands_append (c : Chain) (op : String) (d : Chain) :
    (c.append op d).operands = c.operands ++ d.operands := by
  simp [Chain.operands, Chain.append]

theorem read_nil (p : Phase) (current : List Piece) (c : Chain)
    (whole : read p current [] = some c) :
    c = ⟨current, []⟩ ∧ (p ∈ completePhases ∨ p = .bound ∧ current = []) := by
  rw [read] at whole
  split at whole
  · next complete =>
    cases whole
    exact ⟨rfl, .inl complete⟩
  · split at whole
    · next missing =>
      simp only [Bool.and_eq_true, decide_eq_true_eq, List.isEmpty_iff] at missing
      obtain ⟨bound, rfl⟩ := missing
      cases whole
      exact ⟨rfl, .inr ⟨bound, rfl⟩⟩
    · cases whole

/-- A piece that goes on with an operand or ends it. -/
theorem read_cons (p : Phase) (current : List Piece) (piece : Piece) (pieces : List Piece)
    (c : Chain) (whole : read p current (piece :: pieces) = some c) :
    (∃ p', next p piece.token = .more p' ∧ read p' (current ++ [piece]) pieces = some c) ∨
      ∃ op d, next p piece.token = .operator op ∧ read (behindOperator op) [] pieces = some d ∧
        c = ⟨current, (op, d.first) :: d.rest⟩ := by
  rw [read] at whole
  cases move : next p piece.token with
  | more p' =>
    rw [move] at whole
    exact .inl ⟨p', rfl, whole⟩
  | operator op =>
    rw [move] at whole
    obtain ⟨d, further, rfl⟩ := Option.map_eq_some_iff.mp whole
    exact .inr ⟨op, d, rfl, further, rfl⟩
  | stuck =>
    rw [move] at whole
    cases whole

/-- An operator that ends the last operand of a chain, and a further chain behind it. -/
theorem read_append (p q : Phase) (current pieces behind : List Piece) (c d : Chain) (op : String)
    (piece : Piece) (whole : read p current pieces = some c) (last : lastPhase p pieces = some q)
    (ends : next q piece.token = .operator op)
    (further : read (behindOperator op) [] behind = some d) :
    read p current (pieces ++ piece :: behind) = some (c.append op d) := by
  induction pieces generalizing p current c with
  | nil =>
    obtain ⟨rfl, -⟩ := read_nil p current c whole
    cases last
    simp [read, ends, further, Chain.append]
  | cons first pieces ih =>
    rw [List.cons_append, read]
    rw [lastPhase] at last
    rcases read_cons p current first pieces c whole with
      ⟨p', move, rest⟩ | ⟨o, e, move, rest, rfl⟩
    · rw [move] at last ⊢
      exact ih p' (current ++ [first]) c rest last
    · rw [move] at last ⊢
      simp only [ih (behindOperator o) [] e rest last, Option.map_some]
      rfl

/-- A piece that can stand nowhere behind a chain. -/
theorem read_stuck (p q : Phase) (current pieces behind : List Piece) (c : Chain) (piece : Piece)
    (whole : read p current pieces = some c) (last : lastPhase p pieces = some q)
    (stuck : next q piece.token = .stuck) : read p current (pieces ++ piece :: behind) = none := by
  induction pieces generalizing p current c with
  | nil =>
    cases last
    rw [List.nil_append, read, stuck]
  | cons first pieces ih =>
    rw [List.cons_append, read]
    rw [lastPhase] at last
    rcases read_cons p current first pieces c whole with
      ⟨p', move, rest⟩ | ⟨o, e, move, rest, rfl⟩
    · rw [move] at last ⊢
      exact ih p' (current ++ [first]) c rest last
    · rw [move] at last ⊢
      simp only [ih (behindOperator o) [] e rest last, Option.map_none]

/-- What is read of an operand stays in it. -/
theorem first_of_read (p : Phase) (current pieces : List Piece) (c : Chain)
    (whole : read p current pieces = some c) : ∃ more, c.first = current ++ more := by
  induction pieces generalizing p current c with
  | nil =>
    obtain ⟨rfl, -⟩ := read_nil p current c whole
    exact ⟨[], (List.append_nil current).symm⟩
  | cons piece pieces ih =>
    rcases read_cons p current piece pieces c whole with ⟨p', -, rest⟩ | ⟨o, d, -, -, rfl⟩
    · obtain ⟨more, first⟩ := ih p' (current ++ [piece]) c rest
      exact ⟨piece :: more, by rw [first, List.append_assoc]; rfl⟩
    · exact ⟨[], (List.append_nil current).symm⟩

/-- A piece that does not end the last operand of a chain becomes a part of it. -/
theorem operands_of_more (p q q' : Phase) (current pieces behind : List Piece) (c d : Chain)
    (piece : Piece) (whole : read p current pieces = some c) (last : lastPhase p pieces = some q)
    (goesOn : next q piece.token = .more q')
    (longer : read p current (pieces ++ piece :: behind) = some d) :
    ∃ front operand more others, c.operands = front ++ [operand] ∧
      d.operands = front ++ (operand ++ piece :: more) :: others := by
  induction pieces generalizing p current c d with
  | nil =>
    obtain ⟨rfl, -⟩ := read_nil p current c whole
    cases last
    rw [List.nil_append, read, goesOn] at longer
    obtain ⟨more, first⟩ := first_of_read q' (current ++ [piece]) behind d longer
    refine ⟨[], current, more, d.rest.map (·.2), rfl, ?_⟩
    rw [Chain.operands, first, List.append_assoc]
    rfl
  | cons first pieces ih =>
    rw [lastPhase] at last
    rw [List.cons_append, read] at longer
    rcases read_cons p current first pieces c whole with
      ⟨p', move, rest⟩ | ⟨o, e, move, rest, rfl⟩
    · rw [move] at last longer
      exact ih p' (current ++ [first]) c d rest last longer
    · rw [move] at last longer
      obtain ⟨d', further, rfl⟩ := Option.map_eq_some_iff.mp longer
      obtain ⟨front, operand, more, others, here, there⟩ :=
        ih (behindOperator o) [] e d' rest last further
      refine ⟨current :: front, operand, more, others, ?_, ?_⟩
      · exact congrArg (current :: ·) here
      · exact congrArg (current :: ·) there

/-- A chain ends with its last operand: behind the last operator, or the first operand alone. -/
theorem lastPhase_of_read (p : Phase) (current pieces : List Piece) (c : Chain)
    (whole : read p current pieces = some c) :
    ∃ q, lastPhase p pieces = some q ∧ (q ∈ completePhases ∨ q = .bound) ∧
      (∀ op operand, c.rest.getLast? = some (op, operand) →
        operandPhase (behindOperator op) operand = some q) ∧
      (c.rest = [] → ∃ more, c.first = current ++ more ∧ operandPhase p more = some q) := by
  induction pieces generalizing p current c with
  | nil =>
    obtain ⟨rfl, ends⟩ := read_nil p current c whole
    refine ⟨p, rfl, ends.imp_right And.left, ?_, ?_⟩
    · intro op operand listed
      cases listed
    · intro _
      exact ⟨[], (List.append_nil current).symm, rfl⟩
  | cons piece pieces ih =>
    rcases read_cons p current piece pieces c whole with ⟨p', move, rest⟩ | ⟨o, d, move, rest, rfl⟩
    · obtain ⟨q, last, ends, behind, alone⟩ := ih p' (current ++ [piece]) c rest
      refine ⟨q, ?_, ends, behind, ?_⟩
      · rw [lastPhase, move]
        exact last
      · intro single
        obtain ⟨more, first, phase⟩ := alone single
        refine ⟨piece :: more, ?_, ?_⟩
        · rw [first, List.append_assoc]
          rfl
        · rw [operandPhase, move]
          exact phase
    · obtain ⟨q, last, ends, behind, alone⟩ := ih (behindOperator o) [] d rest
      refine ⟨q, ?_, ends, ?_, ?_⟩
      · rw [lastPhase, move]
        exact last
      · intro op operand listed
        -- The operator just read is the last one only if none is in the rest.
        cases single : d.rest with
        | nil =>
          rw [single] at listed
          obtain ⟨more, first, phase⟩ := alone single
          rw [List.nil_append] at first
          cases listed
          rw [first]
          exact phase
        | cons link links =>
          rw [single, List.getLast?_cons_cons, ← single] at listed
          exact behind op operand listed
      · intro impossible
        cases impossible

/-! The phases of a type, and those in which a bound may be missing. -/

/-- A type is read. -/
def Phase.isType : Phase → Bool
  | .typeStart | .typeName | .typeColons | .typeGenerics _ | .typeDone => true
  | _ => false

def TokenTree.isWord : TokenTree → Bool
  | .leaf (.word _) => true
  | _ => false

theorem exists_word_of_isWord (t : TokenTree) (isWord : t.isWord = true) :
    ∃ name, t = .leaf (.word name) := by
  unfold TokenTree.isWord at isWord
  split at isWord
  · exact ⟨_, rfl⟩
  · cases isWord

/-- What may stand behind a token tree, in a type or out of one: no bound is missing there, and a
type that may end has ended in a name exactly if it ended in a word. -/
def Phase.Behind (isType isWord : Bool) (p : Phase) : Prop :=
  p.isType = isType ∧ p ≠ .bound ∧ (p = .typeName → isWord = true) ∧ (p = .typeDone → isWord = false)

/-- All that the move leads to may stand behind the token tree. -/
def Move.Leads (isType isWord : Bool) (m : Move) : Prop := ∀ p, m = .more p → p.Behind isType isWord

section Leads

variable {isType isWord : Bool}

@[simp] theorem leads_more (p : Phase) :
    (Move.more p).Leads isType isWord ↔ p.Behind isType isWord :=
  ⟨fun leads => leads p rfl, fun behind _ same => Move.more.inj same ▸ behind⟩

@[simp] theorem leads_operator (op : String) : (Move.operator op).Leads isType isWord :=
  fun _ => nofun

@[simp] theorem leads_stuck : Move.stuck.Leads isType isWord := fun _ => nofun

@[simp] theorem leads_operatorMove (t : TokenTree) : (operatorMove t).Leads isType isWord := by
  unfold operatorMove
  repeat' split
  all_goals simp

@[simp] theorem leads_beginOperand (t : TokenTree) : (beginOperand t).Leads false isWord := by
  unfold beginOperand
  repeat' split
  all_goals simp [Phase.Behind, Phase.isType]

@[simp] theorem leads_afterOperand (t : TokenTree) : (afterOperand t).Leads false isWord := by
  unfold afterOperand
  repeat' split
  all_goals simp [Phase.Behind, Phase.isType]

theorem leads_insideAngles (depth : Nat) (inside : Nat → Phase) (behind : Phase) (t : TokenTree)
    (goesOn : ∀ d, (inside d).Behind isType t.isWord) (ends : behind.Behind isType false) :
    (insideAngles depth inside behind t).Leads isType t.isWord := by
  unfold insideAngles
  repeat' split
  · exact leads_stuck
  · exact (leads_more behind).mpr ends
  · exact (leads_more _).mpr (goesOn _)
  · exact (leads_more _).mpr (goesOn depth)

theorem leads_next (p : Phase) (t : TokenTree) : (next p t).Leads p.isType t.isWord := by
  cases p
  case generics depth =>
    exact leads_insideAngles _ _ _ t (fun _ => ⟨rfl, nofun, nofun, nofun⟩) ⟨rfl, nofun, nofun, nofun⟩
  case typeGenerics depth =>
    exact leads_insideAngles _ _ _ t (fun _ => ⟨rfl, nofun, nofun, nofun⟩)
      ⟨rfl, nofun, nofun, fun _ => rfl⟩
  all_goals
    simp only [next]
    repeat' split
    all_goals simp [Phase.Behind, Phase.isType, TokenTree.isWord]

end Leads

/-- The last token of the operand is a word. -/
def EndsInWord (operand : List Piece) : Prop :=
  ∃ piece, operand.getLast? = some piece ∧ piece.token.isWord = true

theorem operandPhase_concat (p q : Phase) (front : List Piece) (piece : Piece)
    (phase : operandPhase p (front ++ [piece]) = some q) :
    q.Behind p.isType piece.token.isWord := by
  induction front generalizing p with
  | nil =>
    have leads := leads_next p piece.token
    rw [List.nil_append, operandPhase] at phase
    cases move : next p piece.token with
    | more p' =>
      rw [move] at phase leads
      cases phase
      exact (leads_more _).mp leads
    | operator _ | stuck =>
      rw [move] at phase
      cases phase
  | cons first front ih =>
    have leads := leads_next p first.token
    rw [List.cons_append, operandPhase] at phase
    cases move : next p first.token with
    | more p' =>
      rw [move] at phase leads
      have same := ((leads_more _).mp leads).1
      rw [← same]
      exact ih p' phase
    | operator _ | stuck =>
      rw [move] at phase
      cases phase

/-- Behind an operator, which is that of a range then, a bound is missing exactly if there is no
operand, and the operand ends in the name of a type exactly if it is a type with a word at its
end. -/
theorem operandPhase_behindOperator (op : String) (operand : List Piece) (q : Phase)
    (ends : q ∈ completePhases ∨ q = .bound)
    (phase : operandPhase (behindOperator op) operand = some q) :
    (q = .bound → op ∈ rangeSymbols) ∧ (q = .bound ↔ operand = []) ∧
      (q = .typeName ↔ op = "as" ∧ EndsInWord operand) := by
  have isType : (behindOperator op).isType = true ↔ op = "as" := by
    unfold behindOperator
    repeat' split
    all_goals simp_all [Phase.isType]
  rcases List.eq_nil_or_concat operand with rfl | ⟨front, piece, rfl⟩
  · cases phase
    have bound : behindOperator op = .bound := by
      rcases ends with complete | bound
      · revert complete
        unfold behindOperator
        repeat' split
        all_goals decide
      · exact bound
    have isRange : op ∈ rangeSymbols := by
      revert bound
      unfold behindOperator
      repeat' split
      all_goals simp_all
    simp [bound, isRange, EndsInWord]
  · rw [List.concat_eq_append] at phase ⊢
    obtain ⟨type, noBound, isName, isDone⟩ := operandPhase_concat _ q front piece phase
    refine ⟨fun bound => (noBound bound).elim, by simp [noBound], ?_, ?_⟩
    · rintro rfl
      exact ⟨isType.mp type.symm, piece, by simp, isName rfl⟩
    · rintro ⟨cast, last, listed, word⟩
      obtain rfl : piece = last := by simpa using listed
      rw [isType.mpr cast] at type
      rw [word] at isDone
      have typeEnds : ∀ q ∈ completePhases, q.isType = true → q ≠ .typeDone → q = .typeName := by
        decide
      exact typeEnds q (ends.resolve_right noBound) type fun done => Bool.noConfusion (isDone done)

/-- Where the last operand of an expression ends. -/
theorem ends_of_read (pieces : List Piece) (c : Chain) (whole : read .start [] pieces = some c) :
    ∃ q, lastPhase .start pieces = some q ∧ (q ∈ completePhases ∨ q = .bound) ∧
      (q = .bound → ∃ op ∈ c.ops, op ∈ rangeSymbols) ∧
      (q = .bound ↔ ∃ op, c.rest.getLast? = some (op, [])) ∧
      (q = .typeName ↔ ∃ operand, c.rest.getLast? = some ("as", operand) ∧ EndsInWord operand) := by
  obtain ⟨q, last, ends, behind, alone⟩ := lastPhase_of_read .start [] pieces c whole
  refine ⟨q, last, ends, ?_⟩
  cases link : c.rest.getLast? with
  | some link' =>
    obtain ⟨op, operand⟩ := link'
    obtain ⟨isRange, bound, name⟩ :=
      operandPhase_behindOperator op operand q ends (behind op operand link)
    have listed : op ∈ c.ops := List.mem_map_of_mem (List.mem_of_getLast? link)
    refine ⟨fun isBound => ⟨op, listed, isRange isBound⟩, ?_, ?_⟩
    · rw [bound]
      constructor
      · rintro rfl
        exact ⟨op, rfl⟩
      · rintro ⟨_, ⟨⟩⟩
        rfl
    · rw [name]
      constructor
      · rintro ⟨rfl, word⟩
        exact ⟨operand, rfl, word⟩
      · rintro ⟨_, ⟨⟩, word⟩
        exact ⟨rfl, word⟩
  | none =>
    obtain ⟨more, -, phase⟩ := alone (List.getLast?_eq_none_iff.mp link)
    have plain : q ≠ .bound ∧ q ≠ .typeName := by
      rcases List.eq_nil_or_concat more with rfl | ⟨front, piece, rfl⟩
      · cases phase
        exact ⟨nofun, nofun⟩
      · rw [List.concat_eq_append] at phase
        obtain ⟨type, noBound, -⟩ := operandPhase_concat _ q front piece phase
        refine ⟨noBound, ?_⟩
        rintro rfl
        cases type
    simp [plain]

/-- An expression without a range reads the same where it may be missing. -/
theorem read_bound (pieces : List Piece) (c : Chain) (whole : read .start [] pieces = some c)
    (noRange : ∀ o ∈ c.ops, o ∉ rangeSymbols) : read .bound [] pieces = some c := by
  cases pieces with
  | nil => cases whole
  | cons piece pieces =>
    have same : next .start piece.token = next .bound piece.token := by
      simp only [next]
      split
      · next s isPunct =>
        refine if_neg fun isRange => ?_
        have move : next .start piece.token = .operator s := by
          simp only [next, isPunct]
          exact if_pos isRange
        rw [read, move] at whole
        obtain ⟨d, -, rfl⟩ := Option.map_eq_some_iff.mp whole
        exact noRange s List.mem_cons_self (List.contains_iff_mem.mp isRange)
      · rfl
    rw [read, ← same]
    rw [read] at whole
    exact whole

/-- An operator behind the phase ends the operand. -/
theorem next_operator_of_complete (q : Phase) (complete : q ∈ completePhases) (op : String)
    (known : op ∈ binarySymbols) (noName : q = .typeName → op ∉ ["<", "<<"]) :
    next q (.leaf (operatorToken op)) = .operator op := by
  have all : ∀ op ∈ binarySymbols, ∀ q ∈ completePhases, (q = .typeName → op ∉ ["<", "<<"]) →
      next q (.leaf (operatorToken op)) = .operator op := by decide
  exact all op known q complete noName

end RustLint.Precedence
