import RustLint.Proofs.Precedence.Token

set_option autoImplicit false

namespace RustLint.Precedence

inductive TokenTree where
  | leaf (token : Token)
  | group (d : Delimiter) (inside : List TokenTree)

/-- The trees read so far inside the innermost open bracket, and the open brackets with the trees in
front of each, the innermost first. -/
structure Nesting where
  trees : List TokenTree
  outer : List (Delimiter × List TokenTree) := []

namespace Nesting

/-- One more token. A closing bracket must match the innermost open one. -/
def add (n : Nesting) : Token → Option Nesting
  | .opening d => some ⟨[], (d, n.trees) :: n.outer⟩
  | .closing d =>
    match n.outer with
    | [] => none
    | (d', trees) :: outer =>
      if d = d' then some ⟨trees ++ [.group d n.trees], outer⟩ else none
  | token => some ⟨n.trees ++ [.leaf token], n.outer⟩

/-- The tokens in order. -/
def addAll (n : Nesting) : List Token → Option Nesting
  | [] => some n
  | token :: tokens => (n.add token).bind (addAll · tokens)

theorem addAll_append (n : Nesting) (ts us : List Token) :
    n.addAll (ts ++ us) = (n.addAll ts).bind (addAll · us) := by
  induction ts generalizing n with
  | nil => rfl
  | cons t ts ih =>
    rw [List.cons_append, addAll, addAll, Option.bind_assoc]
    congr 1
    funext m
    exact ih m

/-- The same brackets with further trees in front of everything, inside further brackets. -/
def within (front : List TokenTree) (outside : List (Delimiter × List TokenTree)) (n : Nesting) :
    Nesting :=
  match n.outer.reverse with
  | [] => ⟨front ++ n.trees, outside⟩
  | (d, trees) :: inner => ⟨n.trees, inner.reverse ++ (d, front ++ trees) :: outside⟩

variable (front : List TokenTree) (outside : List (Delimiter × List TokenTree))

theorem within_nil (trees : List TokenTree) :
    within front outside ⟨trees, []⟩ = ⟨front ++ trees, outside⟩ := rfl

theorem within_concat (trees last : List TokenTree) (d : Delimiter)
    (inner : List (Delimiter × List TokenTree)) :
    within front outside ⟨trees, inner ++ [(d, last)]⟩ =
      ⟨trees, inner ++ (d, front ++ last) :: outside⟩ := by
  simp [within]

/-- What stands in front or around changes nothing of what a token does. -/
theorem add_within (n m : Nesting) (token : Token) (added : n.add token = some m) :
    (n.within front outside).add token = some (m.within front outside) := by
  obtain ⟨trees, outer⟩ := n
  rcases List.eq_nil_or_concat outer with rfl | ⟨inner, ⟨d, last⟩, rfl⟩
  · cases token with
    | closing e => cases added
    | opening e =>
      cases added
      rfl
    | word _ | literal _ | lifetime _ | punct _ =>
      cases added
      simp [within_nil, add]
  · rw [List.concat_eq_append] at added ⊢
    rw [within_concat]
    cases token with
    | opening e =>
      cases added
      rw [← List.cons_append, within_concat]
      rfl
    | closing e =>
      cases inner with
      | nil =>
        simp only [List.nil_append, add] at added ⊢
        split at added
        · next same =>
          cases added
          rw [if_pos same, within_nil, List.append_assoc]
        · cases added
      | cons top inner =>
        simp only [List.cons_append, add] at added ⊢
        split at added
        · next same =>
          cases added
          rw [if_pos same, within_concat]
        · cases added
    | word _ | literal _ | lifetime _ | punct _ =>
      cases added
      rw [within_concat]
      rfl

theorem addAll_within (n m : Nesting) (tokens : List Token) (added : n.addAll tokens = some m) :
    (n.within front outside).addAll tokens = some (m.within front outside) := by
  induction tokens generalizing n with
  | nil =>
    cases added
    rfl
  | cons token tokens ih =>
    obtain ⟨next, first, rest⟩ := Option.bind_eq_some_iff.mp added
    rw [addAll, add_within front outside n next token first]
    exact ih next rest

end Nesting

/-- The trees of the tokens, when all brackets match. -/
def trees? (tokens : List Token) : Option (List TokenTree) :=
  match Nesting.addAll ⟨[], []⟩ tokens with
  | some ⟨trees, []⟩ => some trees
  | _ => none

theorem trees?_eq_some (tokens : List Token) (trees : List TokenTree) :
    trees? tokens = some trees ↔ Nesting.addAll ⟨[], []⟩ tokens = some ⟨trees, []⟩ := by
  unfold trees?
  split
  · next inside added => simp [added]
  · next other =>
    constructor
    · intro impossible
      cases impossible
    · intro added
      exact (other trees added).elim

/-- Matched tokens add their trees, wherever they stand. -/
theorem addAll_of_trees? (tokens : List Token) (trees : List TokenTree)
    (matched : trees? tokens = some trees) (n : Nesting) :
    n.addAll tokens = some ⟨n.trees ++ trees, n.outer⟩ := by
  have added := Nesting.addAll_within n.trees n.outer ⟨[], []⟩ ⟨trees, []⟩ tokens
    ((trees?_eq_some tokens trees).mp matched)
  rw [Nesting.within_nil, Nesting.within_nil, List.append_nil] at added
  exact added

theorem trees?_operator (symbol : String) (left right : List Token)
    (before behind : List TokenTree) (leftOk : trees? left = some before)
    (rightOk : trees? right = some behind) :
    trees? (left ++ operatorToken symbol :: right) =
      some (before ++ .leaf (operatorToken symbol) :: behind) := by
  rw [trees?_eq_some, Nesting.addAll_append, addAll_of_trees? left before leftOk]
  have leaf (n : Nesting) : n.add (operatorToken symbol) =
      some ⟨n.trees ++ [.leaf (operatorToken symbol)], n.outer⟩ := by
    unfold operatorToken
    split <;> rfl
  rw [Option.bind_some, Nesting.addAll, leaf, Option.bind_some,
    addAll_of_trees? right behind rightOk]
  simp

theorem trees?_parens (tokens : List Token) (trees : List TokenTree)
    (matched : trees? tokens = some trees) :
    trees? (.opening .paren :: tokens ++ [.closing .paren]) = some [.group .paren trees] := by
  rw [trees?_eq_some, List.cons_append, Nesting.addAll]
  simp only [Nesting.add, Option.bind_some]
  rw [Nesting.addAll_append, addAll_of_trees? tokens trees matched]
  rfl

end RustLint.Precedence
