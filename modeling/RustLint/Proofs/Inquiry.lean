import RustLint.TypeOracle

set_option autoImplicit false

namespace RustLint

namespace Inquiry

variable {α β : Type}

theorem asked_ask_bind (oracle : TypeOracle) (q : Query) (next : q.Answer → Inquiry β) :
    (ask oracle q >>= next).asked = q :: match oracle q with
      | .ok answer => (next answer).asked
      | .error _ => [] := by
  cases answered : oracle q with
  | ok answer =>
    rw [bind_of_ok (show (ask oracle q).result = .ok answer from answered)]
    rfl
  | error e =>
    rw [bind_of_error (show (ask oracle q).result = .error e from answered)]
    rfl

theorem pure_bind (a : α) (next : α → Inquiry β) : (pure a >>= next) = next a := rfl

theorem bind_assoc {γ : Type} (x : Inquiry α) (next : α → Inquiry β) (last : β → Inquiry γ) :
    x >>= next >>= last = x >>= fun a => next a >>= last := by
  cases first : x.result with
  | error e =>
    rw [bind_of_error first, bind_of_error first]
    rfl
  | ok a =>
    rw [bind_of_ok first, bind_of_ok first]
    cases second : (next a).result with
    | error e =>
      rw [bind_of_error second, bind_of_error rfl]
    | ok b =>
      rw [bind_of_ok second, bind_of_ok rfl, List.append_assoc]

/-- All that the inquiry reads of an oracle are the answers to its own questions, and it comes to a
result only when all of them are answered. -/
structure Asks (inquiry : TypeOracle → Inquiry α) : Prop where
  determined : ∀ oracle other, (∀ q ∈ (inquiry oracle).asked, other q = oracle q) →
    inquiry other = inquiry oracle
  answered : ∀ oracle a, (inquiry oracle).result = .ok a →
    ∀ q ∈ (inquiry oracle).asked, ∃ answer, oracle q = .ok answer

namespace Asks

theorem nothing (a : α) : Asks fun _ => (pure a : Inquiry α) where
  determined := fun _ _ _ => rfl
  answered := fun _ _ _ => List.forall_mem_nil _

theorem one (q : Query) : Asks fun oracle => ask oracle q where
  determined := by
    intro oracle other same
    rw [ask, ask, same q (List.mem_singleton_self q)]
  answered := by
    intro oracle answer result asked isAsked
    cases List.mem_singleton.mp isAsked
    exact ⟨answer, result⟩

theorem andThen {first : TypeOracle → Inquiry α} {next : TypeOracle → α → Inquiry β}
    (asksFirst : Asks first) (asksNext : ∀ a, Asks fun oracle => next oracle a) :
    Asks fun oracle => first oracle >>= next oracle where
  determined := by
    intro oracle other same
    cases result : (first oracle).result with
    | ok a =>
      rw [bind_of_ok result] at same
      have sameFirst : first other = first oracle :=
        asksFirst.determined oracle other fun q asked => same q (List.mem_append_left _ asked)
      have sameNext : next other a = next oracle a :=
        (asksNext a).determined oracle other fun q asked => same q (List.mem_append_right _ asked)
      rw [bind_of_ok result, bind_of_ok (by rw [sameFirst, result]), sameFirst, sameNext]
    | error e =>
      rw [bind_of_error result] at same
      have sameFirst : first other = first oracle := asksFirst.determined oracle other same
      rw [bind_of_error result, bind_of_error (by rw [sameFirst, result]), sameFirst]
  answered := by
    intro oracle b finished q isAsked
    cases result : (first oracle).result with
    | ok a =>
      rw [bind_of_ok result] at finished isAsked
      rcases List.mem_append.mp isAsked with early | late
      · exact asksFirst.answered oracle a result q early
      · exact (asksNext a).answered oracle b finished q late
    | error e =>
      rw [bind_of_error result] at finished
      cases finished

theorem choose (condition : Prop) [Decidable condition] {first second : TypeOracle → Inquiry α}
    (asksFirst : Asks first) (asksSecond : Asks second) :
    Asks fun oracle => if condition then first oracle else second oracle := by
  by_cases holds : condition
  · simpa only [if_pos holds] using asksFirst
  · simpa only [if_neg holds] using asksSecond

end Asks

theorem asks_allImplement (trait : TraitId) (tys : List Ty) :
    Asks fun oracle => allImplement oracle trait tys := by
  induction tys with
  | nil => exact .nothing true
  | cons ty tys ih =>
    refine .andThen (.one (.implements ty trait)) ?_
    intro implemented
    exact .choose (implemented = true) ih (.nothing false)

end Inquiry

end RustLint
