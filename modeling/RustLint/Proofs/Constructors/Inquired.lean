import RustLint.Proofs.Constructors.Questions

set_option autoImplicit false

namespace RustLint.NewWithoutDefault

open Inquiry (Asks)

def fn? : Item → Option FnItem
  | .fn f => some f
  | _ => none

/-- The methods of the `impl`s that implement no trait, in document order. -/
def inherentMethods (crate : Crate) : List (ImplBlock × FnItem) :=
  (Node.crate crate).items.flatMap fun item =>
    match item with
    | .impl impl =>
      if impl.trait.isSome then []
      else (impl.items.filterMap fn?).map fun method => (impl, method)
    | _ => []

/-- What is asked about a method and what comes of it; about one from a macro nothing is asked. -/
def inquiryOf (oracle : TypeOracle) (defaultTrait : String) (subject : Subject)
    (entry : ImplBlock × FnItem) : Inquiry Outcome :=
  if entry.2.span.inMacro then pure .quiet
  else judge oracle defaultTrait subject entry.1 (.ofMethod entry.2 entry.1)

/-- The finding in an inquiry that comes to one. -/
def findingOf (inquiry : Inquiry Outcome) : Option Finding :=
  match inquiry.result with
  | .ok outcome => outcome.finding?
  | .error _ => none

/-- All that is asked about the candidates of a crate, one after the other. -/
def askedInAll (oracle : TypeOracle) (defaultTrait : String) (subject : Subject) : List Query :=
  (candidates subject.crate).flatMap fun entry =>
    (judge oracle defaultTrait subject entry.1 entry.2).asked

theorem methodsOf_eq (impl : ImplBlock) :
    methodsOf impl = (impl.items.filterMap fn?).filter fun method => !method.span.inMacro := by
  rw [methodsOf, List.filter_filterMap]
  congr 1
  funext item
  cases item with
  | fn method => cases produced : method.span.inMacro <;> simp [fn?, Option.filter, produced]
  | _ => rfl

theorem candidates_eq (crate : Crate) :
    candidates crate = ((inherentMethods crate).filter fun entry => !entry.2.span.inMacro).map
      fun entry => (entry.1, .ofMethod entry.2 entry.1) := by
  rw [candidates, inherentMethods, List.filter_flatMap, List.map_flatMap]
  congr 1
  funext item
  cases item with
  | impl impl =>
    dsimp only
    split
    · rfl
    · rw [methodsOf_eq, List.filter_map, List.map_map]
      rfl
  | _ => rfl

variable (oracle : TypeOracle) (defaultTrait : String) (subject : Subject)

theorem finding?_outcome (impl : ImplBlock) (c : Candidate) :
    (outcome oracle defaultTrait subject impl c).finding? =
      findingOf (judge oracle defaultTrait subject impl c) := by
  rw [outcome, findingOf]
  cases (judge oracle defaultTrait subject impl c).result <;> rfl

theorem value_check : (check oracle defaultTrait subject).value =
    (inherentMethods subject.crate).filterMap fun entry =>
      findingOf (inquiryOf oracle defaultTrait subject entry) := by
  rw [check, Logged.value_bind, Logged.value_each, Logged.value_pure, candidates_eq, List.map_map,
    List.filterMap_map, List.filterMap_filter]
  congr 1
  funext entry
  have reported : (visit oracle defaultTrait subject (entry.1, .ofMethod entry.2 entry.1)).value =
      outcome oracle defaultTrait subject entry.1 (.ofMethod entry.2 entry.1) := rfl
  simp only [Function.comp_apply, reported, finding?_outcome, inquiryOf]
  cases entry.2.span.inMacro <;> rfl

theorem askedInAll_eq : askedInAll oracle defaultTrait subject =
    (inherentMethods subject.crate).flatMap fun entry =>
      (inquiryOf oracle defaultTrait subject entry).asked := by
  rw [askedInAll, candidates_eq, List.flatMap_map]
  generalize inherentMethods subject.crate = entries
  induction entries with
  | nil => rfl
  | cons entry entries ih =>
    rw [List.filter_cons, List.flatMap_cons, ← ih, inquiryOf]
    cases entry.2.span.inMacro <;> simp

theorem asks_inquiryOf (entry : ImplBlock × FnItem) :
    Asks fun oracle => inquiryOf oracle defaultTrait subject entry :=
  .choose _ (.nothing Outcome.quiet) (asks_judge defaultTrait subject _ _)

theorem exists_returned? (c : Candidate) (considered : c.skipReason? = none) :
    ∃ ret, c.returned? = some ret := by
  cases returns : c.ret with
  | some ret => exact ⟨_, by rw [Candidate.returned?, returns, Option.map_some]⟩
  | none =>
    -- Every branch gives a reason, the last one because nothing is returned.
    rw [Candidate.skipReason?, returns] at considered
    repeat' split at considered
    all_goals cases considered
    all_goals contradiction

theorem asked_inquiryOf_of_passedOver (entry : ImplBlock × FnItem)
    (passedOver : entry.2.span.inMacro = true ∨
      (Candidate.ofMethod entry.2 entry.1).skipReason?.isSome = true) :
    (inquiryOf oracle defaultTrait subject entry).asked = [] := by
  rw [inquiryOf]
  split
  · rfl
  · next noMacro =>
    obtain ⟨reason, skipped⟩ := Option.isSome_iff_exists.mp (passedOver.resolve_left noMacro)
    rw [judge, skipped]
    rfl

/-- What is asked about a method are the questions about a constructor. -/
theorem asked_inquiryOf (entry : ImplBlock × FnItem) (noMacro : ¬entry.2.span.inMacro = true)
    (considered : (Candidate.ofMethod entry.2 entry.1).skipReason? = none) :
    ∃ ret, (Candidate.ofMethod entry.2 entry.1).returned? = some ret ∧
      (inquiryOf oracle defaultTrait subject entry).asked = Question.asked oracle
        (questions oracle defaultTrait subject (.ofMethod entry.2 entry.1) ret) := by
  obtain ⟨ret, returns⟩ := exists_returned? _ considered
  refine ⟨ret, returns, ?_⟩
  rw [inquiryOf, if_neg noMacro, judge, considered]
  exact asked_inquire oracle defaultTrait subject entry.1 _ ret returns

theorem asked_inquiryOf_of_mem (entry : ImplBlock × FnItem) (q : Query)
    (isAsked : q ∈ (inquiryOf oracle defaultTrait subject entry).asked) :
    ∃ ret, (Candidate.ofMethod entry.2 entry.1).returned? = some ret ∧
      (inquiryOf oracle defaultTrait subject entry).asked = Question.asked oracle
        (questions oracle defaultTrait subject (.ofMethod entry.2 entry.1) ret) := by
  by_cases passedOver : entry.2.span.inMacro = true ∨
      (Candidate.ofMethod entry.2 entry.1).skipReason?.isSome = true
  · rw [asked_inquiryOf_of_passedOver oracle defaultTrait subject entry passedOver] at isAsked
    cases isAsked
  · obtain ⟨noMacro, considered⟩ := not_or.mp passedOver
    exact asked_inquiryOf oracle defaultTrait subject entry noMacro
      (Option.not_isSome_iff_eq_none.mp considered)

theorem findingOf_eq_none (entry : ImplBlock × FnItem) (q : Query) (e : QueryFailure)
    (isAsked : q ∈ (inquiryOf oracle defaultTrait subject entry).asked)
    (failed : oracle q = .error e) :
    findingOf (inquiryOf oracle defaultTrait subject entry) = none := by
  rw [findingOf]
  split
  · next outcome finished =>
    obtain ⟨answer, answered⟩ :=
      (asks_inquiryOf defaultTrait subject entry).answered oracle outcome finished q isAsked
    cases failed.symm.trans answered
  · rfl

/-- How a method is inquired about. -/
structure Inquired (entry : ImplBlock × FnItem) : Prop where
  /-- All that is read of an oracle are the answers to the questions about this method. -/
  determined : ∀ other : TypeOracle,
    (∀ q ∈ (inquiryOf oracle defaultTrait subject entry).asked, other q = oracle q) →
    inquiryOf other defaultTrait subject entry = inquiryOf oracle defaultTrait subject entry
  /-- Without one of the answers there is no finding. -/
  unanswered : ∀ q ∈ (inquiryOf oracle defaultTrait subject entry).asked, ∀ e,
    oracle q = .error e → findingOf (inquiryOf oracle defaultTrait subject entry) = none
  /-- Nothing is asked about a method from a macro, or about one that is no constructor. -/
  silent : entry.2.span.inMacro = true ∨
      (Candidate.ofMethod entry.2 entry.1).skipReason?.isSome = true →
    (inquiryOf oracle defaultTrait subject entry).asked = []
  /-- About any other, the questions are asked in their order, up to the first that settles the
  matter or is not answered. -/
  inOrder : ¬entry.2.span.inMacro = true →
    (Candidate.ofMethod entry.2 entry.1).skipReason? = none →
    ∃ ret, (Candidate.ofMethod entry.2 entry.1).returned? = some ret ∧
      (inquiryOf oracle defaultTrait subject entry).asked = Question.asked oracle
        (questions oracle defaultTrait subject (.ofMethod entry.2 entry.1) ret)
  /-- A trait is asked about only once the type is settled. -/
  settled : ∀ front q behind,
    (inquiryOf oracle defaultTrait subject entry).asked = front ++ q :: behind →
    q.isAboutTrait = true → TypeSettled oracle (.ofMethod entry.2 entry.1) front
  /-- The fields are asked about in their order, up to the first that does not implement the
  trait. -/
  fields : ∀ front ty behind tys,
    (inquiryOf oracle defaultTrait subject entry).asked = front ++ .fields ty :: behind →
    oracle (.fields ty) = .ok (some tys) → FieldsInOrder oracle defaultTrait tys behind

/-- The run comes to an end whatever the oracle leaves unanswered. Each method of an `impl` without
a trait has an inquiry of its own and at most one finding, which comes out of it. -/
theorem check_inquires_each :
    (check oracle defaultTrait subject).value =
        (inherentMethods subject.crate).filterMap
          (fun entry => findingOf (inquiryOf oracle defaultTrait subject entry)) ∧
      askedInAll oracle defaultTrait subject =
        (inherentMethods subject.crate).flatMap
          (fun entry => (inquiryOf oracle defaultTrait subject entry).asked) ∧
      ∀ entry ∈ inherentMethods subject.crate, Inquired oracle defaultTrait subject entry := by
  refine ⟨value_check oracle defaultTrait subject, askedInAll_eq oracle defaultTrait subject, ?_⟩
  intro entry _
  refine ⟨?_, ?_, ?_, ?_, ?_, ?_⟩
  · exact (asks_inquiryOf defaultTrait subject entry).determined oracle
  · intro q isAsked e
    exact findingOf_eq_none oracle defaultTrait subject entry q e isAsked
  · exact asked_inquiryOf_of_passedOver oracle defaultTrait subject entry
  · exact asked_inquiryOf oracle defaultTrait subject entry
  · intro front q behind split aboutTrait
    obtain ⟨ret, returns, trace⟩ := asked_inquiryOf_of_mem oracle defaultTrait subject entry q
      (by rw [split]; exact List.mem_append_right _ List.mem_cons_self)
    exact typeSettled_of_asked oracle defaultTrait subject _ ret returns front behind q
      (trace.symm.trans split) aboutTrait
  · intro front ty behind tys split answered
    obtain ⟨ret, -, trace⟩ := asked_inquiryOf_of_mem oracle defaultTrait subject entry _
      (by rw [split]; exact List.mem_append_right _ List.mem_cons_self)
    exact fieldsInOrder_of_asked oracle defaultTrait subject _ ret front behind ty tys answered
      (trace.symm.trans split)

end RustLint.NewWithoutDefault
