import RustLint.Proofs.Inquiry
import RustLint.Rules.NewWithoutDefault

set_option autoImplicit false

namespace RustLint

/-- The question is about a trait. -/
def Query.isAboutTrait : Query → Bool
  | .resolveTrait _ | .implements _ _ => true
  | _ => false

namespace NewWithoutDefault

open Inquiry (Asks)

theorem asks_canDerive (ty : Ty) (trait : TraitId) : Asks fun oracle => canDerive oracle ty trait := by
  refine .andThen (.one (.fields ty)) ?_
  intro fields
  cases fields with
  | none => exact .nothing none
  | some fields =>
    refine .andThen (Inquiry.asks_allImplement trait fields) ?_
    intro all
    exact .choose (all = true) (.one (.definitionSpan ty)) (.nothing none)

theorem asks_deriveFinding (subject : Subject) (c : Candidate) (trait : TraitId)
    (definition : Span) : Asks fun oracle => deriveFinding oracle subject c trait definition := by
  unfold deriveFinding
  refine .choose _ ?_ ?_
  · exact .andThen (.nothing (some subject.source)) fun home => .nothing _
  · exact .andThen (.one (.definitionSource c.selfTy)) fun home => .nothing _

theorem asks_inquire (defaultTrait : String) (subject : Subject) (impl : ImplBlock)
    (c : Candidate) : Asks fun oracle => inquire oracle defaultTrait subject impl c := by
  unfold inquire
  cases c.returned? with
  | none => exact .nothing Outcome.quiet
  | some ret =>
    refine .andThen (.one (.sameType c.selfTy ret)) fun same => ?_
    refine .choose _ (.nothing Outcome.quiet) ?_
    refine .andThen (.one (.definitionSpan c.selfTy)) fun span => ?_
    refine .choose _ (.nothing Outcome.quiet) ?_
    refine .andThen (.one (.isExported c.selfTy)) fun exported => ?_
    refine .choose _ (.nothing Outcome.hidden) ?_
    refine .andThen (.one (.resolveTrait defaultTrait)) fun trait? => ?_
    cases trait? with
    | none => exact .nothing Outcome.quiet
    | some trait =>
      refine .andThen (.one (.implements c.selfTy trait)) fun implemented => ?_
      refine .choose _ (.nothing Outcome.quiet) ?_
      refine .andThen (asks_canDerive c.selfTy trait) fun derivable => ?_
      cases derivable with
      | none => exact .nothing (Outcome.flagged (manualFinding subject impl c trait))
      | some definition =>
        refine .andThen (asks_deriveFinding subject c trait definition) fun finding => ?_
        exact .nothing (Outcome.flagged finding)

theorem asks_judge (defaultTrait : String) (subject : Subject) (impl : ImplBlock)
    (c : Candidate) : Asks fun oracle => judge oracle defaultTrait subject impl c := by
  unfold judge
  cases c.skipReason? with
  | some reason => exact .nothing (Outcome.skipped reason)
  | none => exact asks_inquire defaultTrait subject impl c

/-! The questions in their order. -/

/-- A question, and the answers after which the next one is asked. -/
structure Question where
  query : Query
  goesOn : query.Answer → Bool

namespace Question

variable (oracle : TypeOracle)

/-- The question is answered, and the next one is asked. -/
def passes (question : Question) : Bool :=
  match oracle question.query with
  | .ok answer => question.goesOn answer
  | .error _ => false

/-- What is asked of a list of questions: those up to the first that does not pass. -/
def asked : List Question → List Query
  | [] => []
  | question :: rest => question.query :: if question.passes oracle then asked rest else []

/-- Does the type implement the trait? The next question is asked when it does. -/
def implements (trait : TraitId) (ty : Ty) : Question := ⟨.implements ty trait, fun yes => yes⟩

theorem asked_ask_bind {β : Type} (question : Question) (next : question.query.Answer → Inquiry β)
    (rest : List Question)
    (stops : ∀ answer, question.goesOn answer = false → (next answer).asked = [])
    (goesOn : ∀ answer, oracle question.query = .ok answer → question.goesOn answer = true →
      (next answer).asked = asked oracle rest) :
    (Inquiry.ask oracle question.query >>= next).asked = asked oracle (question :: rest) := by
  rw [Inquiry.asked_ask_bind, asked]
  congr 1
  cases answered : oracle question.query with
  | error e => simp only [passes, answered, Bool.false_eq_true, if_false]
  | ok answer =>
    simp only [passes, answered]
    cases passed : question.goesOn answer with
    | true => exact goesOn answer answered passed
    | false => exact stops answer passed

end Question

/-- What is asked about the returned type and the type of the `impl` before any trait is. -/
def typeQuestions (c : Candidate) (ret : Ty) : List Question := [
  ⟨.sameType c.selfTy ret, fun same => same⟩,
  ⟨.definitionSpan c.selfTy, fun definition => definition.isSome⟩,
  ⟨.isExported c.selfTy, fun exported => exported⟩]

/-- The types of the fields, if the oracle tells. -/
def fieldTypes (oracle : TypeOracle) (ty : Ty) : List Ty :=
  match oracle (.fields ty) with
  | .ok (some fields) => fields
  | _ => []

/-- Where the definition stands is asked unless the file at hand defines the struct. -/
def homeQuestions (oracle : TypeOracle) (subject : Subject) (c : Candidate) : List Question :=
  match oracle (.definitionSpan c.selfTy) with
  | .ok (some definition) =>
    if definesStruct subject.crate c.selfTy.name definition then []
    else [⟨.definitionSource c.selfTy, fun _ => false⟩]
  | _ => []

/-- What is asked once the trait is known: whether the type implements it, and if not, what its
fields are, whether each of them implements it, and where the definition is. -/
def traitQuestions (oracle : TypeOracle) (subject : Subject) (c : Candidate) (trait : TraitId) :
    List Question :=
  ⟨.implements c.selfTy trait, fun yes => !yes⟩ ::
  ⟨.fields c.selfTy, fun fields => fields.isSome⟩ ::
  ((fieldTypes oracle c.selfTy).map (.implements trait) ++
    ⟨.definitionSpan c.selfTy, fun definition => definition.isSome⟩ ::
    homeQuestions oracle subject c)

/-- All questions about a constructor that returns the type, in their order. -/
def questions (oracle : TypeOracle) (defaultTrait : String) (subject : Subject) (c : Candidate)
    (ret : Ty) : List Question :=
  typeQuestions c ret ++ ⟨.resolveTrait defaultTrait, fun trait => trait.isSome⟩ ::
    match oracle (.resolveTrait defaultTrait) with
    | .ok (some trait) => traitQuestions oracle subject c trait
    | _ => []

theorem asked_allImplement_bind {β : Type} (oracle : TypeOracle) (trait : TraitId) (tys : List Ty)
    (next : Bool → Inquiry β) (rest : List Question) (stops : (next false).asked = [])
    (goesOn : (next true).asked = Question.asked oracle rest) :
    (Inquiry.allImplement oracle trait tys >>= next).asked =
      Question.asked oracle (tys.map (.implements trait) ++ rest) := by
  induction tys with
  | nil => exact goesOn
  | cons ty tys ih =>
    rw [Inquiry.allImplement, Inquiry.bind_assoc]
    refine Question.asked_ask_bind oracle (.implements trait ty) _ _ ?_ ?_
    · intro answer no
      have no : answer = false := no
      rw [no]
      exact stops
    · intro answer _ yes
      have yes : answer = true := yes
      rw [yes]
      exact ih

theorem asked_deriveFinding_bind {β : Type} (oracle : TypeOracle) (subject : Subject)
    (c : Candidate) (trait : TraitId) (definition : Span) (next : Finding → Inquiry β)
    (found : oracle (.definitionSpan c.selfTy) = .ok (some definition))
    (last : ∀ finding, (next finding).asked = []) :
    (deriveFinding oracle subject c trait definition >>= next).asked =
      Question.asked oracle (homeQuestions oracle subject c) := by
  simp only [deriveFinding, homeQuestions, found]
  by_cases here : definesStruct subject.crate c.selfTy.name definition = true
  · simp only [if_pos here, Inquiry.pure_bind]
    exact last _
  · simp only [if_neg here, Inquiry.bind_assoc, Inquiry.pure_bind]
    refine Question.asked_ask_bind oracle ⟨.definitionSource c.selfTy, fun _ => false⟩ _ [] ?_ ?_
    · exact fun home _ => last _
    · exact fun home _ passed => (Bool.false_ne_true passed).elim

theorem asked_canDerive_bind {β : Type} (oracle : TypeOracle) (subject : Subject) (c : Candidate)
    (trait : TraitId) (next : Option Span → Inquiry β) (stops : (next none).asked = [])
    (goesOn : ∀ definition, oracle (.definitionSpan c.selfTy) = .ok (some definition) →
      (next (some definition)).asked =
        Question.asked oracle (homeQuestions oracle subject c)) :
    (canDerive oracle c.selfTy trait >>= next).asked =
      Question.asked oracle (⟨.fields c.selfTy, fun fields => fields.isSome⟩ ::
        ((fieldTypes oracle c.selfTy).map (.implements trait) ++
          ⟨.definitionSpan c.selfTy, fun definition => definition.isSome⟩ ::
          homeQuestions oracle subject c)) := by
  rw [canDerive, Inquiry.bind_assoc]
  refine Question.asked_ask_bind oracle ⟨.fields c.selfTy, _⟩ _ _ ?_ ?_
  · intro fields unknown
    cases fields with
    | none => exact stops
    | some fields => cases unknown
  · intro fields answered known
    cases fields with
    | none => cases known
    | some fields =>
      have listed : fieldTypes oracle c.selfTy = fields := by
        simp only [fieldTypes, answered]
      rw [listed, Inquiry.bind_assoc]
      refine asked_allImplement_bind oracle trait fields _ _ stops ?_
      refine Question.asked_ask_bind oracle ⟨.definitionSpan c.selfTy, _⟩ _ _ ?_ ?_
      · intro definition unknown
        cases definition with
        | none => exact stops
        | some definition => cases unknown
      · intro definition answered known
        cases definition with
        | none => cases known
        | some definition => exact goesOn definition answered

/-- What is asked about a constructor are its questions, up to the first that does not pass. -/
theorem asked_inquire (oracle : TypeOracle) (defaultTrait : String) (subject : Subject)
    (impl : ImplBlock) (c : Candidate) (ret : Ty) (returns : c.returned? = some ret) :
    (inquire oracle defaultTrait subject impl c).asked =
      Question.asked oracle (questions oracle defaultTrait subject c ret) := by
  simp only [inquire, returns]
  refine Question.asked_ask_bind oracle ⟨.sameType c.selfTy ret, _⟩ _ _ ?_ ?_
  · intro same no
    have no : same = false := no
    rw [no]
    rfl
  intro same _ yes
  have yes : same = true := yes
  rw [yes]
  refine Question.asked_ask_bind oracle ⟨.definitionSpan c.selfTy, _⟩ _ _ ?_ ?_
  · intro definition unknown
    cases definition with
    | none => rfl
    | some definition => cases unknown
  intro definition _ known
  cases definition with
  | none => cases known
  | some definition =>
  refine Question.asked_ask_bind oracle ⟨.isExported c.selfTy, _⟩ _ _ ?_ ?_
  · intro exported no
    have no : exported = false := no
    rw [no]
    rfl
  intro exported _ yes
  have yes : exported = true := yes
  rw [yes]
  refine Question.asked_ask_bind oracle ⟨.resolveTrait defaultTrait, _⟩ _ _ ?_ ?_
  · intro trait? unknown
    cases trait? with
    | none => rfl
    | some trait => cases unknown
  intro trait? answered known
  cases trait? with
  | none => cases known
  | some trait =>
  simp only [answered]
  refine Question.asked_ask_bind oracle ⟨.implements c.selfTy trait, _⟩ _ _ ?_ ?_
  · intro implemented yes
    have yes : implemented = true := by simpa using yes
    rw [yes]
    rfl
  intro implemented _ no
  have no : implemented = false := by simpa using no
  rw [no]
  refine asked_canDerive_bind oracle subject c trait _ rfl ?_
  intro definition found
  exact asked_deriveFinding_bind oracle subject c trait definition _ found fun finding => rfl

/-! What was asked in front of a question, and behind it. -/

theorem Question.of_asked_eq (oracle : TypeOracle) (list : List Question) (front behind : List Query)
    (q : Query) (split : asked oracle list = front ++ q :: behind) :
    ∃ before question after, list = before ++ question :: after ∧ question.query = q ∧
      before.map (·.query) = front ∧ (∀ earlier ∈ before, earlier.passes oracle = true) ∧
      behind = if question.passes oracle then asked oracle after else [] := by
  induction list generalizing front with
  | nil => simp [asked] at split
  | cons first rest ih =>
    rw [asked] at split
    cases front with
    | nil =>
      obtain ⟨same, others⟩ := List.cons.inj split
      exact ⟨[], first, rest, rfl, same, rfl, List.forall_mem_nil _, others.symm⟩
    | cons top front =>
      obtain ⟨same, others⟩ := List.cons.inj split
      by_cases passed : first.passes oracle = true
      · rw [if_pos passed] at others
        obtain ⟨before, question, after, parts, isQ, isFront, all, isBehind⟩ := ih front others
        refine ⟨first :: before, question, after, ?_, isQ, ?_, ?_, isBehind⟩
        · rw [parts, List.cons_append]
        · rw [List.map_cons, isFront, same]
        · exact List.forall_mem_cons.mpr ⟨passed, all⟩
      · rw [if_neg passed] at others
        simp at others

/-- The list up to the first element that has the property, with it. -/
def upToFirst {α : Type} (p : α → Bool) : List α → List α
  | [] => []
  | a :: as => if p a then [a] else a :: upToFirst p as

/-- The oracle says that the type implements the trait. -/
def affirms (oracle : TypeOracle) (trait : TraitId) (ty : Ty) : Bool :=
  match oracle (.implements ty trait) with
  | .ok yes => yes
  | .error _ => false

theorem affirms_iff (oracle : TypeOracle) (trait : TraitId) (ty : Ty) :
    affirms oracle trait ty = true ↔ oracle (.implements ty trait) = .ok true := by
  rw [affirms]
  cases oracle (.implements ty trait) with
  | error e => simp
  | ok yes => simp

theorem passes_implements (oracle : TypeOracle) (trait : TraitId) (ty : Ty) :
    (Question.implements trait ty).passes oracle = affirms oracle trait ty := by
  simp only [Question.implements, Question.passes, affirms]
  cases oracle (.implements ty trait) <;> rfl

/-- Nothing is asked that is not on the list. -/
theorem Question.of_mem_asked (oracle : TypeOracle) (list : List Question) (q : Query)
    (isAsked : q ∈ asked oracle list) : ∃ question ∈ list, question.query = q := by
  obtain ⟨front, behind, split⟩ := List.append_of_mem isAsked
  obtain ⟨before, question, after, parts, isQ, -⟩ := of_asked_eq oracle list front behind q split
  refine ⟨question, ?_, isQ⟩
  rw [parts]
  exact List.mem_append_right _ List.mem_cons_self

theorem Question.passes_iff (oracle : TypeOracle) (question : Question) :
    question.passes oracle = true ↔
      ∃ answer, oracle question.query = .ok answer ∧ question.goesOn answer = true := by
  rw [passes]
  cases oracle question.query with
  | error e => simp
  | ok answer => simp

/-- The fields are asked about one by one, up to the first that does not implement the trait. -/
theorem asked_fields (oracle : TypeOracle) (trait : TraitId) (tys : List Ty) (rest : List Question) :
    Question.asked oracle (tys.map (.implements trait) ++ rest) =
      (upToFirst (!affirms oracle trait ·) tys).map (.implements · trait) ++
        if tys.all (affirms oracle trait) then Question.asked oracle rest else [] := by
  induction tys with
  | nil => rfl
  | cons ty tys ih =>
    rw [List.map_cons, List.cons_append, Question.asked, passes_implements, upToFirst,
      List.all_cons]
    cases affirms oracle trait ty with
    | false => rfl
    | true =>
      rw [if_pos rfl, ih]
      rfl

variable (oracle : TypeOracle) (defaultTrait : String) (subject : Subject)

/-- By what was asked in front, the method returns its own type, which is defined and exported. -/
def TypeSettled (c : Candidate) (front : List Query) : Prop :=
  ∃ ret, c.returned? = some ret ∧
    [.sameType c.selfTy ret, .definitionSpan c.selfTy, .isExported c.selfTy] <+: front ∧
    oracle (.sameType c.selfTy ret) = .ok true ∧
    (∃ definition, oracle (.definitionSpan c.selfTy) = .ok (some definition)) ∧
    oracle (.isExported c.selfTy) = .ok true

/-- Behind the question about the fields, each of them is asked about in order, up to the first that
does not implement the trait, and then no trait is asked about any more. -/
def FieldsInOrder (tys : List Ty) (behind : List Query) : Prop :=
  ∃ trait rest, oracle (.resolveTrait defaultTrait) = .ok (some trait) ∧
    behind = (upToFirst (!affirms oracle trait ·) tys).map (.implements · trait) ++ rest ∧
    (rest ≠ [] → ∀ ty ∈ tys, oracle (.implements ty trait) = .ok true) ∧
    ∀ q ∈ rest, q.isAboutTrait = false

/-- What stands in the second of two lists has all of the first in front of it. -/
theorem front_of_append {α : Type} {first rest before after : List α} {a : α}
    (split : first ++ rest = before ++ a :: after) (later : a ∉ first) :
    ∃ more, before = first ++ more ∧ rest = more ++ a :: after := by
  rcases List.append_eq_append_iff.mp split with ⟨more, isBefore, isRest⟩ | ⟨more, isFirst, isRest⟩
  · exact ⟨more, isBefore, isRest⟩
  · cases more with
    | nil => exact ⟨[], by simpa using isFirst.symm, isRest.symm⟩
    | cons b more =>
      obtain ⟨rfl, -⟩ := List.cons.inj isRest
      rw [isFirst] at later
      exact absurd (List.mem_append_right _ List.mem_cons_self) later

theorem typeSettled_of_asked (c : Candidate) (ret : Ty) (returns : c.returned? = some ret)
    (front behind : List Query) (q : Query)
    (split : Question.asked oracle (questions oracle defaultTrait subject c ret) =
      front ++ q :: behind)
    (aboutTrait : q.isAboutTrait = true) : TypeSettled oracle c front := by
  obtain ⟨before, question, after, parts, rfl, rfl, passed, -⟩ :=
    Question.of_asked_eq oracle _ front behind q split
  have later : question ∉ typeQuestions c ret := by
    intro early
    simp only [typeQuestions, List.mem_cons, List.not_mem_nil, or_false] at early
    rcases early with rfl | rfl | rfl <;> cases aboutTrait
  obtain ⟨more, rfl, -⟩ := front_of_append parts later
  have passed (early : Question) (listed : early ∈ typeQuestions c ret) :
      ∃ answer, oracle early.query = .ok answer ∧ early.goesOn answer = true :=
    (Question.passes_iff oracle early).mp (passed early (List.mem_append_left _ listed))
  obtain ⟨yes, isSame, rfl⟩ := passed ⟨.sameType c.selfTy ret, fun same => same⟩
    (by simp [typeQuestions])
  obtain ⟨definition, isDefined, some⟩ := passed
    ⟨.definitionSpan c.selfTy, fun definition => definition.isSome⟩ (by simp [typeQuestions])
  obtain ⟨yes, isExported, rfl⟩ := passed ⟨.isExported c.selfTy, fun exported => exported⟩
    (by simp [typeQuestions])
  obtain ⟨span, rfl⟩ := Option.isSome_iff_exists.mp some
  refine ⟨ret, returns, ?_, isSame, ⟨span, isDefined⟩, isExported⟩
  rw [List.map_append]
  exact List.prefix_append _ _

/-- Behind the questions about the fields only the definition is asked about. -/
theorem query_of_mem_homeQuestions (c : Candidate) (question : Question)
    (listed : question ∈ ⟨.definitionSpan c.selfTy, fun definition => definition.isSome⟩ ::
      homeQuestions oracle subject c) :
    question.query = .definitionSpan c.selfTy ∨ question.query = .definitionSource c.selfTy := by
  rcases List.mem_cons.mp listed with rfl | home
  · exact .inl rfl
  · unfold homeQuestions at home
    split at home
    · split at home
      · cases home
      · rw [List.mem_singleton.mp home]
        exact .inr rfl
    · cases home

theorem fieldsInOrder_of_asked (c : Candidate) (ret : Ty) (front behind : List Query) (ty : Ty)
    (tys : List Ty) (answered : oracle (.fields ty) = .ok (some tys))
    (split : Question.asked oracle (questions oracle defaultTrait subject c ret) =
      front ++ .fields ty :: behind) : FieldsInOrder oracle defaultTrait tys behind := by
  obtain ⟨before, question, after, parts, isFields, -, -, isBehind⟩ :=
    Question.of_asked_eq oracle _ front behind _ split
  have opening : question ∉ typeQuestions c ret ++
      [⟨.resolveTrait defaultTrait, fun trait => trait.isSome⟩] := by
    intro early
    simp only [typeQuestions, List.mem_append, List.mem_cons, List.not_mem_nil, or_false] at early
    rcases early with (rfl | rfl | rfl) | rfl <;> cases isFields
  rw [questions, List.append_cons] at parts
  obtain ⟨more, -, parts⟩ := front_of_append parts opening
  split at parts
  · next trait resolved =>
    have noTrait : question ∉ [(⟨.implements c.selfTy trait, fun yes => !yes⟩ : Question)] := by
      intro early
      rw [List.mem_singleton.mp early] at isFields
      cases isFields
    have split : [_] ++ _ = more ++ question :: _ := parts
    obtain ⟨more, -, parts⟩ := front_of_append split noTrait
    cases more with
    | cons first more =>
      -- No other question is about the fields.
      have listed : question ∈ (fieldTypes oracle c.selfTy).map (.implements trait) ++
          ⟨.definitionSpan c.selfTy, fun definition => definition.isSome⟩ ::
          homeQuestions oracle subject c := by
        rw [(List.cons.inj parts).2]
        exact List.mem_append_right _ List.mem_cons_self
      rcases List.mem_append.mp listed with field | home
      · obtain ⟨ty, -, rfl⟩ := List.mem_map.mp field
        cases isFields
      · rcases query_of_mem_homeQuestions oracle subject c question home with other | other <;>
          cases other.symm.trans isFields
    | nil =>
      obtain ⟨rfl, rfl⟩ := List.cons.inj parts
      obtain rfl : c.selfTy = ty := Query.fields.inj isFields
      have listed : fieldTypes oracle c.selfTy = tys := by
        simp only [fieldTypes, answered]
      rw [listed] at isBehind
      have passed : Question.passes oracle ⟨.fields c.selfTy, fun fields => fields.isSome⟩ =
          true := (Question.passes_iff oracle _).mpr ⟨some tys, answered, rfl⟩
      rw [if_pos passed, asked_fields] at isBehind
      refine ⟨trait, _, resolved, isBehind, ?_, ?_⟩
      · intro goesOn ty isField
        have all : tys.all (affirms oracle trait) = true :=
          Decidable.of_not_not fun notAll => goesOn (if_neg notAll)
        exact (affirms_iff oracle trait ty).mp (List.all_eq_true.mp all ty isField)
      · intro q isAsked
        split at isAsked
        · obtain ⟨later, listed, rfl⟩ := Question.of_mem_asked oracle _ q isAsked
          rcases query_of_mem_homeQuestions oracle subject c later listed with same | same <;>
            rw [same] <;> rfl
        · cases isAsked
  · simp at parts

end NewWithoutDefault
end RustLint
