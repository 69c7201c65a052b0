import RustLint.Proofs.Index.Entries
import RustLint.Rules.NewWithoutDefault

set_option autoImplicit false

namespace RustLint.NewWithoutDefault

/-- The methods that the rule reports in the file, in document order. -/
def flagged (oracle : TypeOracle) (defaultTrait : String) (subject : Subject) : List Candidate :=
  ((candidates subject.crate).filter fun entry =>
    (outcome oracle defaultTrait subject entry.1 entry.2).finding?.isSome).map Prod.snd

/-- The method is a constructor of its own type, which is defined once and exported, and under the
path of the trait there is no entry for the type. -/
def flags (index : CrateIndex) (defaultTrait : String) (c : Candidate) : Bool :=
  c.skipReason?.isNone && (c.returned?.any fun ret => c.selfTy.same ret) &&
    index.isExported c.selfTy &&
    (index.resolveTrait? defaultTrait).any fun trait =>
      !index.impls.contains (trait.path, c.selfTy.name)

variable (index : CrateIndex)

/-! The index answers every question. -/

theorem result_ask_bind {α : Type} (q : Query) (f : q.Answer → Inquiry α) :
    (Inquiry.ask index.oracle q >>= f).result = (f (index.answer q)).result := by
  rw [Inquiry.bind_of_ok (show (Inquiry.ask index.oracle q).result = .ok (index.answer q) from rfl)]

theorem result_allImplement (trait : TraitId) (tys : List Ty) :
    (Inquiry.allImplement index.oracle trait tys).result = .ok (tys.all (index.implements trait)) := by
  induction tys with
  | nil => rfl
  | cons ty tys ih =>
    rw [Inquiry.allImplement, result_ask_bind, CrateIndex.answer, List.all_cons]
    cases index.implements trait ty with
    | true => exact ih
    | false => rfl

/-- A trait can be derived for a struct whose fields all implement it; what is found is the place of
its definition. -/
theorem result_canDerive (ty : Ty) (trait : TraitId) :
    (canDerive index.oracle ty trait).result = .ok ((index.fieldTypes? ty).bind fun fields =>
      if fields.all (index.implements trait) then (index.definitionOf? ty).map (·.span)
      else none) := by
  rw [canDerive, result_ask_bind, CrateIndex.answer]
  cases index.fieldTypes? ty with
  | none => rfl
  | some fields =>
    dsimp only [Option.bind_some]
    rw [Inquiry.bind_of_ok (result_allImplement index trait fields)]
    cases fields.all (index.implements trait) <;> rfl

theorem exists_result_deriveFinding (subject : Subject) (c : Candidate) (trait : TraitId)
    (definition : Span) :
    ∃ finding, (deriveFinding index.oracle subject c trait definition).result = .ok finding ∧
      finding.span = c.span := by
  rw [deriveFinding]
  split
  · exact ⟨_, rfl, rfl⟩
  · exact ⟨_, rfl, rfl⟩

theorem exists_definition_of_isExported (ty : Ty) (exported : index.isExported ty = true) :
    ∃ d, index.definitionOf? ty = some d := by
  rw [CrateIndex.isExported, Option.any_eq_true] at exported
  obtain ⟨d, defined, -⟩ := exported
  exact ⟨d, defined⟩

/-- The questions about a constructor come to an outcome: a finding at its place, or none. -/
theorem exists_result_inquire (defaultTrait : String) (subject : Subject) (impl : ImplBlock)
    (c : Candidate) :
    ∃ o, (inquire index.oracle defaultTrait subject impl c).result = .ok o ∧
      o.finding?.map (·.span) = if (c.returned?.any fun ret => c.selfTy.same ret) &&
        index.isExported c.selfTy &&
        (index.resolveTrait? defaultTrait).any fun trait =>
          !index.impls.contains (trait.path, c.selfTy.name) then some c.span else none := by
  rw [inquire]
  cases c.returned? with
  | none => exact ⟨.quiet, rfl, rfl⟩
  | some ret =>
    dsimp only
    rw [result_ask_bind, CrateIndex.answer, Option.any_some]
    cases c.selfTy.same ret with
    | false => exact ⟨.quiet, rfl, rfl⟩
    | true =>
      rw [if_neg (by decide), result_ask_bind, CrateIndex.answer]
      cases exported : index.isExported c.selfTy with
      | false =>
        split
        · exact ⟨.quiet, rfl, rfl⟩
        · rw [result_ask_bind, CrateIndex.answer, exported]
          exact ⟨.hidden, rfl, rfl⟩
      | true =>
        obtain ⟨d, defined⟩ := exists_definition_of_isExported index c.selfTy exported
        rw [defined, if_neg (by simp), result_ask_bind, CrateIndex.answer, exported,
          if_neg (by decide), result_ask_bind, CrateIndex.answer]
        cases index.resolveTrait? defaultTrait with
        | none => exact ⟨.quiet, rfl, rfl⟩
        | some trait =>
          dsimp only
          rw [result_ask_bind, CrateIndex.answer, Option.any_some,
            CrateIndex.implements_of_definitionOf? index trait c.selfTy d defined]
          cases index.impls.contains (trait.path, c.selfTy.name) with
          | true => exact ⟨.quiet, rfl, rfl⟩
          | false =>
            rw [if_neg (by decide), Inquiry.bind_of_ok (result_canDerive index c.selfTy trait)]
            cases (index.fieldTypes? c.selfTy).bind _ with
            | none => exact ⟨.flagged (manualFinding subject impl c trait), rfl, rfl⟩
            | some definition =>
              obtain ⟨finding, found, span⟩ :=
                exists_result_deriveFinding index subject c trait definition
              dsimp only
              rw [Inquiry.bind_of_ok found]
              exact ⟨.flagged finding, rfl, congrArg some span⟩

/-- A method is reported at its place, in one way or the other, when it is flagged. -/
theorem span_finding?_outcome (defaultTrait : String) (subject : Subject) (impl : ImplBlock)
    (c : Candidate) :
    (outcome index.oracle defaultTrait subject impl c).finding?.map (·.span) =
      if flags index defaultTrait c then some c.span else none := by
  rw [outcome, judge, flags]
  cases c.skipReason? with
  | some reason => rfl
  | none =>
    obtain ⟨o, result, found⟩ := exists_result_inquire index defaultTrait subject impl c
    dsimp only
    rw [result]
    simpa using found

theorem flagged_eq_filter (defaultTrait : String) (subject : Subject) :
    flagged index.oracle defaultTrait subject =
      ((candidates subject.crate).map Prod.snd).filter (flags index defaultTrait) := by
  have reported (entry : ImplBlock × Candidate) :
      (outcome index.oracle defaultTrait subject entry.1 entry.2).finding?.isSome =
        flags index defaultTrait entry.2 := by
    rw [← Option.isSome_map, span_finding?_outcome]
    cases flags index defaultTrait entry.2 <;> rfl
  simp only [flagged, reported, List.filter_map, Function.comp_def]

/-- The findings of the rule are one for each flagged method, at its place and in order. -/
theorem map_span_check (defaultTrait : String) (subject : Subject) :
    (check index.oracle defaultTrait subject).value.map (·.span) =
      (flagged index.oracle defaultTrait subject).map (·.span) := by
  have reported (entry : ImplBlock × Candidate) :
      (visit index.oracle defaultTrait subject entry).value.finding?.map (·.span) =
        if flags index defaultTrait entry.2 then some entry.2.span else none :=
    span_finding?_outcome index defaultTrait subject entry.1 entry.2
  rw [check, Logged.value_bind, Logged.value_each, Logged.value_pure, List.filterMap_map,
    List.map_filterMap, flagged_eq_filter]
  simp only [Function.comp_apply, reported]
  generalize candidates subject.crate = entries
  induction entries with
  | nil => rfl
  | cons entry entries ih =>
    rw [List.map_cons, List.filterMap_cons, List.filter_cons, ih]
    cases flags index defaultTrait entry.2 <;> rfl

end RustLint.NewWithoutDefault
