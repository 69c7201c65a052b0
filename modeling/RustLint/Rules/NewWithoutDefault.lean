import RustLint.Finding
import RustLint.Lint
import RustLint.Log
import RustLint.Syntax.Node
import RustLint.TypeOracle

set_option autoImplicit false

/- Public constructors `fn new() -> Self` on types without `Default`. Where every field of a struct
is `Default` itself, deriving it is enough; otherwise an implementation that calls `new` is
suggested. What one file cannot know about types is asked of an oracle, and a method about which a
question fails is passed over. -/
namespace RustLint.NewWithoutDefault

/-- What matters of a method that may be a constructor. -/
structure Candidate where
  name : String
  hasSelf : Bool
  paramCount : Int
  isConst : Bool
  typeParams : List String
  ret : Option Ty
  selfTy : Ty
  reachable : Bool
  span : Span
  deriving Inhabited

/-- Why a method is no constructor that `Default` could call. -/
inductive SkipReason where
  | notNew
  | takesSelf
  | takesArguments
  | constFn
  | generic
  | unreachable
  | returnsUnit
  deriving DecidableEq, Inhabited, Repr

def SkipReason.text : SkipReason → String
  | notNew => "not named `new`"
  | takesSelf => "takes `self`"
  | takesArguments => "takes arguments"
  | constFn => "`const fn`"
  | generic => "generic over types"
  | unreachable => "not reachable from outside the crate"
  | returnsUnit => "returns `()`"

namespace Candidate

def ofMethod (method : FnItem) (impl : ImplBlock) : Candidate where
  name := method.sig.name
  hasSelf := method.sig.hasSelf
  paramCount := method.sig.paramCount
  isConst := method.sig.isConst
  typeParams := method.sig.generics.typeParams
  ret := method.sig.ret
  selfTy := impl.selfTy
  reachable := method.vis = .everywhere && method.exported
  span := method.span

/-- The first reason that applies. -/
def skipReason? (c : Candidate) : Option SkipReason :=
  if c.name != "new" then some .notNew
  else if c.hasSelf then some .takesSelf
  else if c.paramCount != 0 then some .takesArguments
  else if c.isConst then some .constFn
  else if !c.typeParams.isEmpty then some .generic
  else if !c.reachable then some .unreachable
  else if c.ret.isNone then some .returnsUnit
  else none

/-- The type that is returned; `Self` is the type of the `impl`. -/
def returned? (c : Candidate) : Option Ty :=
  c.ret.map fun ret => if ret.kind = .self then c.selfTy else ret

end Candidate

/-- The span of the definition, when the trait can be derived for the type: it is a struct, and
every field implements the trait. -/
def canDerive (oracle : TypeOracle) (ty : Ty) (trait : TraitId) : Inquiry (Option Span) := do
  match ← Inquiry.ask oracle (.fields ty) with
  | none => return none
  | some fields =>
    if ← Inquiry.allImplement oracle trait fields then
      Inquiry.ask oracle (.definitionSpan ty)
    else return none

/-- What is derivable is a known definition. -/
theorem definitionSpan_of_canDerive (oracle : TypeOracle) (ty : Ty) (trait : TraitId)
    (definition : Span) (derivable : (canDerive oracle ty trait).result = .ok (some definition)) :
    oracle (.definitionSpan ty) = .ok (some definition) := by
  unfold canDerive at derivable
  obtain ⟨fields?, -, derivable⟩ := Inquiry.exists_of_bind_eq_ok derivable
  cases fields? with
  | none => cases derivable
  | some fields =>
    obtain ⟨all, -, derivable⟩ := Inquiry.exists_of_bind_eq_ok derivable
    cases all with
    | false => cases derivable
    | true => exact derivable

/-- A derive attribute on a line of its own in front of the definition. -/
def deriveSuggestion (definition : Span) (home : Source) (trait : TraitId) : Suggestion where
  span := definition.shrinkToLo
  replacement := "#[derive(" ++ trait.name ++ ")]\n" ++ home.indentOf definition
  applicability := .maybeIncorrect
  path := home.path

/-- An implementation that calls `new`, at no depth. -/
def manualImpl (impl : ImplBlock) (trait : TraitId) : String :=
  "impl" ++ impl.generics.text ++ " " ++ trait.name ++ " for " ++ impl.selfTy.display ++
    " \x7b\n    fn default() -> Self \x7b\n        Self::new()\n    \x7d\n\x7d"

/-- An implementation behind the `impl`, at its depth, with an empty line between them. -/
def manualSuggestion (impl : ImplBlock) (source : Source) (trait : TraitId) : Suggestion where
  span := impl.span.shrinkToHi
  replacement :=
    let indent := source.indentOf impl.span
    "\n\n" ++ indent ++ Text.reindent (manualImpl impl trait) indent
  applicability := .maybeIncorrect

/-- The crate defines a struct of the name at the place. -/
def definesStruct (crate : Crate) (name : String) (span : Span) : Bool :=
  (Node.crate crate).items.any fun item =>
    match item with
    | .typeDef d =>
      match d.form with
      | .struct _ _ => d.name == name && d.span == span
      | _ => false
    | _ => false

/-- What became of a method. -/
inductive Outcome where
  /-- It is no constructor. -/
  | skipped (reason : SkipReason)
  /-- A question about it was not answered. -/
  | failed
  /-- Its type cannot be named from outside. -/
  | hidden
  /-- There is nothing to report. -/
  | quiet
  | flagged (finding : Finding)
  deriving Inhabited

/-- A file as the rule sees it: how it is called in the log, its text and its tree. -/
structure Subject where
  place : String
  source : Source
  crate : Crate

/-- The finding that the trait could be derived, with an edit of the file of the definition when
that file is known. -/
def deriveFindingIn (subject : Subject) (c : Candidate) (trait : TraitId) (definition : Span)
    (home : Option Source) : Finding where
  lint := Lint.newWithoutDefaultDerive.name
  message := "you should consider deriving a `Default` implementation for `" ++
    c.selfTy.display ++ "`"
  span := c.span
  location := some (.ofSpan subject.source c.span)
  suggestion := home.map fun home => deriveSuggestion definition home trait

/-- The finding that the trait could be derived. The file of the definition is this one or another
one. -/
def deriveFinding (oracle : TypeOracle) (subject : Subject) (c : Candidate) (trait : TraitId)
    (definition : Span) : Inquiry Finding := do
  let home ←
    if definesStruct subject.crate c.selfTy.name definition then pure (some subject.source)
    else Inquiry.ask oracle (.definitionSource c.selfTy)
  return deriveFindingIn subject c trait definition home

/-- The file that the edit goes to: the one that the rule looks at, when it defines the type there,
else the one that the oracle knows. -/
theorem exists_home_of_deriveFinding (oracle : TypeOracle) (subject : Subject) (c : Candidate)
    (trait : TraitId) (definition : Span) (finding : Finding)
    (found : (deriveFinding oracle subject c trait definition).result = .ok finding) :
    ∃ home, finding = deriveFindingIn subject c trait definition home ∧
      if definesStruct subject.crate c.selfTy.name definition then home = some subject.source
      else oracle (.definitionSource c.selfTy) = .ok home := by
  unfold deriveFinding at found
  split at found
  · next here =>
    cases found
    exact ⟨some subject.source, rfl, by rw [if_pos here]⟩
  · next elsewhere =>
    obtain ⟨home, known, found⟩ := Inquiry.exists_of_bind_eq_ok found
    cases found
    exact ⟨home, rfl, by rwa [if_neg elsewhere]⟩

/-- The finding that the trait could be implemented. -/
def manualFinding (subject : Subject) (impl : ImplBlock) (c : Candidate) (trait : TraitId) :
    Finding where
  lint := Lint.newWithoutDefault.name
  message := "you should consider adding a `Default` implementation for `" ++
    c.selfTy.display ++ "`"
  span := c.span
  location := some (.ofSpan subject.source c.span)
  suggestion := some (manualSuggestion impl subject.source trait)

/-- What is asked about a constructor, in this order: that it returns its own type, that the type
is known and exported, which trait is meant, and that the type does not implement it yet. -/
def inquire (oracle : TypeOracle) (defaultTrait : String) (subject : Subject) (impl : ImplBlock)
    (c : Candidate) : Inquiry Outcome := do
  match c.returned? with
  | none => return .quiet
  | some ret =>
    if !(← Inquiry.ask oracle (.sameType c.selfTy ret)) then return .quiet
    else if (← Inquiry.ask oracle (.definitionSpan c.selfTy)).isNone then return .quiet
    else if !(← Inquiry.ask oracle (.isExported c.selfTy)) then return .hidden
    else
      match ← Inquiry.ask oracle (.resolveTrait defaultTrait) with
      | none => return .quiet
      | some trait =>
        if ← Inquiry.ask oracle (.implements c.selfTy trait) then return .quiet
        else
          match ← canDerive oracle c.selfTy trait with
          | some definition =>
            return .flagged (← deriveFinding oracle subject c trait definition)
          | none => return .flagged (manualFinding subject impl c trait)

/-- What was answered about a constructor that is reported: it returns its own type, which is known
and exported, and the type does not implement the trait. -/
structure Grounds (oracle : TypeOracle) (defaultTrait : String) (c : Candidate)
    (trait : TraitId) : Prop where
  returned : ∃ ret, c.returned? = some ret ∧ oracle (.sameType c.selfTy ret) = .ok true
  defined : ∃ span, oracle (.definitionSpan c.selfTy) = .ok (some span)
  exported : oracle (.isExported c.selfTy) = .ok true
  resolved : oracle (.resolveTrait defaultTrait) = .ok (some trait)
  missing : oracle (.implements c.selfTy trait) = .ok false

/-- A constructor is reported on these grounds only, in one of two ways. -/
theorem grounds_of_inquire (oracle : TypeOracle) (defaultTrait : String) (subject : Subject)
    (impl : ImplBlock) (c : Candidate) (finding : Finding)
    (found : (inquire oracle defaultTrait subject impl c).result = .ok (.flagged finding)) :
    ∃ trait, Grounds oracle defaultTrait c trait ∧
      ((∃ definition, (canDerive oracle c.selfTy trait).result = .ok (some definition) ∧
          (deriveFinding oracle subject c trait definition).result = .ok finding) ∨
        ((canDerive oracle c.selfTy trait).result = .ok none ∧
          finding = manualFinding subject impl c trait)) := by
  unfold inquire at found
  split at found
  · cases found
  next ret returns =>
  obtain ⟨same, isSame, found⟩ := Inquiry.exists_of_bind_eq_ok found
  cases same with
  | false => cases found
  | true =>
  obtain ⟨span?, isDefined, found⟩ := Inquiry.exists_of_bind_eq_ok found
  cases span? with
  | none => cases found
  | some span =>
  obtain ⟨exported, isExported, found⟩ := Inquiry.exists_of_bind_eq_ok found
  cases exported with
  | false => cases found
  | true =>
  obtain ⟨trait?, resolves, found⟩ := Inquiry.exists_of_bind_eq_ok found
  cases trait? with
  | none => cases found
  | some trait =>
  obtain ⟨implemented, lacks, found⟩ := Inquiry.exists_of_bind_eq_ok found
  cases implemented with
  | true => cases found
  | false =>
  obtain ⟨definition?, derivable, found⟩ := Inquiry.exists_of_bind_eq_ok found
  refine ⟨trait, ⟨⟨ret, returns, isSame⟩, ⟨span, isDefined⟩, isExported, resolves, lacks⟩, ?_⟩
  cases definition? with
  | none =>
    cases found
    exact .inr ⟨derivable, rfl⟩
  | some definition =>
    obtain ⟨made, isMade, found⟩ := Inquiry.exists_of_bind_eq_ok found
    cases found
    exact .inl ⟨definition, derivable, isMade⟩

/-- What the rule asks about a method, and what becomes of it. -/
def judge (oracle : TypeOracle) (defaultTrait : String) (subject : Subject) (impl : ImplBlock)
    (c : Candidate) : Inquiry Outcome :=
  match c.skipReason? with
  | some reason => pure (.skipped reason)
  | none => inquire oracle defaultTrait subject impl c

/-- What becomes of a method; an inquiry that fails is an outcome too. -/
def outcome (oracle : TypeOracle) (defaultTrait : String) (subject : Subject) (impl : ImplBlock)
    (c : Candidate) : Outcome :=
  match (judge oracle defaultTrait subject impl c).result with
  | .ok outcome => outcome
  | .error _ => .failed

/-- What is logged about a method. -/
def message? (subject : Subject) (c : Candidate) : Outcome → Option String
  | .skipped reason =>
    some (subject.place ++ ":" ++ toString c.span.lo ++ ": skipping `" ++ c.name ++ "`: " ++
      reason.text)
  | .failed =>
    some (subject.place ++ ": type query failed for `" ++ c.selfTy.display ++ "::new`")
  | .hidden =>
    some (subject.place ++ ": skipping `" ++ c.selfTy.display ++ "::new`: type is not exported")
  | .quiet | .flagged _ => none

def Outcome.finding? : Outcome → Option Finding
  | flagged finding => some finding
  | _ => none

/-- The functions of an `impl` that no macro produced. -/
def methodsOf (impl : ImplBlock) : List FnItem :=
  impl.items.filterMap fun item =>
    match item with
    | .fn method => if method.span.inMacro then none else some method
    | _ => none

/-- The candidates of a crate with their `impl`s, which implement no trait, in document order. -/
def candidates (crate : Crate) : List (ImplBlock × Candidate) :=
  (Node.crate crate).items.flatMap fun item =>
    match item with
    | .impl impl =>
      if impl.trait.isSome then []
      else (methodsOf impl).map fun method => (impl, .ofMethod method impl)
    | _ => []

def logger : String := "ferrolint.rules.new_without_default"

/-- The outcome for one candidate and its log. -/
def visit (oracle : TypeOracle) (defaultTrait : String) (subject : Subject)
    (entry : ImplBlock × Candidate) : Logged Outcome :=
  let (impl, c) := entry
  let result := outcome oracle defaultTrait subject impl c
  ⟨result, ((message? subject c result).map (LogRecord.mk .debug logger)).toList⟩

/-- The findings in one file, in document order. -/
def check (oracle : TypeOracle) (defaultTrait : String) (subject : Subject) :
    Logged (List Finding) := do
  let outcomes ← Logged.each (visit oracle defaultTrait subject) (candidates subject.crate)
  return outcomes.filterMap Outcome.finding?

/-- A finding is what became of one of the candidates. -/
theorem mem_check_iff (oracle : TypeOracle) (defaultTrait : String) (subject : Subject)
    (finding : Finding) :
    finding ∈ (check oracle defaultTrait subject).value ↔
      ∃ entry ∈ candidates subject.crate,
        outcome oracle defaultTrait subject entry.1 entry.2 = .flagged finding := by
  rw [check, Logged.value_bind, Logged.value_each, Logged.value_pure, List.filterMap_map,
    List.mem_filterMap]
  refine exists_congr fun entry => and_congr_right fun _ => ?_
  rw [Function.comp_apply, visit]
  cases outcome oracle defaultTrait subject entry.1 entry.2 <;> simp [Outcome.finding?]

/-- What is reported about a candidate came out of the inquiry about it. -/
theorem inquire_of_outcome (oracle : TypeOracle) (defaultTrait : String) (subject : Subject)
    (impl : ImplBlock) (c : Candidate) (finding : Finding)
    (found : outcome oracle defaultTrait subject impl c = .flagged finding) :
    (inquire oracle defaultTrait subject impl c).result = .ok (.flagged finding) := by
  unfold outcome at found
  split at found
  · next o result =>
    subst found
    unfold judge at result
    split at result
    · cases result
    · exact result
  · cases found

/-- What is reported about a candidate is one of the two kinds of findings. -/
theorem finding_of_outcome {oracle : TypeOracle} {defaultTrait : String} {subject : Subject}
    {impl : ImplBlock} {c : Candidate} {finding : Finding}
    (flagged : outcome oracle defaultTrait subject impl c = .flagged finding) :
    ∃ trait, (∃ definition home, finding = deriveFindingIn subject c trait definition home) ∨
      finding = manualFinding subject impl c trait := by
  obtain ⟨trait, -, ⟨definition, -, made⟩ | ⟨-, manual⟩⟩ :=
    grounds_of_inquire oracle defaultTrait subject impl c finding
      (inquire_of_outcome oracle defaultTrait subject impl c finding flagged)
  · obtain ⟨home, made, -⟩ :=
      exists_home_of_deriveFinding oracle subject c trait definition finding made
    exact ⟨trait, .inl ⟨definition, home, made⟩⟩
  · exact ⟨trait, .inr manual⟩

theorem lint_of_mem_check (oracle : TypeOracle) (defaultTrait : String) (subject : Subject)
    (finding : Finding) (listed : finding ∈ (check oracle defaultTrait subject).value) :
    finding.lint = Lint.newWithoutDefault.name ∨
      finding.lint = Lint.newWithoutDefaultDerive.name := by
  obtain ⟨⟨impl, c⟩, -, found⟩ := (mem_check_iff oracle defaultTrait subject finding).mp listed
  obtain ⟨trait, ⟨definition, home, rfl⟩ | rfl⟩ := finding_of_outcome found
  · exact .inr rfl
  · exact .inl rfl

end RustLint.NewWithoutDefault
