import RustLint.Proofs.Grammar.History
import RustLint.Proofs.Skipping

set_option autoImplicit false

namespace RustLint.Grammar

variable {τ : Type}

/-- The call ends with the failure. -/
def Library.FailsWith (library : Library τ) (call : LibraryCall) (e : LibraryFailure) : Prop :=
  match call with
  | .loadGrammar => library.loadGrammar = .error e
  | .makeParser => library.makeParser = .error e
  | .setLanguage _ _ => library.setLanguage = .error e
  | .parse _ => library.parse = .error e

theorem Library.Succeeds.not_failsWith {library : Library τ} {call : LibraryCall}
    (succeeds : library.Succeeds call) (e : LibraryFailure) : ¬ library.FailsWith call e := by
  intro fails
  cases call with
  | loadGrammar | makeParser | setLanguage _ _ => cases succeeds.symm.trans fails
  | parse p =>
    obtain ⟨tree, parsed⟩ := succeeds
    cases parsed.symm.trans fails

theorem Library.FailsWith.unique {library : Library τ} {call : LibraryCall}
    {e d : LibraryFailure} (first : library.FailsWith call e) (second : library.FailsWith call d) :
    e = d := by
  cases call <;> exact Except.error.inj (first.symm.trans second)

/-- A failure of this kind only means that there is no tree. -/
def tolerates : LibraryCall → FailureKind → Bool
  | .loadGrammar, .other _ => false
  | .loadGrammar, _ => true
  | _, .value | _, .type | _, .runtime => true
  | _, .attribute | _, .key | _, .other _ => false

/-- What becomes of the failure of a call on the way out. -/
def passed : LibraryCall → LibraryFailure → LibraryFailure
  | .loadGrammar, e => noGrammar e
  | _, e => e

theorem isExpected_passed (call : LibraryCall) (e : LibraryFailure) :
    isExpected (passed call e) = tolerates call e.kind := by
  obtain ⟨kind, text⟩ := e
  cases call <;> cases kind <;> rfl

theorem passed_of_not_tolerated {call : LibraryCall} {e : LibraryFailure}
    (escapes : tolerates call e.kind = false) : passed call e = e := by
  obtain ⟨kind, text⟩ := e
  cases call with
  | loadGrammar => cases kind <;> first | rfl | cases escapes
  | makeParser | setLanguage _ _ | parse _ => rfl

/-- What comes of calls of which all succeed, or all but the last. -/
inductive Library.ComesTo (library : Library τ) :
    List LibraryCall → Except LibraryFailure τ → Prop
  | tree (calls : List LibraryCall) (tree : τ) (hasTree : library.parse = .ok tree)
      (succeed : ∀ call ∈ calls, library.Succeeds call) : ComesTo library calls (.ok tree)
  | failure (front : List LibraryCall) (last : LibraryCall) (e : LibraryFailure)
      (before : ∀ call ∈ front, library.Succeeds call) (fails : library.FailsWith last e) :
      ComesTo library (front ++ [last]) (.error (passed last e))

/-- The text is parsed when the calls in front of that have succeeded. -/
theorem Library.comesTo_parse {library : Library τ} {front : List LibraryCall} (p : Nat)
    (before : ∀ call ∈ front, library.Succeeds call) :
    library.ComesTo (front ++ [.parse p]) library.parse := by
  cases parsed : library.parse with
  | ok tree =>
    refine .tree _ tree parsed (List.forall_mem_append.mpr ⟨before, ?_⟩)
    exact List.forall_mem_singleton.mpr ⟨tree, parsed⟩
  | error e => exact .failure front (.parse p) e before parsed

theorem Takes.comesTo {c c' : Cache} {r : Request τ} {calls : List LibraryCall}
    {result : Except LibraryFailure τ} (h : Takes c r calls result c') :
    r.library.ComesTo calls result := by
  have loads (loaded : c.grammar = none → r.library.loadGrammar = .ok ()) :
      ∀ call ∈ c.loads, r.library.Succeeds call := by
    intro call load
    obtain ⟨unloaded, rfl⟩ := (c.mem_loads call).mp load
    exact loaded unloaded
  have nothing : ∀ call ∈ ([] : List LibraryCall), r.library.Succeeds call := List.forall_mem_nil _
  cases h with
  | reused p kept => exact Library.comesTo_parse p nothing
  | noGrammar e fresh unloaded failed => exact .failure [] .loadGrammar e nothing failed
  | noParser e fresh loaded failed => exact .failure c.loads .makeParser e (loads loaded) failed
  | noLanguage e fresh loaded made failed =>
    have before : ∀ call ∈ c.loads ++ [.makeParser], r.library.Succeeds call :=
      List.forall_mem_append.mpr ⟨loads loaded, List.forall_mem_singleton.mpr made⟩
    have last := Library.ComesTo.failure _ (.setLanguage c.made c.nextGrammar) e before failed
    simpa [passed] using last
  | made fresh loaded made knows =>
    have before : ∀ call ∈ c.loads ++ [.makeParser, .setLanguage c.made c.nextGrammar],
        r.library.Succeeds call :=
      List.forall_mem_append.mpr
        ⟨loads loaded, List.forall_mem_cons.mpr ⟨made, List.forall_mem_singleton.mpr knows⟩⟩
    simpa using Library.comesTo_parse c.made before

/-- How a text ends that takes the calls: what comes of it is no failure when those that fail are
tolerated, and a failure that is not is the one that comes of it. There is a tree when all calls
succeed. -/
structure Ends (available : Bool) (library : Library τ) (calls : List LibraryCall)
    (result : Except LibraryFailure (ParseOutcome τ)) : Prop where
  returns : (∃ outcome, result = .ok outcome) ↔
    (available = true → ∀ call ∈ calls, ∀ e, library.FailsWith call e →
      tolerates call e.kind = true)
  escapes : ∀ e, result = .error e ↔ available = true ∧
    ∃ call ∈ calls, library.FailsWith call e ∧ tolerates call e.kind = false
  parses : ∀ tree, result = .ok (.parsed tree) ↔ available = true ∧
    (∀ call ∈ calls, library.Succeeds call) ∧ library.parse = .ok tree

section Ends

variable {library : Library τ} {calls : List LibraryCall}

theorem Ends.of_succeeds {tree : τ} (hasTree : library.parse = .ok tree)
    (succeed : ∀ call ∈ calls, library.Succeeds call) :
    Ends true library calls (.ok (.parsed tree)) where
  returns := by
    refine ⟨fun _ _ call listed e fails => ?_, fun _ => ⟨_, rfl⟩⟩
    exact ((succeed call listed).not_failsWith e fails).elim
  escapes e := by
    refine ⟨nofun, ?_⟩
    rintro ⟨-, call, listed, fails, -⟩
    exact ((succeed call listed).not_failsWith e fails).elim
  parses other := by
    constructor
    · intro same
      cases same
      exact ⟨rfl, succeed, hasTree⟩
    · rintro ⟨-, -, parsed⟩
      rw [Except.ok.inj (hasTree.symm.trans parsed)]

theorem Ends.of_fails {front : List LibraryCall} {last : LibraryCall} {e : LibraryFailure}
    (before : ∀ call ∈ front, library.Succeeds call) (fails : library.FailsWith last e) :
    Ends true library (front ++ [last])
      (if isExpected (passed last e) then .ok (.failed (passed last e).text)
        else .error (passed last e)) := by
  have atEnd : last ∈ front ++ [last] := List.mem_append_right _ (List.mem_singleton_self _)
  have only {call : LibraryCall} (listed : call ∈ front ++ [last]) {d : LibraryFailure}
      (failed : library.FailsWith call d) : call = last ∧ d = e := by
    rcases List.mem_append.mp listed with early | late
    · exact ((before call early).not_failsWith d failed).elim
    · cases List.mem_singleton.mp late
      exact ⟨rfl, failed.unique fails⟩
  have noTree : ¬ ∀ call ∈ front ++ [last], library.Succeeds call :=
    fun succeed => (succeed last atEnd).not_failsWith e fails
  rw [isExpected_passed]
  cases tolerated : tolerates last e.kind with
  | true =>
    refine ⟨⟨fun _ _ call listed d failed => ?_, fun _ => ⟨_, rfl⟩⟩, fun d => ⟨nofun, ?_⟩,
      fun tree => ⟨nofun, fun parsed => (noTree parsed.2.1).elim⟩⟩
    · obtain ⟨rfl, rfl⟩ := only listed failed
      exact tolerated
    · rintro ⟨-, call, listed, failed, escapes⟩
      obtain ⟨rfl, rfl⟩ := only listed failed
      cases tolerated.symm.trans escapes
  | false =>
    rw [passed_of_not_tolerated tolerated]
    refine ⟨⟨nofun, fun all => ?_⟩, fun d => ⟨fun same => ?_, ?_⟩,
      fun tree => ⟨nofun, fun parsed => (noTree parsed.2.1).elim⟩⟩
    · cases (all rfl last atEnd e fails).symm.trans tolerated
    · cases same
      exact ⟨rfl, last, atEnd, fails, tolerated⟩
    · rintro ⟨-, call, listed, failed, -⟩
      rw [(only listed failed).2]
      rfl

theorem ends_parse (available : Bool) (r : Request τ) (s : Session) :
    Ends available r.library (Turn.of s r).calls (parse available r.library r.thread s).1 := by
  cases available with
  | false => exact ⟨by simp [parse], by simp [parse], by simp [parse]⟩
  | true =>
    obtain ⟨calls, result, cache, takes, parsed⟩ := takes_parse r s
    have taken : (Turn.of s r).calls = calls := by
      rw [Turn.calls, Turn.of, parsed]
      exact List.drop_left
    rw [taken, parsed]
    cases takes.comesTo with
    | tree _ tree hasTree succeed => exact .of_succeeds hasTree succeed
    | failure front last e before fails => exact .of_fails before fails

end Ends

/-! What becomes of the file. -/

/-- A run over files leaves out one without a tree, and finds in the others what it finds without
it. -/
structure Skips (file : RustFile) (path : Path) : Prop where
  skipped : ∀ config front behind,
    path ∈ (Detection.check config (front ++ file :: behind)).value.filesSkipped
  findings : ∀ config front behind,
    (Detection.check config (front ++ file :: behind)).value.findings =
      (Detection.check config (front ++ behind)).value.findings

theorem skips_ofCrate (resolve : Path.Resolver) (root path : Path) (text : String) :
    Skips (.ofCrate resolve root path text none) path where
  skipped config front behind := by
    simp [Detection.check, Detection.summary, Detection.skipped, RustFile.ofCrate]
  findings config front behind := by
    rw [← Detection.findings_check_withTrees,
      ← Detection.findings_check_withTrees config (front ++ behind)]
    simp [RustFile.ofCrate]

/-- A file without a tree is there all the same. -/
theorem value_ofText_of_no_tree (resolve : Path.Resolver) (root path : Path) (text : String)
    {outcome : ParseOutcome ParseTree} (noTree : ∀ tree, outcome ≠ .parsed tree) :
    (RustFile.ofText resolve root (fun _ => outcome) path text).run.value =
      .ok (.ofCrate resolve root path text none) := by
  cases outcome with
  | parsed tree => exact (noTree tree rfl).elim
  | failed reason => rfl
  | unavailable => rfl

/-- Parsing a text ends in a failure exactly when a call to the library fails in a way that is not
tolerated. Where it does not, and there is no tree, the file is skipped and nothing else changes. -/
theorem parse_fails_iff (available : Bool) (r : Request ParseTree) (s : Session) :
    Ends available r.library (Turn.of s r).calls (parse available r.library r.thread s).1 ∧
      ∀ outcome, (parse available r.library r.thread s).1 = .ok outcome →
        (∀ tree, outcome ≠ .parsed tree) → ∀ resolve root path text, ∃ file,
          (RustFile.ofText resolve root (fun _ => outcome) path text).run.value = .ok file ∧
            Skips file path :=
  ⟨ends_parse available r s, fun _ _ noTree resolve root path text =>
    ⟨_, value_ofText_of_no_tree resolve root path text noTree,
      skips_ofCrate resolve root path text⟩⟩

/-- A new parser whose grammar cannot be set for the lack of an attribute fails the text. -/
theorem not_parse_returns : ¬ ∀ (available : Bool) (r : Request ParseTree) (s : Session),
    ∃ outcome, (parse available r.library r.thread s).1 = .ok outcome := by
  intro always
  let failure : LibraryFailure := ⟨.attribute, "set_language"⟩
  let library : Library ParseTree :=
    { setLanguage := .error failure, parse := .ok ⟨⟨"source_file", true, 0, 9, none⟩, (), []⟩ }
  obtain ⟨outcome, returned⟩ := always true ⟨0, library⟩ { cache := {} }
  have raised : (parse true library 0 { cache := {} }).1 = .error failure := rfl
  cases raised.symm.trans returned

end RustLint.Grammar
