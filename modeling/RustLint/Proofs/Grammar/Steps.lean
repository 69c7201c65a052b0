import RustLint.Grammar
import Mathlib.Data.List.Basic

set_option autoImplicit false

namespace RustLint.Grammar

variable {τ : Type}

/-! The steps of the work with the library. -/

section Steps

variable {α β : Type} (s : Session)

theorem run_bind (x : Use α) (next : α → Use β) : (x >>= next).run.run s =
    match x.run.run s with
    | (.ok a, s') => (next a).run.run s'
    | (.error e, s') => (.error e, s') := by
  unfold ExceptT.run StateT.run
  simp only [bind, ExceptT.bind, ExceptT.mk, StateT.bind, ExceptT.bindCont]
  cases x s with
  | mk result s' => cases result <;> rfl

theorem run_pure (a : α) : (pure a : Use α).run.run s = (.ok a, s) := rfl

theorem run_get : (get : Use Session).run.run s = (.ok s, s) := rfl

theorem run_updateCache (f : Cache → Cache) :
    (updateCache f).run.run s = (.ok (), { s with cache := f s.cache }) := rfl

theorem run_call (c : LibraryCall) (result : Except LibraryFailure α) :
    (call c result).run.run s = (result, { s with calls := s.calls ++ [c] }) := by
  cases result <;> rfl

end Steps

/-- The call ends without a failure. -/
def Library.Succeeds (library : Library τ) : LibraryCall → Prop
  | .loadGrammar => library.loadGrammar = .ok ()
  | .makeParser => library.makeParser = .ok ()
  | .setLanguage _ _ => library.setLanguage = .ok ()
  | .parse _ => ∃ tree, library.parse = .ok tree

/-- A text to be parsed: the thread it is parsed in, and how the calls to the library end. -/
structure Request (τ : Type) where
  thread : Nat
  library : Library τ

namespace Cache

variable (c : Cache)

/-- The parser that is kept for the thread. -/
def parserFor (thread : Nat) : Option Nat := c.parsers.lookup thread

/-- The load of the grammar, where it is not there. -/
def loads : List LibraryCall :=
  match c.grammar with
  | some _ => []
  | none => [.loadGrammar]

theorem mem_loads (call : LibraryCall) :
    call ∈ c.loads ↔ c.grammar = none ∧ call = .loadGrammar := by
  cases found : c.grammar <;> simp [loads, found]

/-- The grammar that is there or is loaded next. -/
def nextGrammar : Nat := c.grammar.getD c.loaded

/-- The cache once the grammar is there. -/
def withGrammar : Cache :=
  match c.grammar with
  | some _ => c
  | none => { c with grammar := some c.loaded, loaded := c.loaded + 1 }

theorem withGrammar_grammar : c.withGrammar.grammar = some c.nextGrammar := by
  cases found : c.grammar <;> simp [withGrammar, nextGrammar, found]

theorem withGrammar_made : c.withGrammar.made = c.made := by
  unfold withGrammar
  split <;> rfl

theorem withGrammar_parsers : c.withGrammar.parsers = c.parsers := by
  unfold withGrammar
  split <;> rfl

/-- The cache once one more parser is made. -/
def withParser : Cache := { c.withGrammar with made := c.made + 1 }

/-- The cache once that parser is kept for the thread. -/
def keeping (thread : Nat) : Cache :=
  { c.withParser with parsers := (thread, c.made) :: c.parsers }

theorem withGrammar_parserFor : c.withGrammar.parserFor = c.parserFor := by
  funext thread
  rw [parserFor, withGrammar_parsers, parserFor]

theorem withParser_parserFor : c.withParser.parserFor = c.parserFor := c.withGrammar_parserFor

theorem keeping_parserFor (thread other : Nat) :
    (c.keeping thread).parserFor other =
      if other = thread then some c.made else c.parserFor other := by
  by_cases same : other = thread
  · simp [keeping, parserFor, same]
  · have apart : (other == thread) = false := beq_false_of_ne same
    simp [keeping, parserFor, List.lookup_cons, same, apart]

end Cache

/-- The calls that one text takes, what comes of them and what is kept then. -/
inductive Takes (c : Cache) (r : Request τ) :
    List LibraryCall → Except LibraryFailure τ → Cache → Prop
  | reused (p : Nat) (kept : c.parserFor r.thread = some p) :
      Takes c r [.parse p] r.library.parse c
  | noGrammar (e : LibraryFailure) (fresh : c.parserFor r.thread = none)
      (unloaded : c.grammar = none) (failed : r.library.loadGrammar = .error e) :
      Takes c r [.loadGrammar] (.error (Grammar.noGrammar e)) c
  | noParser (e : LibraryFailure) (fresh : c.parserFor r.thread = none)
      (loaded : c.grammar = none → r.library.loadGrammar = .ok ())
      (failed : r.library.makeParser = .error e) :
      Takes c r (c.loads ++ [.makeParser]) (.error e) c.withGrammar
  | noLanguage (e : LibraryFailure) (fresh : c.parserFor r.thread = none)
      (loaded : c.grammar = none → r.library.loadGrammar = .ok ())
      (made : r.library.makeParser = .ok ()) (failed : r.library.setLanguage = .error e) :
      Takes c r (c.loads ++ [.makeParser, .setLanguage c.made c.nextGrammar]) (.error e)
        c.withParser
  | made (fresh : c.parserFor r.thread = none)
      (loaded : c.grammar = none → r.library.loadGrammar = .ok ())
      (made : r.library.makeParser = .ok ()) (knows : r.library.setLanguage = .ok ()) :
      Takes c r
        (c.loads ++ [.makeParser, .setLanguage c.made c.nextGrammar, .parse c.made])
        r.library.parse (c.keeping r.thread)

/-- The grammar is there already, is loaded, or cannot be loaded. -/
theorem run_grammarOf (library : Library τ) (s : Session) :
    (grammarOf library).run.run s =
      match (if s.cache.grammar = none then library.loadGrammar else .ok ()) with
      | .ok _ => (.ok s.cache.nextGrammar, ⟨s.cache.withGrammar, s.calls ++ s.cache.loads⟩)
      | .error e => (.error (noGrammar e), ⟨s.cache, s.calls ++ [.loadGrammar]⟩) := by
  obtain ⟨c, calls⟩ := s
  simp only [grammarOf, run_bind, run_get]
  cases found : c.grammar with
  | some g =>
    simp only [run_pure, Cache.nextGrammar, Cache.withGrammar, Cache.loads, found]
    simp
  | none =>
    simp only [run_bind, run_call]
    cases library.loadGrammar with
    | error e => rfl
    | ok _ =>
      simp only [Except.mapError, run_get, run_updateCache, run_pure, Cache.nextGrammar,
        Cache.withGrammar, Cache.loads, found]
      rfl

theorem takes_parseIn (r : Request τ) (s : Session) :
    ∃ calls result cache, Takes s.cache r calls result cache ∧
      (parseIn r.library r.thread).run.run s = (result, ⟨cache, s.calls ++ calls⟩) := by
  obtain ⟨c, calls⟩ := s
  simp only [parseIn, parserOf, run_bind, run_get]
  cases kept : c.parsers.lookup r.thread with
  | some p =>
    simp only [run_pure, run_call]
    exact ⟨_, _, _, .reused p kept, rfl⟩
  | none =>
    simp only [run_bind, run_grammarOf]
    cases load : (if c.grammar = none then r.library.loadGrammar else .ok ()) with
    | error e =>
      have unloaded : c.grammar = none := by
        by_contra there
        simp [there] at load
      rw [if_pos unloaded] at load
      exact ⟨_, _, _, .noGrammar e kept unloaded load, rfl⟩
    | ok _ =>
      have loaded : c.grammar = none → r.library.loadGrammar = .ok () := by
        intro unloaded
        rw [if_pos unloaded] at load
        exact load
      simp only [run_call]
      cases make : r.library.makeParser with
      | error e =>
        exact ⟨_, _, _, .noParser e kept loaded make, by simp only [List.append_assoc]⟩
      | ok _ =>
        simp only [run_get, run_updateCache]
        have unmade : c.withGrammar.made = c.made := c.withGrammar_made
        cases know : r.library.setLanguage with
        | error e =>
          refine ⟨_, _, _, .noLanguage e kept loaded make know, ?_⟩
          simp [Cache.withParser, unmade]
        | ok _ =>
          simp only [run_pure]
          refine ⟨_, _, _, .made kept loaded make know, ?_⟩
          simp [Cache.keeping, Cache.withParser, unmade, Cache.withGrammar_parsers]

/-- What comes of the text is what the course comes to; failures that are expected make no tree. -/
theorem takes_parse (r : Request τ) (s : Session) :
    ∃ calls result cache, Takes s.cache r calls result cache ∧
      parse true r.library r.thread s =
        (match result with
          | .ok tree => .ok (.parsed tree)
          | .error e => if isExpected e then .ok (.failed e.text) else .error e,
          ⟨cache, s.calls ++ calls⟩) := by
  obtain ⟨calls, result, cache, takes, run⟩ := takes_parseIn r s
  refine ⟨calls, result, cache, takes, ?_⟩
  simp only [parse, run]
  cases result <;> rfl

/-! What each course comes to. -/

namespace Takes

variable {c c' : Cache} {r : Request τ} {calls : List LibraryCall}
  {result : Except LibraryFailure τ}

theorem of_kept {p : Nat} (h : Takes c r calls result c') (kept : c.parserFor r.thread = some p) :
    calls = [.parse p] ∧ c' = c := by
  cases h with
  | reused q found =>
    obtain rfl : q = p := Option.some.inj (found.symm.trans kept)
    exact ⟨rfl, rfl⟩
  | noGrammar e fresh => simp [fresh] at kept
  | noParser e fresh => simp [fresh] at kept
  | noLanguage e fresh => simp [fresh] at kept
  | made fresh => simp [fresh] at kept

/-- The grammar is loaded only where it is not there and the thread has no parser, and then the load
is the first call and the only load. -/
theorem loads_once (h : Takes c r calls result c') (load : .loadGrammar ∈ calls) :
    c.grammar = none ∧ calls.count .loadGrammar = 1 := by
  have unloaded : .loadGrammar ∈ c.loads → c.grammar = none := fun found =>
    ((c.mem_loads .loadGrammar).1 found).1
  cases h with
  | reused p found => simp at load
  | noGrammar e fresh none => exact ⟨none, rfl⟩
  | noParser e fresh =>
    have none := unloaded (by simpa using load)
    exact ⟨none, by simp [Cache.loads, none]⟩
  | noLanguage e fresh =>
    have none := unloaded (by simpa using load)
    exact ⟨none, by simp [Cache.loads, none]⟩
  | made fresh =>
    have none := unloaded (by simpa using load)
    exact ⟨none, by simp [Cache.loads, none]⟩

theorem head_of_unloaded (h : Takes c r calls result c') (unloaded : c.grammar = none)
    (fresh : c.parserFor r.thread = none) : calls.head? = some .loadGrammar := by
  cases h with
  | reused p found => simp [fresh] at found
  | noGrammar e => rfl
  | noParser e => simp [Cache.loads, unloaded]
  | noLanguage e => simp [Cache.loads, unloaded]
  | made => simp [Cache.loads, unloaded]

/-- A load that fails leaves everything as it was. -/
theorem eq_of_load_failed (h : Takes c r calls result c') (load : .loadGrammar ∈ calls)
    (failed : ¬ r.library.Succeeds .loadGrammar) : c' = c := by
  have unloaded := (h.loads_once load).1
  cases h with
  | reused p found => rfl
  | noGrammar e => rfl
  | noParser e fresh loaded => exact (failed (loaded unloaded)).elim
  | noLanguage e fresh loaded => exact (failed (loaded unloaded)).elim
  | made fresh loaded => exact (failed (loaded unloaded)).elim

/-- The grammar stays, or there was none and one was loaded. -/
theorem grammar_eq (h : Takes c r calls result c') :
    c'.grammar = c.grammar ∨
      c.grammar = none ∧ c'.grammar = some c.loaded ∧ .loadGrammar ∈ calls ∧
        r.library.Succeeds .loadGrammar := by
  have step : (c.grammar = none → r.library.loadGrammar = .ok ()) →
      c.withGrammar.grammar = c.grammar ∨ c.grammar = none ∧
        c.withGrammar.grammar = some c.loaded ∧ .loadGrammar ∈ c.loads ∧
          r.library.Succeeds .loadGrammar := by
    intro loaded
    cases found : c.grammar with
    | some g => simp [Cache.withGrammar, found]
    | none => simp [Cache.withGrammar, Cache.loads, found, Library.Succeeds, loaded found]
  cases h with
  | reused p found => exact .inl rfl
  | noGrammar e => exact .inl rfl
  | noParser e fresh loaded => simpa using step loaded
  | noLanguage e fresh loaded => simpa [Cache.withParser] using step loaded
  | made fresh loaded => simpa [Cache.keeping, Cache.withParser] using step loaded

theorem grammar_of_loaded (h : Takes c r calls result c') (load : .loadGrammar ∈ calls)
    (succeeds : r.library.Succeeds .loadGrammar) : c'.grammar = some c.loaded := by
  have unloaded := (h.loads_once load).1
  have next : c.withGrammar.grammar = some c.loaded := by
    simp [Cache.withGrammar, unloaded]
  cases h with
  | reused p found => simp at load
  | noGrammar e fresh none failed => cases failed.symm.trans succeeds
  | noParser e => exact next
  | noLanguage e => exact next
  | made => exact next

/-- A parser that is kept afterwards was kept before, or it was made for the thread of the text, was
given the grammar and parsed the text. -/
theorem parserFor_cases {thread p : Nat} (h : Takes c r calls result c')
    (kept : c'.parserFor thread = some p) :
    c.parserFor thread = some p ∨ thread = r.thread ∧ ∃ g, c'.grammar = some g ∧
      [.setLanguage p g, .parse p] <:+ calls ∧ r.library.Succeeds (.setLanguage p g) := by
  cases h with
  | reused q found => exact .inl kept
  | noGrammar e => exact .inl kept
  | noParser e => exact .inl (c.withGrammar_parserFor ▸ kept)
  | noLanguage e => exact .inl (c.withParser_parserFor ▸ kept)
  | made fresh loaded made knows =>
    rw [Cache.keeping_parserFor] at kept
    split at kept
    · next same =>
      cases kept
      exact .inr ⟨same, c.nextGrammar, c.withGrammar_grammar, ⟨c.loads ++ [.makeParser], by simp⟩,
        knows⟩
    · exact .inl kept

/-- What is kept for a thread stays. -/
theorem parserFor_mono {thread p : Nat} (h : Takes c r calls result c')
    (kept : c.parserFor thread = some p) : c'.parserFor thread = some p := by
  cases h with
  | reused q found => exact kept
  | noGrammar e => exact kept
  | noParser e => exact c.withGrammar_parserFor ▸ kept
  | noLanguage e => exact c.withParser_parserFor ▸ kept
  | made fresh =>
    have other : thread ≠ r.thread := by
      rintro rfl
      simp [fresh] at kept
    rw [Cache.keeping_parserFor, if_neg other, kept]

/-- The parser of a text is kept for its thread. -/
theorem parserFor_of_parse {p : Nat} (h : Takes c r calls result c') (parse : .parse p ∈ calls) :
    c'.parserFor r.thread = some p := by
  cases h with
  | reused q found =>
    obtain rfl : p = q := by simpa using parse
    exact found
  | noGrammar e => simp at parse
  | noParser e => simp [Cache.mem_loads] at parse
  | noLanguage e => simp [Cache.mem_loads] at parse
  | made fresh =>
    obtain rfl : p = c.made := by simpa [Cache.mem_loads] using parse
    rw [Cache.keeping_parserFor, if_pos rfl]

/-- A text without a tree is one whose last call failed. Where that call is not the parsing of the
text no parser is kept for it. -/
theorem of_error {e : LibraryFailure} (h : Takes c r calls result c') (failed : result = .error e) :
    ∃ last, calls.getLast? = some last ∧ ¬ r.library.Succeeds last ∧
      (c'.parsers = c.parsers ∨
        ∃ p, last = .parse p ∧ c.parserFor r.thread = none ∧
          c'.parsers = (r.thread, p) :: c.parsers) := by
  cases h with
  | reused p found => exact ⟨.parse p, rfl, by simp [Library.Succeeds, failed], .inl rfl⟩
  | noGrammar e fresh unloaded load =>
    exact ⟨.loadGrammar, rfl, by simp [Library.Succeeds, load], .inl rfl⟩
  | noParser e fresh loaded make =>
    exact ⟨.makeParser, by simp, by simp [Library.Succeeds, make], .inl c.withGrammar_parsers⟩
  | noLanguage e fresh loaded made know =>
    exact ⟨.setLanguage c.made c.nextGrammar, by simp, by simp [Library.Succeeds, know],
      .inl c.withGrammar_parsers⟩
  | made fresh =>
    exact ⟨.parse c.made, by simp, by simp [Library.Succeeds, failed],
      .inr ⟨c.made, rfl, fresh, rfl⟩⟩

end Takes

end RustLint.Grammar
