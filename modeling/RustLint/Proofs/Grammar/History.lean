import RustLint.Proofs.Grammar.Steps

set_option autoImplicit false

namespace RustLint.Grammar

variable {τ : Type}

/-- What one text came to: the session before it and after it, and what came of parsing it. -/
structure Turn (τ : Type) where
  request : Request τ
  before : Session
  result : Except LibraryFailure (ParseOutcome τ)
  after : Session

namespace Turn

def of (s : Session) (r : Request τ) : Turn τ where
  request := r
  before := s
  result := (parse true r.library r.thread s).1
  after := (parse true r.library r.thread s).2

variable (t : Turn τ)

/-- The calls that the text took. -/
def calls : List LibraryCall := t.after.calls.drop t.before.calls.length

def Succeeds (call : LibraryCall) : Prop :=
  call ∈ t.calls ∧ t.request.library.Succeeds call

def Fails (call : LibraryCall) : Prop :=
  call ∈ t.calls ∧ ¬ t.request.library.Succeeds call

/-- The grammar of this number is loaded. -/
def Loads (grammar : Nat) : Prop := t.Succeeds .loadGrammar ∧ t.before.cache.loaded = grammar

/-- There is no tree. -/
def Failed : Prop := ∀ tree, t.result ≠ .ok (.parsed tree)

end Turn

/-- The texts are parsed in turn, each in the session that the one before it left. -/
def history (s : Session) : List (Request τ) → List (Turn τ)
  | [] => []
  | r :: rest => Turn.of s r :: history (Turn.of s r).after rest

/-- How the library is used over a number of texts. -/
structure Orderly (turns : List (Turn τ)) : Prop where
  /-- After a load that failed the next text tries again. -/
  reloads : ∀ front t next behind, turns = front ++ t :: next :: behind → t.Fails .loadGrammar →
    next.calls.head? = some .loadGrammar
  /-- A load that succeeded is the last. -/
  loadsOnce : ∀ front t behind, turns = front ++ t :: behind → t.Succeeds .loadGrammar →
    t.calls.count .loadGrammar = 1 ∧ ∀ later ∈ behind, .loadGrammar ∉ later.calls
  /-- A parser is stored for the thread that it was made in, once it took the grammar that was
  loaded. -/
  stores : ∀ front t behind, turns = front ++ t :: behind → ∀ thread p,
    t.after.cache.parserFor thread = some p → t.before.cache.parserFor thread = some p ∨
      thread = t.request.thread ∧ ∃ g, t.Succeeds (.setLanguage p g) ∧
        ∃ load ∈ front ++ [t], load.Loads g
  /-- The thread then asks for nothing but that this parser parses. -/
  keeps : ∀ front t behind, turns = front ++ t :: behind → ∀ thread p,
    t.after.cache.parserFor thread = some p → ∀ later ∈ behind, later.request.thread = thread →
      later.calls = [.parse p]
  /-- A parser took the grammar before it parses. -/
  prepared : ∀ front t behind, turns = front ++ t :: behind → ∀ p, .parse p ∈ t.calls →
    ∃ g, (∃ load ∈ front ++ [t], load.Loads g) ∧
      ((∃ earlier ∈ front, earlier.Succeeds (.setLanguage p g)) ∨
        t.Succeeds (.setLanguage p g) ∧ [.setLanguage p g, .parse p] <:+ t.calls)
  /-- Without a tree the last call failed. What is kept gains the grammar, if it was loaded, and the
  parser of the thread, if it was the parser that failed. -/
  failing : ∀ t ∈ turns, t.Failed → ∃ last, t.calls.getLast? = some last ∧ t.Fails last ∧
    (t.after.cache.grammar = t.before.cache.grammar ∨
      t.before.cache.grammar = none ∧ ∃ g, t.Loads g ∧ t.after.cache.grammar = some g) ∧
    (t.after.cache.parsers = t.before.cache.parsers ∨
      ∃ p, last = .parse p ∧ t.before.cache.parserFor t.request.thread = none ∧
        t.after.cache.parsers = (t.request.thread, p) :: t.before.cache.parsers)

/-! What a cache holds, from one text to the next and over all of them. -/

/-- The turn is what parsing its text in its session comes to. -/
def Turn.Ran (t : Turn τ) : Prop := t = Turn.of t.before t.request

namespace Turn.Ran

variable {t : Turn τ}

/-- A turn takes one of the courses. -/
theorem takes (ran : t.Ran) : ∃ result,
    Takes t.before.cache t.request t.calls result t.after.cache ∧
      (t.Failed → ∃ e, result = .error e) := by
  obtain ⟨calls, result, cache, takes, parsed⟩ := takes_parse t.request t.before
  have after : t.after = ⟨cache, t.before.calls ++ calls⟩ :=
    (congrArg Turn.after ran).trans (congrArg Prod.snd parsed)
  refine ⟨result, ?_, ?_⟩
  · have drop : t.calls = calls := by
      rw [Turn.calls, after]
      exact List.drop_left
    rw [drop, after]
    exact takes
  · intro failed
    cases result with
    | error e => exact ⟨e, rfl⟩
    | ok tree =>
      have hasTree := (congrArg Turn.result ran).trans (congrArg Prod.fst parsed)
      exact (failed tree hasTree).elim

/-- The grammar that is there after a turn was there before, or the turn loaded it. -/
theorem grammar_eq (ran : t.Ran) :
    t.after.cache.grammar = t.before.cache.grammar ∨ t.before.cache.grammar = none ∧
      ∃ g, t.Loads g ∧ t.after.cache.grammar = some g := by
  obtain ⟨result, takes, -⟩ := ran.takes
  rcases takes.grammar_eq with same | ⟨unloaded, loaded, load, succeeds⟩
  · exact .inl same
  · exact .inr ⟨unloaded, t.before.cache.loaded, ⟨⟨load, succeeds⟩, rfl⟩, loaded⟩

/-- A parser that is kept after a turn was kept before, or the turn gave it the grammar. -/
theorem parserFor_cases (ran : t.Ran) {thread p : Nat}
    (found : t.after.cache.parserFor thread = some p) :
    t.before.cache.parserFor thread = some p ∨ thread = t.request.thread ∧
      ∃ g, t.after.cache.grammar = some g ∧ t.Succeeds (.setLanguage p g) ∧
        [.setLanguage p g, .parse p] <:+ t.calls := by
  obtain ⟨result, takes, -⟩ := ran.takes
  rcases takes.parserFor_cases found with kept | ⟨same, g, loaded, asked, succeeds⟩
  · exact .inl kept
  · exact .inr ⟨same, g, loaded, ⟨asked.subset (by simp), succeeds⟩, asked⟩

end Turn.Ran

/-- One cache holds at least what another holds. -/
structure Cache.Extends (c' c : Cache) : Prop where
  grammar : ∀ g, c.grammar = some g → c'.grammar = some g
  parsers : ∀ thread p, c.parserFor thread = some p → c'.parserFor thread = some p

theorem Cache.Extends.refl (c : Cache) : c.Extends c :=
  ⟨fun _ found => found, fun _ _ found => found⟩

theorem Cache.Extends.trans {c c' c'' : Cache} (second : c''.Extends c') (first : c'.Extends c) :
    c''.Extends c where
  grammar g found := second.grammar g (first.grammar g found)
  parsers thread p found := second.parsers thread p (first.parsers thread p found)

theorem Turn.Ran.extends {t : Turn τ} (ran : t.Ran) : t.after.cache.Extends t.before.cache := by
  obtain ⟨result, takes, -⟩ := ran.takes
  refine ⟨fun g found => ?_, fun thread p found => takes.parserFor_mono found⟩
  rcases ran.grammar_eq with same | ⟨unloaded, -⟩
  · rw [same, found]
  · rw [unloaded] at found
    cases found

theorem ran_of_mem_history {s : Session} {requests : List (Request τ)} {t : Turn τ}
    (mem : t ∈ history s requests) : t.Ran ∧ t.before.cache.Extends s.cache := by
  induction requests generalizing s with
  | nil => cases mem
  | cons r rest ih =>
    rcases List.mem_cons.1 mem with rfl | later
    · exact ⟨rfl, .refl _⟩
    · have first : (Turn.of s r).Ran := rfl
      exact ⟨(ih later).1, (ih later).2.trans first.extends⟩

/-- What a cache holds was loaded and prepared in the turns before. -/
structure Founded (past : List (Turn τ)) (c : Cache) : Prop where
  grammar : ∀ g, c.grammar = some g → ∃ load ∈ past, load.Loads g
  parsers : ∀ thread p, c.parserFor thread = some p →
    ∃ g, c.grammar = some g ∧ ∃ earlier ∈ past, earlier.Succeeds (.setLanguage p g)

namespace Founded

variable {past : List (Turn τ)} {c : Cache} {t : Turn τ}

theorem empty : Founded ([] : List (Turn τ)) {} where
  grammar g found := by cases found
  parsers thread p found := by cases found

/-- Where no grammar is there no thread has a parser. -/
theorem parserFor_eq_none (founded : Founded past c) (unloaded : c.grammar = none) (thread : Nat) :
    c.parserFor thread = none := by
  by_contra there
  obtain ⟨p, there⟩ := Option.ne_none_iff_exists'.1 there
  obtain ⟨g, loaded, -⟩ := founded.parsers thread p there
  rw [unloaded] at loaded
  cases loaded

theorem loads (founded : Founded past t.before.cache) (ran : t.Ran) {g : Nat}
    (found : t.after.cache.grammar = some g) : ∃ load ∈ past ++ [t], load.Loads g := by
  rcases ran.grammar_eq with same | ⟨unloaded, g', loads, loaded⟩
  · rw [same] at found
    obtain ⟨load, mem, loads⟩ := founded.grammar g found
    exact ⟨load, List.mem_append_left _ mem, loads⟩
  · obtain rfl : g = g' := Option.some.inj (found.symm.trans loaded)
    exact ⟨t, by simp, loads⟩

theorem turn (founded : Founded past t.before.cache) (ran : t.Ran) :
    Founded (past ++ [t]) t.after.cache where
  grammar g found := founded.loads ran found
  parsers thread p found := by
    rcases ran.parserFor_cases found with kept | ⟨-, g, loaded, succeeds, -⟩
    · obtain ⟨g, loaded, earlier, mem, prepared⟩ := founded.parsers thread p kept
      exact ⟨g, ran.extends.grammar g loaded, earlier, List.mem_append_left _ mem, prepared⟩
    · exact ⟨g, loaded, t, by simp, succeeds⟩

end Founded

/-- Where a turn stands in a history its cache is founded on the turns in front of it, and the turns
behind it go on from what it left. -/
theorem founded_of_history {past front behind : List (Turn τ)} {s : Session} {t : Turn τ}
    {requests : List (Request τ)} (founded : Founded past s.cache)
    (split : history s requests = front ++ t :: behind) :
    t.Ran ∧ Founded (past ++ front) t.before.cache ∧ ∃ rest, behind = history t.after rest := by
  induction front generalizing past s requests with
  | nil =>
    cases requests with
    | nil => cases split
    | cons r rest =>
      obtain ⟨rfl, rfl⟩ := List.cons.inj split
      rw [List.append_nil]
      exact ⟨rfl, founded, rest, rfl⟩
  | cons first front ih =>
    cases requests with
    | nil => cases split
    | cons r rest =>
      obtain ⟨rfl, following⟩ := List.cons.inj split
      have ran : (Turn.of s r).Ran := rfl
      have founded : Founded (past ++ [Turn.of s r]) (Turn.of s r).after.cache := founded.turn ran
      simpa using ih founded following

/-- Texts in any threads, in any order and whatever the calls to the library come to, leave an orderly
history. -/
theorem orderly_history (requests : List (Request τ)) :
    Orderly (history { cache := {} } requests) where
  reloads front t next behind split failed := by
    obtain ⟨ran, founded, rest, following⟩ := founded_of_history .empty split
    obtain ⟨result, takes, -⟩ := ran.takes
    have unloaded : t.after.cache.grammar = none := by
      rw [takes.eq_of_load_failed failed.1 failed.2]
      exact (takes.loads_once failed.1).1
    cases rest with
    | nil => cases following
    | cons r rest =>
      obtain ⟨rfl, -⟩ := List.cons.inj following
      have nextRan : (Turn.of t.after r).Ran := rfl
      obtain ⟨_, nextTakes, -⟩ := nextRan.takes
      exact nextTakes.head_of_unloaded unloaded ((founded.turn ran).parserFor_eq_none unloaded _)
  loadsOnce front t behind split succeeded := by
    obtain ⟨ran, -, rest, rfl⟩ := founded_of_history .empty split
    obtain ⟨result, takes, -⟩ := ran.takes
    obtain ⟨unloaded, once⟩ := takes.loads_once succeeded.1
    refine ⟨once, fun later mem load => ?_⟩
    obtain ⟨laterRan, grown⟩ := ran_of_mem_history mem
    obtain ⟨_, laterTakes, -⟩ := laterRan.takes
    have loaded := takes.grammar_of_loaded succeeded.1 succeeded.2
    have there := grown.grammar _ loaded
    rw [(laterTakes.loads_once load).1] at there
    cases there
  stores front t behind split thread p found := by
    obtain ⟨ran, founded, -⟩ := founded_of_history .empty split
    rcases ran.parserFor_cases found with kept | ⟨same, g, loaded, succeeds, -⟩
    · exact .inl kept
    -- The parser is new, so this turn gave it the grammar that is there afterwards.
    · exact .inr ⟨same, g, succeeds, founded.loads ran loaded⟩
  keeps front t behind split thread p found later mem same := by
    obtain ⟨-, -, rest, rfl⟩ := founded_of_history .empty split
    obtain ⟨laterRan, grown⟩ := ran_of_mem_history mem
    obtain ⟨_, takes, -⟩ := laterRan.takes
    have kept := grown.parsers thread p found
    rw [← same] at kept
    exact (takes.of_kept kept).1
  prepared front t behind split p parse := by
    obtain ⟨ran, founded, -⟩ := founded_of_history .empty split
    obtain ⟨result, takes, -⟩ := ran.takes
    rcases ran.parserFor_cases (takes.parserFor_of_parse parse) with
      kept | ⟨-, g, loaded, succeeds, asked⟩
    · obtain ⟨g, loaded, earlier⟩ := founded.parsers _ p kept
      exact ⟨g, founded.loads ran (ran.extends.grammar g loaded), .inl earlier⟩
    · exact ⟨g, founded.loads ran loaded, .inr ⟨succeeds, asked⟩⟩
  failing t mem failed := by
    have ran := (ran_of_mem_history mem).1
    obtain ⟨result, takes, error⟩ := ran.takes
    obtain ⟨e, rfl⟩ := error failed
    obtain ⟨last, lastCall, fails, parsers⟩ := takes.of_error rfl
    exact ⟨last, lastCall, ⟨List.mem_of_getLast? lastCall, fails⟩, ran.grammar_eq, parsers⟩

/-- The grammar cannot be loaded at first, and a parser of the second thread cannot take it. -/
example :
    let works : Library Unit := { parse := .ok () }
    let failure : LibraryFailure := ⟨.value, ""⟩
    (history { cache := {} } [⟨0, { works with loadGrammar := .error failure }⟩, ⟨0, works⟩,
        ⟨1, { works with setLanguage := .error failure }⟩, ⟨0, works⟩, ⟨1, works⟩]).map Turn.calls =
      [[.loadGrammar], [.loadGrammar, .makeParser, .setLanguage 0 0, .parse 0],
        [.makeParser, .setLanguage 1 0], [.parse 0], [.makeParser, .setLanguage 2 0, .parse 2]] :=
  rfl

end RustLint.Grammar
