import RustLint.Proofs.Text.Outdent
import Mathlib.Data.List.Forall2

set_option autoImplicit false

namespace RustLint.Text

/-- Spaces, tabulators behind them, and spaces behind these. -/
def IsIndentation (cs : List Char) : Prop :=
  ∃ spaces tabs behind, cs = List.replicate spaces ' ' ++
    (List.replicate tabs '\t' ++ List.replicate behind ' ')

/-- The line is the indentation and the result behind it, or it ends inside of the indentation and
nothing is left of it. -/
def Outdented (indentation line result : List Char) : Prop :=
  line = indentation ++ result ∨ (line <+: indentation ∧ result = [])

/-- The longest indentation that every non-empty line begins with. -/
structure IsLongestShared (indentation : List Char) (lines : List (List Char)) : Prop where
  form : IsIndentation indentation
  shared : ∀ line ∈ lines, line ≠ [] → indentation <+: line
  longest : ∀ other, IsIndentation other → (∀ line ∈ lines, line ≠ [] → other <+: line) →
    other <+: indentation

/-- The lines that trimming may change. -/
def candidates (ignoreFirst : Bool) (lines : List (List Char)) : List (List Char) :=
  if ignoreFirst then lines.drop 1 else lines

variable (c : Char) (lines : List (List Char))

/-! One pass. -/

/-- What two passes take off one after the other is taken off at once. -/
theorem Outdented.trans {first second line between result : List Char}
    (once : Outdented first line between) (again : Outdented second between result) :
    Outdented (first ++ second) line result := by
  rcases once with rfl | ⟨inside, rfl⟩
  · rcases again with rfl | ⟨inside, nothing⟩
    · exact .inl (List.append_assoc ..).symm
    · exact .inr ⟨(List.prefix_append_right_inj first).mpr inside, nothing⟩
  · have nothing : result = [] := by
      rcases again with joined | ⟨-, nothing⟩
      · exact (List.append_eq_nil_iff.mp joined.symm).2
      · exact nothing
    exact .inr ⟨inside.trans (List.prefix_append _ _), nothing⟩

/-- A pass takes its run off every line. -/
theorem outdented_commonRun (line : List Char) (listed : line ∈ lines) :
    Outdented (List.replicate (commonRun c lines) c) line (line.drop (commonRun c lines)) := by
  have run : line.take (commonRun c lines) =
      List.replicate (line.take (commonRun c lines)).length c :=
    List.eq_replicate_of_mem (eq_of_mem_take_commonRun c lines line listed)
  rcases Nat.le_total (commonRun c lines) line.length with enough | short
  · rw [List.length_take_of_le enough] at run
    left
    rw [← run, List.take_append_drop]
  · rw [List.take_of_length_le short] at run
    exact .inr ⟨List.prefix_replicate_iff.mpr ⟨short, run⟩, List.drop_eq_nil_of_le short⟩

theorem le_leastOr0 (ns : List Nat) (n : Nat) (some : ns ≠ []) (bound : ∀ m ∈ ns, n ≤ m) :
    n ≤ leastOr0 ns := by
  induction ns with
  | nil => exact absurd rfl some
  | cons m ms ih =>
    rw [List.forall_mem_cons] at bound
    cases ms with
    | nil => exact bound.1
    | cons k ks => exact Nat.le_min.mpr ⟨bound.1, ih (List.cons_ne_nil k ks) bound.2⟩

theorem map_drop_map_drop (m n : Nat) :
    (lines.map (List.drop m)).map (List.drop n) = lines.map (List.drop (m + n)) := by
  rw [List.map_map]
  exact List.map_congr_left fun line _ => List.drop_drop

theorem leadingCount_append (count : Nat) (line : List Char) :
    leadingCount c (List.replicate count c ++ line) = count + leadingCount c line := by
  rw [leadingCount, leadingCount, List.takeWhile_append_of_pos, List.length_append,
    List.length_replicate]
  intro d inRun
  rw [List.eq_of_mem_replicate inRun]
  exact beq_self_eq_true c

/-- There are lines that are not empty, and they all begin so. -/
structure CommonFront (front : List Char) (lines : List (List Char)) : Prop where
  written : ∃ line ∈ lines, line ≠ []
  begins : ∀ line ∈ lines, line ≠ [] → front <+: line

namespace CommonFront

variable {c : Char} {lines : List (List Char)}

theorem front {front behind : List Char} (shared : CommonFront (front ++ behind) lines) :
    CommonFront front lines :=
  ⟨shared.written, fun line listed written =>
    (List.prefix_append front behind).trans (shared.begins line listed written)⟩

/-- What is behind a part of the beginning is the beginning of the lines without that part. -/
theorem drop {front behind : List Char} (shared : CommonFront (front ++ behind) lines)
    (more : behind ≠ []) : CommonFront behind (lines.map (List.drop front.length)) := by
  constructor
  · obtain ⟨line, listed, written⟩ := shared.written
    obtain ⟨rest, rfl⟩ := shared.begins line listed written
    refine ⟨_, List.mem_map_of_mem listed, ?_⟩
    rw [List.append_assoc, List.drop_left]
    exact List.append_ne_nil_of_left_ne_nil more rest
  · intro cut listed written
    obtain ⟨line, ofLines, rfl⟩ := List.mem_map.mp listed
    have writtenLine : line ≠ [] := by
      rintro rfl
      exact written List.drop_nil
    obtain ⟨rest, rfl⟩ := shared.begins line ofLines writtenLine
    rw [List.append_assoc, List.drop_left]
    exact List.prefix_append behind rest

/-- A pass takes off a run that all lines begin with. -/
theorem le_commonRun {n : Nat} (shared : CommonFront (List.replicate n c) lines) :
    n ≤ commonRun c lines := by
  obtain ⟨line, listed, written⟩ := shared.written
  apply le_leastOr0
  · exact List.ne_nil_of_mem (List.mem_map_of_mem
      (List.mem_filter.mpr ⟨listed, by rwa [Bool.not_eq_true', List.isEmpty_eq_false_iff]⟩))
  · intro m counted
    obtain ⟨line, candidate, rfl⟩ := List.mem_map.mp counted
    obtain ⟨listed, written⟩ := List.mem_filter.mp candidate
    rw [Bool.not_eq_true', List.isEmpty_eq_false_iff] at written
    obtain ⟨rest, rfl⟩ := shared.begins line listed written
    rw [leadingCount_append]
    exact Nat.le_add_right _ _

/-- It takes off no more where the run ends in one of them. -/
theorem commonRun_eq {n : Nat} {d : Char} {behind : List Char} (other : d ≠ c)
    (shared : CommonFront (List.replicate n c ++ d :: behind) lines) : commonRun c lines = n := by
  refine Nat.le_antisymm (Nat.le_of_not_lt fun further => ?_) shared.front.le_commonRun
  obtain ⟨more, longer⟩ := Nat.exists_eq_add_of_lt further
  obtain ⟨line, listed, written⟩ := shared.written
  obtain ⟨rest, rfl⟩ := shared.begins line listed written
  refine other (eq_of_mem_take_commonRun c lines _ listed d ?_)
  rw [List.append_assoc, List.take_append, List.length_replicate, longer, Nat.add_assoc,
    Nat.add_sub_cancel_left]
  exact List.mem_append_right _ List.mem_cons_self

/-- Indentation that all lines begin with is taken off. -/
theorem length_le_sharedIndent {indentation : List Char} (form : IsIndentation indentation)
    (shared : CommonFront indentation lines) : indentation.length ≤ sharedIndent lines := by
  obtain ⟨spaces, tabs, behind, rfl⟩ := form
  rw [sharedIndent, List.length_append, List.length_append, List.length_replicate,
    List.length_replicate, List.length_replicate]
  cases tabs with
  | zero =>
    -- The spaces on both sides are one run.
    rw [List.replicate_zero, List.nil_append, List.replicate_append_replicate] at shared
    have first := shared.le_commonRun
    omega
  | succ tabs =>
    have first : commonRun ' ' lines = spaces := shared.commonRun_eq (by decide)
    have cut := shared.drop (List.cons_ne_nil _ _)
    rw [List.length_replicate] at cut
    simp only [first]
    cases behind with
    | zero =>
      have second := cut.front.le_commonRun
      omega
    | succ behind =>
      have second := cut.commonRun_eq (by decide)
      have third := (cut.drop (List.cons_ne_nil _ _)).le_commonRun
      rw [List.length_replicate, map_drop_map_drop] at third
      rw [second]
      omega

end CommonFront

/-! Three passes. -/

/-- What the passes take off. -/
def takenOff : List Char :=
  let spaces := commonRun ' ' lines
  let tabs := commonRun '\t' (lines.map (List.drop spaces))
  List.replicate spaces ' ' ++ (List.replicate tabs '\t' ++
    List.replicate (commonRun ' ' (lines.map (List.drop (spaces + tabs)))) ' ')

theorem length_takenOff : (takenOff lines).length = sharedIndent lines := by
  simp only [takenOff, sharedIndent, List.length_append, List.length_replicate, Nat.add_assoc]

theorem outdented_sharedIndent (line : List Char) (listed : line ∈ lines) :
    Outdented (takenOff lines) line (line.drop (sharedIndent lines)) := by
  have first := outdented_commonRun ' ' lines line listed
  have second := outdented_commonRun '\t' _ _
    (List.mem_map_of_mem (f := List.drop (commonRun ' ' lines)) listed)
  have third := outdented_commonRun ' ' _ _ (List.mem_map_of_mem (f := List.drop
    (commonRun ' ' lines + commonRun '\t' (lines.map (List.drop (commonRun ' ' lines))))) listed)
  rw [List.drop_drop] at second third
  rw [takenOff, sharedIndent]
  exact first.trans (second.trans third)

theorem isIndentation_takenOff : IsIndentation (takenOff lines) := ⟨_, _, _, rfl⟩

theorem isIndent_of_isIndentation (cs : List Char) (form : IsIndentation cs) :
    ∀ c ∈ cs, IsIndent c := by
  obtain ⟨spaces, tabs, behind, rfl⟩ := form
  intro c listed
  rcases List.mem_append.mp listed with space | later
  · exact .inl (List.eq_of_mem_replicate space)
  · rcases List.mem_append.mp later with tab | space
    · exact .inr (List.eq_of_mem_replicate tab)
    · exact .inl (List.eq_of_mem_replicate space)

/-- Without blank lines, all lines but empty ones begin with what the passes take off, and with no
longer indentation. -/
theorem isLongestShared_takenOff (some : ∃ line ∈ lines, line ≠ [])
    (solid : ∀ line ∈ lines, line ≠ [] → ∃ c ∈ line, ¬IsIndent c) :
    IsLongestShared (takenOff lines) lines := by
  have shared (line : List Char) (listed : line ∈ lines) (written : line ≠ []) :
      takenOff lines <+: line := by
    rcases outdented_sharedIndent lines line listed with whole | ⟨inside, -⟩
    · exact ⟨_, whole.symm⟩
    · obtain ⟨c, inLine, noIndent⟩ := solid line listed written
      exact absurd (isIndent_of_isIndentation _ (isIndentation_takenOff lines) c
        (inside.subset inLine)) noIndent
  refine ⟨isIndentation_takenOff lines, shared, fun other form begins => ?_⟩
  obtain ⟨line, listed, written⟩ := some
  apply List.prefix_of_prefix_length_le (begins line listed written) (shared line listed written)
  rw [length_takenOff]
  exact CommonFront.length_le_sharedIndent form ⟨⟨line, listed, written⟩, begins⟩

/-! The whole text. -/

theorem no_feed_of_mem_splitLineFeeds (cs : List Char) :
    ∀ line ∈ splitLineFeeds cs, '\n' ∉ line := by
  induction cs with
  | nil =>
    intro line listed
    rw [List.mem_singleton.mp listed]
    exact List.not_mem_nil
  | cons c cs ih =>
    obtain ⟨first, rest, split⟩ := splitLineFeeds_eq_cons cs
    rw [split, List.forall_mem_cons] at ih
    by_cases feed : c = '\n'
    · rw [feed, splitLineFeeds_feed, split]
      simpa using ih
    · rw [splitLineFeeds_cons c cs feed first rest split, List.forall_mem_cons]
      refine ⟨?_, ih.2⟩
      rw [List.mem_cons, not_or]
      exact ⟨Ne.symm feed, ih.1⟩

theorem splitLineFeeds_of_no_feed (cs : List Char) (noFeed : '\n' ∉ cs) :
    splitLineFeeds cs = [cs] :=
  splitAtAll_of_none _ cs fun _ listed => beq_false_of_ne (ne_of_mem_of_not_mem listed noFeed)

theorem splitLineFeeds_append_feed (line cs : List Char) (noFeed : '\n' ∉ line) :
    splitLineFeeds (line ++ '\n' :: cs) = line :: splitLineFeeds cs := by
  rw [splitLineFeeds, splitAtAll_append _ line cs '\n' rfl]
  exact congrArg (· ++ splitLineFeeds cs) (splitLineFeeds_of_no_feed line noFeed)

/-- Lines that are joined are the lines of the text. -/
theorem splitLineFeeds_joinLineFeeds (some : lines ≠ []) (noFeed : ∀ line ∈ lines, '\n' ∉ line) :
    splitLineFeeds (joinLineFeeds lines) = lines := by
  induction lines with
  | nil => exact absurd rfl some
  | cons line lines ih =>
    rw [List.forall_mem_cons] at noFeed
    cases lines with
    | nil => exact splitLineFeeds_of_no_feed line noFeed.1
    | cons next lines =>
      rw [joinLineFeeds, splitLineFeeds_append_feed line _ noFeed.1,
        ih (List.cons_ne_nil _ _) noFeed.2]
      exact List.cons_ne_nil _ _

theorem candidates_trimLines (ignoreFirst : Bool) :
    candidates ignoreFirst (trimLines ignoreFirst lines) =
      (candidates ignoreFirst lines).map
        (List.drop (sharedIndent (candidates ignoreFirst lines))) := by
  cases ignoreFirst with
  | false =>
    simp only [candidates, trimLines, trimRun, Bool.false_eq_true, ↓reduceIte,
      map_drop_map_drop, sharedIndent]
  | true =>
    cases lines with
    | nil => rfl
    | cons first rest =>
      rw [trimLines_cons]
      rfl

theorem length_trimLines (ignoreFirst : Bool) :
    (trimLines ignoreFirst lines).length = lines.length := by
  have pass (c : Char) (lines : List (List Char)) :
      (trimRun ignoreFirst c lines).length = lines.length := by
    rw [trimRun]
    split
    · rw [List.length_append, List.length_map, ← List.length_append, List.take_append_drop]
    · exact List.length_map _
  rw [trimLines, pass, pass, pass]

theorem head?_trimLines (lines : List (List Char)) :
    (trimLines true lines).head? = lines.head? := by
  cases lines with
  | nil => rfl
  | cons first rest => rw [trimLines_cons, List.head?_cons, List.head?_cons]

theorem no_feed_of_mem_trimRun (ignoreFirst : Bool) (noFeed : ∀ line ∈ lines, '\n' ∉ line) :
    ∀ line ∈ trimRun ignoreFirst c lines, '\n' ∉ line := by
  have cut (count : Nat) (some : List (List Char)) (part : some ⊆ lines) :
      ∀ line ∈ some.map (List.drop count), '\n' ∉ line := by
    intro result listed feed
    obtain ⟨line, ofSome, rfl⟩ := List.mem_map.mp listed
    exact noFeed line (part ofSome) (List.mem_of_mem_drop feed)
  rw [trimRun]
  split
  · rw [List.forall_mem_append]
    exact ⟨fun line listed => noFeed line (List.mem_of_mem_take listed),
      cut _ _ (List.drop_subset 1 lines)⟩
  · exact cut _ _ (List.Subset.refl lines)

/-- The lines of the trimmed text are the trimmed lines. -/
theorem splitLineFeeds_trimMultiline (text : String) (ignoreFirst : Bool) :
    splitLineFeeds (trimMultiline text ignoreFirst).toList =
      trimLines ignoreFirst (splitLineFeeds text.toList) := by
  rw [trimMultiline, String.toList_ofList, splitLineFeeds_joinLineFeeds]
  · apply List.ne_nil_of_length_pos
    rw [length_trimLines]
    exact List.length_pos_of_ne_nil (splitAtAll_ne_nil _ _)
  · have noFeed := no_feed_of_mem_splitLineFeeds text.toList
    exact no_feed_of_mem_trimRun _ _ _ (no_feed_of_mem_trimRun _ _ _
      (no_feed_of_mem_trimRun _ _ _ noFeed))

/-- For every text and both ways to treat its first line: trimming keeps the number of lines, and
the first line where it is not to change. From the lines that may change it takes off one
indentation, and from a line that ends inside of that indentation all there is. Unless all of these
lines are empty or one of them is blank, it is the longest indentation that they share. -/
theorem trimMultiline_takesOff (text : String) (ignoreFirst : Bool) :
    let lines := splitLineFeeds text.toList
    let results := splitLineFeeds (trimMultiline text ignoreFirst).toList
    results.length = lines.length ∧
      (ignoreFirst = true → results.head? = lines.head?) ∧
      ∃ indentation, IsIndentation indentation ∧
        List.Forall₂ (Outdented indentation) (candidates ignoreFirst lines)
          (candidates ignoreFirst results) ∧
        ((∃ line ∈ candidates ignoreFirst lines, line ≠ []) →
          (∀ line ∈ candidates ignoreFirst lines, line ≠ [] → ∃ c ∈ line, ¬IsIndent c) →
            IsLongestShared indentation (candidates ignoreFirst lines)) := by
  intro lines results
  have trimmed : results = trimLines ignoreFirst lines := splitLineFeeds_trimMultiline text _
  rw [trimmed]
  refine ⟨length_trimLines lines ignoreFirst, ?_, takenOff (candidates ignoreFirst lines),
    isIndentation_takenOff _, ?_, isLongestShared_takenOff _⟩
  · rintro rfl
    exact head?_trimLines lines
  · rw [candidates_trimLines, List.forall₂_map_right_iff, List.forall₂_same]
    exact outdented_sharedIndent _

/-! The text `{⏎ ⇥a⏎⏎ ⇥  b`, which has an empty line and two that share a space and a tabulator. -/

def mixedSample : String := "\x7b\n \ta\n\n \t  b"

theorem trimMultiline_mixedSample :
    (splitLineFeeds (trimMultiline mixedSample true).toList).head? = some ['\x7b'] ∧
      ∃ indentation, List.Forall₂ (Outdented indentation)
          [[' ', '\t', 'a'], [], [' ', '\t', ' ', ' ', 'b']] [['a'], [], [' ', ' ', 'b']] ∧
        IsLongestShared indentation [[' ', '\t', 'a'], [], [' ', '\t', ' ', ' ', 'b']] := by
  obtain ⟨-, first, indentation, -, outdented, longest⟩ := trimMultiline_takesOff mixedSample true
  have lines : candidates true (splitLineFeeds mixedSample.toList) =
      [[' ', '\t', 'a'], [], [' ', '\t', ' ', ' ', 'b']] := by decide +kernel
  have results : candidates true (splitLineFeeds (trimMultiline mixedSample true).toList) =
      [['a'], [], [' ', ' ', 'b']] := by decide +kernel
  rw [lines, results] at outdented
  rw [lines] at longest
  refine ⟨first rfl, indentation, outdented, longest ⟨_, List.mem_cons_self, by decide⟩ ?_⟩
  simp [IsIndent]

end RustLint.Text
