import RustLint.Proofs.Text.Indentation

set_option autoImplicit false

namespace RustLint.Text

variable (count : Nat) (lines : List (List Char))

/-! The lines of the indented text. -/

theorem indentLine_of_ne_nil (indent line : List Char) (written : line ≠ []) :
    indentLine indent line = indent ++ line := by
  rw [indentLine, List.isEmpty_eq_false_iff.mpr written]
  rfl

theorem no_feed_indentLine (indent line : List Char) (solid : '\n' ∉ indent)
    (noFeed : '\n' ∉ line) : '\n' ∉ indentLine indent line := by
  rw [indentLine]
  split
  · exact List.not_mem_nil
  · rw [List.mem_append, not_or]
    exact ⟨solid, noFeed⟩

/-- The lines of the indented text are the indented lines. -/
theorem splitLineFeeds_reindent (text indent : String) (solid : '\n' ∉ indent.toList) :
    splitLineFeeds (reindent text indent).toList =
      reindentLines indent.toList (splitLineFeeds text.toList) := by
  obtain ⟨first, rest, lines⟩ := splitLineFeeds_eq_cons text.toList
  have noFeed := no_feed_of_mem_splitLineFeeds text.toList
  rw [lines, List.forall_mem_cons] at noFeed
  rw [reindent, String.toList_ofList, lines, splitLineFeeds_joinLineFeeds]
  · exact List.cons_ne_nil _ _
  · rw [reindentLines, List.forall_mem_cons, List.forall_mem_map]
    exact ⟨noFeed.1, fun line listed => no_feed_indentLine _ line solid (noFeed.2 line listed)⟩

/-! What they share. -/

theorem leastOr0_map_add (ns : List Nat) (some : ns ≠ []) :
    leastOr0 (ns.map (count + ·)) = count + leastOr0 ns := by
  induction ns with
  | nil => exact absurd rfl some
  | cons n ns ih =>
    cases ns with
    | nil => rfl
    | cons m ms =>
      have least : leastOr0 (n :: m :: ms) = min n (leastOr0 (m :: ms)) := rfl
      have leastMore : leastOr0 ((n :: m :: ms).map (count + ·)) =
          min (count + n) (leastOr0 ((m :: ms).map (count + ·))) := rfl
      rw [leastMore, ih (List.cons_ne_nil m ms), least, Nat.add_min_add_left]

/-- The lines that count are the same as before, with the indentation in front. -/
theorem filter_indentLine (indent : List Char) :
    (lines.map (indentLine indent)).filter (!·.isEmpty) =
      (lines.filter (!·.isEmpty)).map (indent ++ ·) := by
  induction lines with
  | nil => rfl
  | cons line lines ih =>
    cases line with
    | nil => exact ih
    | cons c line =>
      have written : indent ++ c :: line ≠ [] :=
        List.append_ne_nil_of_right_ne_nil indent (List.cons_ne_nil c line)
      rw [List.map_cons, indentLine_of_ne_nil indent _ (List.cons_ne_nil c line),
        List.filter_cons_of_pos (by simp [written]), ih]
      rfl

/-- Where a line is written, an indentation by spaces adds to the run that the first pass takes. -/
theorem commonRun_indentLine (c : Char) (some : ∃ line ∈ lines, line ≠ []) :
    commonRun c (lines.map (indentLine (List.replicate count c))) =
      count + commonRun c lines := by
  obtain ⟨line, listed, written⟩ := some
  have counts : line ∈ lines.filter (!·.isEmpty) :=
    List.mem_filter.mpr ⟨listed, by rwa [Bool.not_eq_true', List.isEmpty_eq_false_iff]⟩
  rw [commonRun, commonRun, filter_indentLine, List.map_map,
    ← leastOr0_map_add count _ (List.ne_nil_of_mem (List.mem_map_of_mem counts)), List.map_map]
  congr 1
  exact List.map_congr_left fun line _ => leadingCount_append c count line

/-- Cutting further than the indentation goes cuts what is behind it. -/
theorem map_drop_indentLine (indent : List Char) (further : Nat) :
    (lines.map (indentLine indent)).map (List.drop (indent.length + further)) =
      lines.map (List.drop further) := by
  rw [List.map_map]
  refine List.map_congr_left fun line _ => ?_
  rw [Function.comp_apply]
  by_cases empty : line = []
  · rw [empty, List.drop_nil]
    exact List.drop_nil
  · rw [indentLine_of_ne_nil indent line empty, List.drop_length_add_append]

theorem sharedIndent_indentLine (some : ∃ line ∈ lines, line ≠ []) :
    sharedIndent (lines.map (indentLine (List.replicate count ' '))) =
      count + sharedIndent lines := by
  have first := commonRun_indentLine count lines ' ' some
  have cut (further : Nat) := map_drop_indentLine lines (List.replicate count ' ') further
  rw [List.length_replicate] at cut
  simp only [sharedIndent, first, Nat.add_assoc, cut]

/-- Trimming sees no difference between the lines and the indented lines. -/
theorem trimLines_reindentLines :
    trimLines true (reindentLines (List.replicate count ' ') lines) = trimLines true lines := by
  cases lines with
  | nil => rfl
  | cons first rest =>
    rw [reindentLines, trimLines_cons, trimLines_cons]
    by_cases some : ∃ line ∈ rest, line ≠ []
    · have cut := map_drop_indentLine rest (List.replicate count ' ') (sharedIndent rest)
      rw [List.length_replicate] at cut
      rw [sharedIndent_indentLine count rest some, cut]
    · -- Without a written line nothing is indented.
      have same : rest.map (indentLine (List.replicate count ' ')) = rest := by
        refine (List.map_congr_left fun line listed => ?_).trans (List.map_id rest)
        have empty : line = [] := not_not.mp fun written => some ⟨line, listed, written⟩
        rw [empty]
        rfl
      rw [same]

/-- For every text and every number of spaces: trimming what is indented by them gives what
trimming the text gives. -/
theorem trimMultiline_reindent (text : String) (count : Nat) :
    trimMultiline (reindent text (String.ofList (List.replicate count ' '))) true =
      trimMultiline text true := by
  have solid : '\n' ∉ (String.ofList (List.replicate count ' ')).toList := by
    rw [String.toList_ofList]
    intro feed
    exact absurd (List.eq_of_mem_replicate feed) (by decide)
  rw [trimMultiline, splitLineFeeds_reindent text _ solid, String.toList_ofList,
    trimLines_reindentLines, trimMultiline]

end RustLint.Text
