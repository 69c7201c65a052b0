import RustLint.Proofs.Index.Resolution
import RustLint.Proofs.Text.Insertions
import RustLint.Proofs.Text.Reindent
import RustLint.Rules.NewWithoutDefault

set_option autoImplicit false

namespace RustLint

open Text (encode position EndsLine IsIndent splitLineFeeds joinLineFeeds indentLine)

namespace Text

variable (cs front : List Char)

/-! Lines. -/

theorem joinLineFeeds_splitLineFeeds : joinLineFeeds (splitLineFeeds cs) = cs := by
  obtain ⟨first, rest, split⟩ := splitLineFeeds_eq_cons cs
  have joined := outdentFrom_eq_join 0 0 cs first rest split
  have whole : rest.map (List.drop 0) = rest := List.map_id rest
  rw [outdentFrom_zero, List.drop_zero, whole] at joined
  rw [split, ← joined]

/-- What has no line feed stands in front of the first line. -/
theorem splitLineFeeds_append (noFeed : '\n' ∉ front) (first : List Char) (rest : List (List Char))
    (split : splitLineFeeds cs = first :: rest) :
    splitLineFeeds (front ++ cs) = (front ++ first) :: rest := by
  induction front with
  | nil => exact split
  | cons c front ih =>
    rw [List.mem_cons, not_or] at noFeed
    exact splitLineFeeds_cons c _ (Ne.symm noFeed.1) _ rest (ih noFeed.2)

/-- Indentation in front of the reindented text makes up for the line that is left alone. -/
theorem splitLineFeeds_indent_reindent (text indent : String) (noFeed : '\n' ∉ indent.toList)
    (first : List Char) (rest : List (List Char)) (written : first ≠ [])
    (split : splitLineFeeds text.toList = first :: rest) :
    splitLineFeeds (indent.toList ++ (reindent text indent).toList) =
      (splitLineFeeds text.toList).map (indentLine indent.toList) := by
  have lines := splitLineFeeds_reindent text indent noFeed
  rw [split, reindentLines] at lines
  rw [splitLineFeeds_append _ _ noFeed _ _ lines, split, List.map_cons,
    indentLine_of_ne_nil _ first written]

theorem prefix_joinLineFeeds (first : List Char) (rest : List (List Char)) :
    first <+: joinLineFeeds (first :: rest) := by
  cases rest with
  | nil => exact List.prefix_refl first
  | cons next rest => exact List.prefix_append first _

theorem prefix_indentLine (indent line : List Char) (written : indentLine indent line ≠ []) :
    indent <+: indentLine indent line := by
  by_cases empty : line = []
  · rw [empty] at written
    exact absurd rfl written
  · rw [indentLine_of_ne_nil indent line empty]
    exact List.prefix_append indent line

/-- What follows the last double colon ends the text. -/
theorem suffix_of_afterLastColons? (segment : List Char)
    (found : afterLastColons? cs = some segment) : segment <:+ cs := by
  induction cs with
  | nil => cases found
  | cons c cs ih =>
    rw [CrateIndex.afterLastColons?_cons, Option.or_eq_some_iff] at found
    rcases found with later | ⟨-, here⟩
    · exact (ih later).trans (List.suffix_cons c cs)
    · split at here
      · cases here
        exact (List.suffix_cons _ _).trans (List.suffix_cons _ _)
      · cases here

theorem mem_of_mem_lastSegment (path : String) (c : Char)
    (listed : c ∈ (lastSegment path).toList) : c ∈ path.toList := by
  unfold lastSegment at listed
  split at listed
  · next segment found =>
    rw [String.toList_ofList] at listed
    exact (suffix_of_afterLastColons? _ segment found).subset listed
  · exact listed

end Text

/-- The name of a trait that a path resolves to is written on one line. -/
theorem CrateIndex.noFeed_of_resolved (index : CrateIndex) (path : String) (trait : TraitId)
    (resolved : index.resolveTrait? path = some trait) : '\n' ∉ trait.name.toList := by
  have prelude : ∀ entry ∈ StdLibrary.preludeTraits, '\n' ∉ entry.2.toList := by decide +kernel
  have front : '\n' ∉ "crate::".toList := by decide
  intro listed
  have inPath := Text.mem_of_mem_lastSegment trait.path '\n' listed
  cases last : (Text.segments (Text.normalizePath path)).getLast? with
  | none =>
    rw [resolveTrait?, last] at resolved
    cases resolved
  | some name =>
    rcases path_of_resolved index path name trait last resolved with ⟨own, -⟩ | standard
    · obtain ⟨segment, part, rfl⟩ := List.mem_map.mp (List.mem_of_getLast? last)
      rw [own, String.toList_append, List.mem_append] at inPath
      rcases inPath with crate | inside
      · exact front crate
      · rw [String.toList_ofList] at inside
        have visible := visible_normalizePath path '\n'
          (mem_of_mem_splitAtColons _ segment part '\n' inside)
        exact absurd visible (by decide)
    · exact prelude _ (mem_preludeTraits name trait.path standard) inPath

/-! Spans that begin a line. -/

/-- The span lies between characters of the file, and only spaces and tabulators stand in front of
it on its line. -/
structure Source.OpensLine (s : Source) (span : Span) : Prop where
  start : 0 ≤ span.lo
  ordered : span.lo ≤ span.hi
  first : s.IsBoundary span.lo.toNat
  last : s.IsBoundary span.hi.toNat
  indent : ∀ c ∈ (s.charsBefore span.lo).rtakeWhile (· != '\n'), IsIndent c

/-- The text is made up of whole lines, an indentation, what the span marks and the rest. -/
structure Source.Layout (s : Source) (span : Span) (above indent part after : List Char) :
    Prop where
  marks : s.Marks span (above ++ indent) part after
  ends : EndsLine above
  blank : ∀ c ∈ indent, IsIndent c

theorem Source.OpensLine.exists_layout {s : Source} {span : Span} (opens : s.OpensLine span) :
    ∃ above indent part after, s.Layout span above indent part after := by
  obtain ⟨before, part, after, marks⟩ :=
    s.exists_marks span opens.start opens.ordered opens.first opens.last
  obtain ⟨above, indent, rfl, noFeed, ends⟩ := Text.exists_lines before
  have blank := opens.indent
  rw [marks.lo, s.charsBefore_front _ (part ++ after) (by rw [marks.written, List.append_assoc]),
    Text.rtakeWhile_append_of_forall _ above indent ?_ ends.rtakeWhile_chars] at blank
  · exact ⟨above, indent, part, after, marks, ends, blank⟩
  · intro c listed
    rw [bne_iff_ne]
    rintro rfl
    exact noFeed listed

namespace Source.Layout

variable {s : Source} {span : Span} {above indent part after : List Char}
  (layout : s.Layout span above indent part after)

include layout

theorem noFeed : '\n' ∉ indent := fun listed => by
  rcases layout.blank '\n' listed with feed | feed <;> exact absurd feed (by decide)

theorem written : s.text.toList = above ++ indent ++ (part ++ after) := by
  rw [layout.marks.written, List.append_assoc]

theorem indentOf_eq : s.indentOf span = String.ofList indent :=
  s.indentOf_front (part ++ after) span above indent layout.written layout.ends layout.blank
    layout.marks.lo

theorem lineCol_lo : s.lineCol span.lo = (above.count '\n' + 1, indent.length + 1) := by
  rw [layout.marks.lo, s.lineCol_front _ (part ++ after) layout.written,
    Text.position_append above indent layout.ends layout.noFeed]

theorem line_hi : (s.lineCol span.hi).1 = (above ++ indent ++ part).count '\n' + 1 := by
  rw [layout.marks.hi, s.lineCol_front _ after layout.marks.written]
  rfl

end Source.Layout

namespace NewWithoutDefault

/-! The attribute. -/

/-- Once the edit is made, the attribute stands where the definition stood, and the definition with
its text one line lower in the same column; taking the attribute out gives the file back. -/
structure PutsAbove (source : Source) (definition : Span) (edit : Suggestion) : Prop where
  above : (edit.edited source).lineCol definition.lo = source.lineCol definition.lo
  below : (edit.edited source).lineCol
      (definition.moved (encode edit.replacement.toList).length).lo =
    ((source.lineCol definition.lo).1 + 1, (source.lineCol definition.lo).2)
  text : (edit.edited source).snippet
      (definition.moved (encode edit.replacement.toList).length) = source.snippet definition
  undone : edit.undo.edited (edit.edited source) = source

/-- The line of the attribute. -/
def attributeLine (trait : TraitId) : List Char := ("#[derive(" ++ trait.name ++ ")]\n").toList

theorem count_attributeLine (trait : TraitId) (noFeed : '\n' ∉ trait.name.toList) :
    (attributeLine trait).count '\n' = 1 := by
  rw [attributeLine, String.toList_append, String.toList_append, List.count_append,
    List.count_append, List.count_eq_zero.mpr noFeed]
  decide

theorem endsLine_attributeLine (front : List Char) (trait : TraitId) :
    EndsLine (front ++ attributeLine trait) := by
  have feed : ")]\n".toList = ")]".toList ++ ['\n'] := by decide
  exact .inr ⟨_, by rw [attributeLine, String.toList_append, feed, ← List.append_assoc,
    ← List.append_assoc]⟩

theorem deriveSuggestion_putsAbove (source : Source) (definition : Span) (trait : TraitId)
    (opens : source.OpensLine definition) (noFeed : '\n' ∉ trait.name.toList) :
    PutsAbove source definition (deriveSuggestion definition source trait) := by
  obtain ⟨above, indent, part, after, layout⟩ := opens.exists_layout
  have replacement : (deriveSuggestion definition source trait).replacement.toList =
      attributeLine trait ++ indent := by
    rw [deriveSuggestion, layout.indentOf_eq, String.toList_append, String.toList_ofList]
    rfl
  have inserts : source.Marks (deriveSuggestion definition source trait).span (above ++ indent) []
      (part ++ after) :=
    { written := by rw [List.append_nil, layout.written]
      lo := layout.marks.lo
      hi := by rw [List.append_nil]; exact layout.marks.lo }
  have moved := Suggestion.marks_moved inserts layout.marks
  have front : above ++ indent ++ (attributeLine trait ++ indent) =
      (above ++ indent ++ attributeLine trait) ++ indent := (List.append_assoc ..).symm
  refine ⟨?_, ?_, ?_, Suggestion.edited_undo inserts⟩
  · have edited := Suggestion.toList_edited inserts
    rw [List.append_assoc] at edited
    rw [layout.lineCol_lo, layout.marks.lo, Source.lineCol_front _ _ _ edited,
      Text.position_append above indent layout.ends layout.noFeed]
  · have edited := moved.written
    rw [List.append_assoc] at edited
    rw [layout.lineCol_lo, moved.lo, Source.lineCol_front _ _ _ edited, replacement, front,
      Text.position_append _ indent (endsLine_attributeLine _ trait) layout.noFeed,
      List.count_append, List.count_append, List.count_eq_zero.mpr layout.noFeed,
      count_attributeLine trait noFeed]
  · rw [moved.snippet_eq, layout.marks.snippet_eq]

/-! The implementation. -/

/-- Once the edit is made, the new `impl` begins two lines below the end of the old one, in the
column of the old one; taking it out gives the file back. In front of its lines, as far as they are
not empty, stands the indentation of the old one, and without it they are an empty line and the
template. -/
structure PutsBelow (source : Source) (impl : ImplBlock) (trait : TraitId) (edit : Suggestion) :
    Prop where
  place : (edit.edited source).lineCol
      (impl.span.hi + 2 + (encode (source.indentOf impl.span).toList).length) =
    ((source.lineCol impl.span.hi).1 + 2, (source.lineCol impl.span.lo).2)
  keyword : (edit.edited source).snippet
      ⟨impl.span.hi + 2 + (encode (source.indentOf impl.span).toList).length,
        impl.span.hi + 2 + (encode (source.indentOf impl.span).toList).length + 4, 0⟩ = "impl"
  undone : edit.undo.edited (edit.edited source) = source
  indented : ∀ line ∈ splitLineFeeds edit.replacement.toList, line ≠ [] →
    (source.indentOf impl.span).toList <+: line
  outdented : joinLineFeeds ((splitLineFeeds edit.replacement.toList).map
      (List.drop (source.indentOf impl.span).length)) =
    "\n\n".toList ++ (manualImpl impl trait).toList

/-- The template begins with the keyword. -/
theorem exists_manualImpl (impl : ImplBlock) (trait : TraitId) :
    ∃ rest, (manualImpl impl trait).toList = "impl".toList ++ rest := by
  simp only [manualImpl, String.toList_append, List.append_assoc]
  exact ⟨_, rfl⟩

/-- The first line of the template begins with the keyword. -/
theorem exists_lines_manualImpl (impl : ImplBlock) (trait : TraitId) :
    ∃ first rest, splitLineFeeds (manualImpl impl trait).toList =
      ("impl".toList ++ first) :: rest := by
  obtain ⟨behind, chars⟩ := exists_manualImpl impl trait
  obtain ⟨first, rest, split⟩ := Text.splitLineFeeds_eq_cons behind
  refine ⟨first, rest, ?_⟩
  rw [chars, Text.splitLineFeeds_append behind _ (by decide) first rest split]

theorem prefix_reindent_manualImpl (impl : ImplBlock) (trait : TraitId) (indentation : String) :
    "impl".toList <+: (Text.reindent (manualImpl impl trait) indentation).toList := by
  obtain ⟨first, rest, lines⟩ := exists_lines_manualImpl impl trait
  have chars : (Text.reindent (manualImpl impl trait) indentation).toList = joinLineFeeds
      (("impl".toList ++ first) :: rest.map (indentLine indentation.toList)) := by
    rw [Text.reindent, String.toList_ofList, lines, Text.reindentLines]
  rw [chars]
  exact (List.prefix_append _ first).trans (Text.prefix_joinLineFeeds _ _)

section

variable {source : Source} {impl : ImplBlock} {above indent part after : List Char}
  (layout : source.Layout impl.span above indent part after) (trait : TraitId)

include layout

theorem toList_manualSuggestion : (manualSuggestion impl source trait).replacement.toList =
    '\n' :: '\n' ::
      (indent ++ (Text.reindent (manualImpl impl trait) (String.ofList indent)).toList) := by
  have chars : (String.ofList indent).toList = indent := String.toList_ofList
  rw [manualSuggestion, layout.indentOf_eq, String.toList_append, String.toList_append, chars,
    List.append_assoc]
  rfl

/-- The lines that are put in are an empty one and those of the template, all indented. -/
theorem lines_manualSuggestion :
    splitLineFeeds (manualSuggestion impl source trait).replacement.toList =
      (splitLineFeeds ('\n' :: '\n' :: (manualImpl impl trait).toList)).map
        (indentLine indent) := by
  obtain ⟨first, rest, lines⟩ := exists_lines_manualImpl impl trait
  have chars : (String.ofList indent).toList = indent := String.toList_ofList
  have indented := Text.splitLineFeeds_indent_reindent (manualImpl impl trait)
    (String.ofList indent) (by rw [chars]; exact layout.noFeed) _ rest (by simp) lines
  rw [chars] at indented
  rw [toList_manualSuggestion layout, Text.splitLineFeeds_feed, Text.splitLineFeeds_feed, indented,
    Text.splitLineFeeds_feed, Text.splitLineFeeds_feed]
  rfl

/-- Nothing is marked of the file by the place behind the old `impl`. -/
theorem marks_manualSuggestion :
    source.Marks (manualSuggestion impl source trait).span (above ++ indent ++ part) [] after where
  written := by rw [List.append_nil, layout.marks.written]
  lo := layout.marks.hi
  hi := by rw [List.append_nil]; exact layout.marks.hi

/-- The keyword of the new `impl` stands behind an empty line and the indentation. -/
theorem marks_keyword : ∃ behind, ((manualSuggestion impl source trait).edited source).Marks
    ⟨impl.span.hi + 2 + (encode indent).length, impl.span.hi + 2 + (encode indent).length + 4, 0⟩
    (above ++ indent ++ part ++ ['\n', '\n'] ++ indent) "impl".toList behind := by
  obtain ⟨more, begins⟩ := prefix_reindent_manualImpl impl trait (String.ofList indent)
  have start : impl.span.hi + 2 + (encode indent).length =
      (encode (above ++ indent ++ part ++ ['\n', '\n'] ++ indent)).length := by
    rw [layout.marks.hi, Text.encode_append _ indent, Text.encode_append (above ++ indent ++ part),
      List.length_append, List.length_append]
    rfl
  refine ⟨more ++ after, ?_, start, ?_⟩
  · rw [Suggestion.toList_edited (marks_manualSuggestion layout trait),
      toList_manualSuggestion layout, ← begins]
    simp only [List.append_assoc, List.cons_append, List.nil_append]
  · rw [start, Text.encode_append _ "impl".toList, List.length_append]
    rfl

end

theorem manualSuggestion_putsBelow (source : Source) (impl : ImplBlock) (trait : TraitId)
    (opens : source.OpensLine impl.span) :
    PutsBelow source impl trait (manualSuggestion impl source trait) := by
  obtain ⟨above, indent, part, after, layout⟩ := opens.exists_layout
  have chars : (source.indentOf impl.span).toList = indent := by
    rw [layout.indentOf_eq, String.toList_ofList]
  have lines := lines_manualSuggestion layout trait
  obtain ⟨behind, new⟩ := marks_keyword layout trait
  refine ⟨?_, ?_, Suggestion.edited_undo (marks_manualSuggestion layout trait), ?_, ?_⟩
  · have edited := new.written
    have start := new.lo
    dsimp only at start
    have feeds : EndsLine (above ++ indent ++ part ++ ['\n', '\n']) :=
      .inr ⟨above ++ indent ++ part ++ ['\n'], by rw [List.append_assoc _ ['\n']]; rfl⟩
    rw [List.append_assoc] at edited
    rw [chars, start, Source.lineCol_front _ _ _ edited,
      Text.position_append _ indent feeds layout.noFeed, layout.line_hi, layout.lineCol_lo,
      List.count_append]
    rfl
  · rw [chars, new.snippet_eq, String.ofList_toList]
  · rw [chars, lines, List.forall_mem_map]
    exact fun line _ written => Text.prefix_indentLine indent line written
  · have dropped := Text.map_drop_indentLine
      (splitLineFeeds ('\n' :: '\n' :: (manualImpl impl trait).toList)) indent 0
    have whole (some : List (List Char)) : some.map (List.drop 0) = some := List.map_id some
    rw [Nat.add_zero, whole] at dropped
    rw [← String.length_toList, chars, lines, dropped, Text.joinLineFeeds_splitLineFeeds]
    rfl

/-- For every file and every span with nothing but spaces and tabulators in front of it on its
line. The edit for a definition at the span puts the attribute above it, and the edit for an `impl`
at the span puts the new one below it. The trait may be any whose name is written on one line, as
the name of each trait is that a path resolves to. -/
theorem edits_keepLayout (source : Source) (span : Span) (opens : source.OpensLine span) :
    (∀ trait, '\n' ∉ trait.name.toList →
        PutsAbove source span (deriveSuggestion span source trait)) ∧
      (∀ impl trait, impl.span = span →
        PutsBelow source impl trait (manualSuggestion impl source trait)) ∧
      ∀ (index : CrateIndex) path trait, index.resolveTrait? path = some trait →
        '\n' ∉ trait.name.toList := by
  refine ⟨fun trait noFeed => deriveSuggestion_putsAbove source span trait opens noFeed, ?_,
    CrateIndex.noFeed_of_resolved⟩
  rintro impl trait rfl
  exact manualSuggestion_putsBelow source impl trait opens

/-! An `impl` behind a tabulator and a space, with type parameters on lines of their own. -/

def indentedFile : Source :=
  ⟨"mod käfig \x7b\n\t impl<\n\t\t T,\n\t > Käfig<T> \x7b\x7d\n\x7d\n", none⟩

def indentedImpl : ImplBlock where
  generics := ⟨[⟨.type, "T"⟩], "<\n\t\t T,\n\t >"⟩
  trait := none
  selfTy := { kind := .path, name := "Käfig", span := ⟨31, 40, 0⟩, text := "Käfig<T>" }
  items := []
  span := ⟨15, 43, 0⟩
  exported := true

theorem indentedFile_opensLine : indentedFile.OpensLine indentedImpl.span where
  start := by decide
  ordered := by decide
  first := ⟨_, _, (List.take_append_drop 14 _).symm, by decide⟩
  last := ⟨_, _, (List.take_append_drop 41 _).symm, by decide⟩
  indent := by
    have line : (indentedFile.charsBefore indentedImpl.span.lo).rtakeWhile (· != '\n') =
        ['\t', ' '] := by decide +kernel
    rw [line]
    simp [IsIndent]

theorem edits_keepLayout_indentedFile :
    PutsAbove indentedFile indentedImpl.span
        (deriveSuggestion indentedImpl.span indentedFile ⟨"core::default::Default"⟩) ∧
      PutsBelow indentedFile indentedImpl ⟨"core::default::Default"⟩
        (manualSuggestion indentedImpl indentedFile ⟨"core::default::Default"⟩) ∧
      (manualSuggestion indentedImpl indentedFile ⟨"core::default::Default"⟩).replacement =
        "\n\n\t impl<\n\t \t\t T,\n\t \t > Default for Käfig<T> \x7b\n" ++
          "\t     fn default() -> Self \x7b\n\t         Self::new()\n\t     \x7d\n\t \x7d" := by
  obtain ⟨derives, implements, -⟩ :=
    edits_keepLayout indentedFile indentedImpl.span indentedFile_opensLine
  exact ⟨derives _ (by decide +kernel), implements indentedImpl _ rfl, by decide +kernel⟩

end NewWithoutDefault

end RustLint
