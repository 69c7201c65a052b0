import RustLint.Proofs.Text.Indentation
import RustLint.Report.Human

set_option autoImplicit false

namespace RustLint.Report

/-- The lines of a text between its line feeds. -/
def rows (text : String) : List String := (Text.splitLineFeeds text.toList).map String.ofList

/-- The line is neither empty nor indented. -/
def atMargin (line : String) : Bool := line.toList.head?.any (· != ' ')

theorem no_feed_of_mem_rows {text line : String} (listed : line ∈ rows text) :
    '\n' ∉ line.toList := by
  obtain ⟨cs, between, rfl⟩ := List.mem_map.mp listed
  rw [String.toList_ofList]
  exact Text.no_feed_of_mem_splitLineFeeds text.toList cs between

theorem rows_of_no_feed {line : String} (noFeed : '\n' ∉ line.toList) : rows line = [line] := by
  rw [rows, Text.splitLineFeeds_of_no_feed _ noFeed, List.map_singleton, String.ofList_toList]

theorem rows_append_feed (front behind : String) :
    rows (front ++ "\n" ++ behind) = rows front ++ rows behind := by
  have feed : "\n".toList = ['\n'] := rfl
  rw [rows, String.toList_append, String.toList_append, feed, List.append_assoc,
    List.singleton_append, Text.splitLineFeeds, Text.splitAtAll_append _ _ _ '\n' rfl,
    List.map_append]
  rfl

/-- The lines of joined texts are those of the texts. -/
theorem rows_intercalate (texts : List String) (some : texts ≠ []) :
    rows (String.intercalate "\n" texts) = texts.flatMap rows := by
  induction texts with
  | nil => exact absurd rfl some
  | cons text texts ih =>
    cases texts with
    | nil => simp
    | cons next texts =>
      rw [String.intercalate_cons_cons, rows_append_feed, ih (List.cons_ne_nil _ _),
        ← List.flatMap_cons]

/-! Numbers. -/

theorem isDigit_of_mem_natural {n : Nat} {c : Char} (written : c ∈ (toString n).toList) :
    c.isDigit = true :=
  Nat.isDigit_of_mem_toDigits (by decide : 0 < 10) (by decide)
    (Nat.toList_repr (n := n) ▸ written : c ∈ Nat.toDigits 10 n)

theorem no_feed_natural (n : Nat) : '\n' ∉ (toString n).toList :=
  fun feed => absurd (isDigit_of_mem_natural feed) (by decide)

theorem no_feed_number (n : Int) : '\n' ∉ (toString n).toList := by
  cases n with
  | ofNat n => exact no_feed_natural n
  | negSucc n =>
    have written : (toString (Int.negSucc n)).toList = '-' :: (toString (n + 1)).toList := by
      rw [Int.toString_eq_repr, Int.repr, String.toList_append]
      rfl
    rw [written, List.mem_cons, not_or]
    exact ⟨by decide, no_feed_natural (n + 1)⟩

/-! The lines of one finding. -/

section Finding

variable (resolve : Path.Resolver) (root : Path) (f : Finding)

/-- The line that says where the finding is and what it is about. -/
def title : String := whereabouts resolve root f.location ++ ": " ++ f.lint ++ ": " ++ f.message

/-- The lines about the edit of the finding. -/
def details : List String := (f.suggestion.map (suggestionLines resolve root f.location)).getD []

theorem findingLines_eq :
    findingLines resolve root f = title resolve root f :: details resolve root f :=
  rfl

/-- Nothing goes over several lines but perhaps the message and the replacement. -/
structure Plain : Prop where
  place : '\n' ∉ (whereabouts resolve root f.location).toList
  lint : '\n' ∉ f.lint.toList
  help : ∀ s, f.suggestion = some s → '\n' ∉ s.help.toList
  otherFile : ∀ s, f.suggestion = some s →
    '\n' ∉ (otherFile resolve root f.location s).toList

variable {resolve root f}

theorem Plain.no_feed_title_iff (plain : Plain resolve root f) :
    '\n' ∉ (title resolve root f).toList ↔ '\n' ∉ f.message.toList := by
  simp [title, String.toList_append, plain.place, plain.lint]

/-- All about the edit is on lines of its own, indented or blank. -/
theorem Plain.details_off_margin (plain : Plain resolve root f) (line : String)
    (listed : line ∈ details resolve root f) :
    '\n' ∉ line.toList ∧ atMargin line = false := by
  rw [details] at listed
  cases edit : f.suggestion with
  | none =>
    rw [edit] at listed
    cases listed
  | some s =>
    have inLines := Text.no_feed_of_mem_splitLineFeeds (Text.stripChars s.replacement.toList)
    rw [edit] at listed
    rcases List.mem_cons.mp listed with rfl | later
    · obtain ⟨first, rest, lines⟩ :=
        Text.splitLineFeeds_eq_cons (Text.stripChars s.replacement.toList)
      have noFeed := inLines first (by rw [lines]; exact List.mem_cons_self)
      have trusted : '\n' ∉ s.applicability.text.toList := by cases s.applicability <;> decide
      simp [atMargin, lines, noFeed, trusted, plain.help s edit, plain.otherFile s edit]
    · obtain ⟨cs, rest, rfl⟩ := List.mem_map.mp later
      have noFeed := inLines cs (List.mem_of_mem_drop rest)
      rw [editLine]
      split
      · exact ⟨List.not_mem_nil, rfl⟩
      · simp [atMargin, noFeed]

theorem atMargin_title : atMargin (title resolve root f) = true ↔
    (whereabouts resolve root f.location).toList.head? ≠ some ' ' := by
  have some : (whereabouts resolve root f.location).toList ≠ [] := by
    unfold whereabouts
    split <;> simp
  obtain ⟨c, rest, place⟩ := List.exists_cons_of_ne_nil some
  simp [atMargin, title, place]

end Finding

/-! The whole report. -/

theorem no_feed_countLine (s : Summary) : '\n' ∉ (countLine s).toList := by
  have findings := no_feed_natural s.findings.length
  have files := no_feed_number s.filesChecked
  unfold countLine
  simp only [String.toList_append, List.mem_append, findings, files]
  split <;> decide

theorem atMargin_countLine (s : Summary) : atMargin (countLine s) = true := by
  have some : (toString s.findings.length).toList ≠ [] := by
    rw [Nat.toString_eq_repr, Nat.toList_repr]
    exact Nat.toDigits_ne_nil
  obtain ⟨c, rest, digits⟩ := List.exists_cons_of_ne_nil some
  have solid : c ≠ ' ' := by
    rintro rfl
    exact absurd (isDigit_of_mem_natural (digits ▸ List.mem_cons_self)) (by decide)
  simp only [atMargin, countLine, String.toList_append, digits, List.cons_append, List.head?_cons,
    Option.any_some, bne_iff_ne]
  exact solid

section Report

variable (resolve : Path.Resolver) (root : Path)

/-- The lines of the report are those of the findings, in order, and the count. A finding is one
line at the margin, and behind it what belongs to its edit. -/
structure Laid (s : Summary) : Prop where
  whole : rows (human resolve root s) =
    s.findings.flatMap (fun f => title resolve root f :: details resolve root f) ++ [countLine s]
  titles : ∀ f ∈ s.findings, atMargin (title resolve root f) = true
  details : ∀ f ∈ s.findings, ∀ line ∈ details resolve root f, atMargin line = false
  count : atMargin (countLine s) = true

variable {resolve root} {s : Summary}

/-- The lines at the margin of such a report are the titles and the count. -/
theorem Laid.margin (laid : Laid resolve root s) :
    (rows (human resolve root s)).filter atMargin =
      s.findings.map (title resolve root) ++ [countLine s] := by
  rw [laid.whole, List.filter_append, List.filter_cons_of_pos laid.count, List.filter_nil,
    List.filter_flatMap, List.map_eq_flatMap]
  congr 1
  refine List.flatMap_congr fun f listed => ?_
  rw [List.filter_cons_of_pos (laid.titles f listed),
    List.filter_eq_nil_iff.mpr (by simpa using laid.details f listed)]

variable (plain : ∀ f ∈ s.findings, Plain resolve root f)

include plain

theorem rows_human : rows (human resolve root s) =
    s.findings.flatMap (fun f => rows (title resolve root f) ++ details resolve root f) ++
      [countLine s] := by
  have some : lines resolve root s ≠ [] := by simp [lines]
  rw [human, rows_intercalate _ some, lines, List.flatMap_append, List.flatMap_singleton,
    rows_of_no_feed (no_feed_countLine s), List.flatMap_assoc]
  congr 1
  refine List.flatMap_congr fun f listed => ?_
  rw [findingLines_eq, List.flatMap_cons]
  congr 1
  have single : ∀ line ∈ details resolve root f, rows line = [line] := fun line inDetails =>
    rows_of_no_feed ((plain f listed).details_off_margin line inDetails).1
  rw [List.flatMap_congr single, List.flatMap_singleton']

/-- Titles on one line at the margin are all that it takes. -/
theorem laid_of_titles (titles : ∀ f ∈ s.findings, '\n' ∉ (title resolve root f).toList ∧
    atMargin (title resolve root f) = true) : Laid resolve root s where
  whole := by
    rw [rows_human plain]
    congr 1
    refine List.flatMap_congr fun f listed => ?_
    rw [rows_of_no_feed (titles f listed).1, List.singleton_append]
  titles f listed := (titles f listed).2
  details f listed line inDetails := ((plain f listed).details_off_margin line inDetails).2
  count := atMargin_countLine s

/-- The report is laid out in this way exactly when the titles and the count are what stands at the
margin, and it takes messages of one line and places that are not indented. -/
theorem laid_iff :
    (Laid resolve root s ↔ (rows (human resolve root s)).filter atMargin =
      s.findings.map (title resolve root) ++ [countLine s]) ∧
    (Laid resolve root s ↔ ∀ f ∈ s.findings, '\n' ∉ f.message.toList ∧
      (whereabouts resolve root f.location).toList.head? ≠ some ' ') := by
  have titles : ((rows (human resolve root s)).filter atMargin =
      s.findings.map (title resolve root) ++ [countLine s]) →
      ∀ f ∈ s.findings, '\n' ∉ f.message.toList ∧
        (whereabouts resolve root f.location).toList.head? ≠ some ' ' := by
    intro margin f listed
    have first : title resolve root f ∈ (rows (human resolve root s)).filter atMargin := by
      rw [margin]
      exact List.mem_append_left _ (List.mem_map_of_mem listed)
    obtain ⟨inReport, first⟩ := List.mem_filter.mp first
    exact ⟨(plain f listed).no_feed_title_iff.mp (no_feed_of_mem_rows inReport),
      atMargin_title.mp first⟩
  have laid : (∀ f ∈ s.findings, '\n' ∉ f.message.toList ∧
      (whereabouts resolve root f.location).toList.head? ≠ some ' ') → Laid resolve root s :=
    fun fine => laid_of_titles plain fun f listed =>
      ⟨(plain f listed).no_feed_title_iff.mpr (fine f listed).1,
        atMargin_title.mpr (fine f listed).2⟩
  exact ⟨⟨Laid.margin, fun margin => laid (titles margin)⟩,
    ⟨fun isLaid => titles isLaid.margin, laid⟩⟩

end Report

end RustLint.Report
