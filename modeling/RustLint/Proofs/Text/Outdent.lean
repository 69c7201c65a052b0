import RustLint.Text.Indent

set_option autoImplicit false

namespace RustLint.Text

/-- The text without the next `owed` characters of its line, and without `count` characters at the
front of every later line. Line feeds always stay. -/
def outdentFrom (count : Nat) : Nat → List Char → List Char
  | _, [] => []
  | owed, c :: cs =>
    if c = '\n' then c :: outdentFrom count count cs
    else if owed = 0 then c :: outdentFrom count 0 cs
    else outdentFrom count (owed - 1) cs

/-- The text without `count` characters at the front of every line but the first. -/
def outdent (count : Nat) (cs : List Char) : List Char := outdentFrom count 0 cs

/-- How many characters the line that the text ends in has still to lose. -/
def owedAfter (count : Nat) : Nat → List Char → Nat
  | owed, [] => owed
  | owed, c :: cs => owedAfter count (if c = '\n' then count else owed - 1) cs

/-- The indentation that the lines share: spaces, tabulators behind them, and spaces behind
these. -/
def sharedIndent (lines : List (List Char)) : Nat :=
  let spaces := commonRun ' ' lines
  let tabs := commonRun '\t' (lines.map (List.drop spaces))
  spaces + tabs + commonRun ' ' (lines.map (List.drop (spaces + tabs)))

/-- The indentation that all lines of the text but the first share. -/
def laterIndent (cs : List Char) : Nat := sharedIndent ((splitLineFeeds cs).drop 1)

variable (count owed : Nat) (c : Char) (cs : List Char)

theorem outdentFrom_feed :
    outdentFrom count owed ('\n' :: cs) = '\n' :: outdentFrom count count cs := rfl

theorem outdentFrom_keep (noFeed : c ≠ '\n') :
    outdentFrom count 0 (c :: cs) = c :: outdentFrom count 0 cs := by
  rw [outdentFrom, if_neg noFeed, if_pos rfl]

theorem outdentFrom_lose (noFeed : c ≠ '\n') :
    outdentFrom count (owed + 1) (c :: cs) = outdentFrom count owed cs := by
  rw [outdentFrom, if_neg noFeed, if_neg (Nat.succ_ne_zero owed), Nat.add_sub_cancel]

theorem owedAfter_feed : owedAfter count owed ('\n' :: cs) = owedAfter count count cs := rfl

theorem owedAfter_cons (noFeed : c ≠ '\n') :
    owedAfter count owed (c :: cs) = owedAfter count (owed - 1) cs := by
  rw [owedAfter, if_neg noFeed]

/-! Parts of a text and lines. -/

theorem splitAtAll_append (isSep : Char → Bool) (front behind : List Char) (sep : Char)
    (isHere : isSep sep = true) : splitAtAll isSep (front ++ sep :: behind) =
      splitAtAll isSep front ++ splitAtAll isSep behind := by
  have step : splitAtAll isSep (sep :: behind) = [] :: splitAtAll isSep behind := by
    rw [splitAtAll, if_pos isHere]
  induction front with
  | nil => exact step
  | cons c front ih =>
    rw [List.cons_append, splitAtAll, splitAtAll, ih]
    split
    · rfl
    · obtain ⟨part, parts, split⟩ := List.exists_cons_of_ne_nil (splitAtAll_ne_nil isSep front)
      rw [split]
      rfl

theorem splitAtAll_of_none (isSep : Char → Bool) (cs : List Char)
    (none : ∀ c ∈ cs, isSep c = false) : splitAtAll isSep cs = [cs] := by
  induction cs with
  | nil => rfl
  | cons c cs ih =>
    rw [List.forall_mem_cons] at none
    rw [splitAtAll, if_neg (by rw [none.1]; exact Bool.false_ne_true), ih none.2]

theorem splitLineFeeds_eq_cons : ∃ first rest, splitLineFeeds cs = first :: rest :=
  List.exists_cons_of_ne_nil (splitAtAll_ne_nil (· == '\n') cs)

theorem splitLineFeeds_feed : splitLineFeeds ('\n' :: cs) = [] :: splitLineFeeds cs := rfl

theorem splitLineFeeds_cons (noFeed : c ≠ '\n') (first : List Char) (rest : List (List Char))
    (split : splitLineFeeds cs = first :: rest) :
    splitLineFeeds (c :: cs) = (c :: first) :: rest := by
  have behind : splitAtAll (· == '\n') cs = first :: rest := split
  rw [splitLineFeeds, splitAtAll, if_neg (by simp [noFeed]), behind]

/-! Trimming as outdenting. -/

theorem outdentFrom_eq_join (first : List Char) (rest : List (List Char))
    (split : splitLineFeeds cs = first :: rest) :
    outdentFrom count owed cs =
      joinLineFeeds (first.drop owed :: rest.map (List.drop count)) := by
  induction cs generalizing owed first rest with
  | nil =>
    cases split
    rw [List.drop_nil]
    rfl
  | cons c cs ih =>
    obtain ⟨part, parts, behind⟩ := splitLineFeeds_eq_cons cs
    by_cases feed : c = '\n'
    · subst feed
      rw [splitLineFeeds_feed, behind] at split
      cases split
      rw [outdentFrom_feed, ih count part parts behind, List.drop_nil]
      rfl
    · rw [splitLineFeeds_cons c cs feed part parts behind] at split
      cases split
      cases owed with
      | zero =>
        rw [outdentFrom_keep count c cs feed, ih 0 part _ behind]
        cases rest <;> rfl
      | succ owed =>
        rw [outdentFrom_lose count owed c cs feed, ih owed part _ behind, List.drop_succ_cons]

theorem trimLines_cons (first : List Char) (rest : List (List Char)) :
    trimLines true (first :: rest) = first :: rest.map (List.drop (sharedIndent rest)) := by
  simp only [trimLines, trimRun, ↓reduceIte, List.take_succ_cons, List.take_zero,
    List.drop_succ_cons, List.drop_zero, List.singleton_append, List.map_map, sharedIndent]
  simp only [Function.comp_def, List.drop_drop]

/-- Trimming takes from each later line the indentation that all of them share. -/
theorem trimMultiline_eq_outdent (text : String) :
    trimMultiline text true =
      String.ofList (outdent (laterIndent text.toList) text.toList) := by
  obtain ⟨first, rest, lines⟩ := splitLineFeeds_eq_cons text.toList
  rw [trimMultiline, outdent, laterIndent, lines, trimLines_cons,
    outdentFrom_eq_join _ 0 text.toList first rest lines]
  rfl

/-! What is lost is indentation. -/

/-- A space or a tabulator. -/
def IsIndent (c : Char) : Prop := c = ' ' ∨ c = '\t'

instance (c : Char) : Decidable (IsIndent c) := inferInstanceAs (Decidable (c = ' ' ∨ c = '\t'))

theorem leastOr0_le (ns : List Nat) (n : Nat) (listed : n ∈ ns) : leastOr0 ns ≤ n := by
  induction ns with
  | nil => cases listed
  | cons m ms ih =>
    cases ms with
    | nil =>
      rw [List.mem_singleton.mp listed]
      exact Nat.le_refl m
    | cons k ks =>
      have unfolded : leastOr0 (m :: k :: ks) = min m (leastOr0 (k :: ks)) := rfl
      rw [unfolded]
      rcases List.mem_cons.mp listed with rfl | later
      · exact Nat.min_le_left _ _
      · exact Nat.le_trans (Nat.min_le_right _ _) (ih later)

/-- Every line begins with the run that all of them share. -/
theorem eq_of_mem_take_commonRun (lines : List (List Char)) (line : List Char)
    (listed : line ∈ lines) (d : Char) (lost : d ∈ line.take (commonRun c lines)) : d = c := by
  cases line with
  | nil => simp at lost
  | cons e line =>
    have candidate : leadingCount c (e :: line) ∈
        (lines.filter (!·.isEmpty)).map (leadingCount c) :=
      List.mem_map_of_mem (List.mem_filter.mpr ⟨listed, rfl⟩)
    have short : commonRun c lines ≤ leadingCount c (e :: line) := leastOr0_le _ _ candidate
    have run : (e :: line).takeWhile (· == c) =
        (e :: line).take (leadingCount c (e :: line)) :=
      List.prefix_iff_eq_take.mp (List.takeWhile_prefix _)
    have inRun : d ∈ (e :: line).takeWhile (· == c) := by
      rw [run]
      exact List.take_subset_take_left _ short lost
    exact beq_iff_eq.mp (List.all_eq_true.mp List.all_takeWhile d inRun)

theorem isIndent_of_mem_take (lines : List (List Char)) (line : List Char) (listed : line ∈ lines)
    (d : Char) (lost : d ∈ line.take (sharedIndent lines)) : IsIndent d := by
  simp only [sharedIndent] at lost
  rw [List.take_add, List.take_add] at lost
  rcases List.mem_append.mp lost with early | late
  · rcases List.mem_append.mp early with space | tab
    · exact .inl (eq_of_mem_take_commonRun ' ' lines line listed d space)
    · exact .inr (eq_of_mem_take_commonRun '\t' _ _ (List.mem_map_of_mem listed) d tab)
  · exact .inl (eq_of_mem_take_commonRun ' ' _ _ (List.mem_map_of_mem listed) d late)

/-! Parts of the text. -/

theorem outdentFrom_append (ds : List Char) :
    outdentFrom count owed (cs ++ ds) =
      outdentFrom count owed cs ++ outdentFrom count (owedAfter count owed cs) ds := by
  induction cs generalizing owed with
  | nil => rfl
  | cons c cs ih =>
    rw [List.cons_append]
    by_cases feed : c = '\n'
    · subst feed
      rw [outdentFrom_feed, outdentFrom_feed, owedAfter_feed, ih, List.cons_append]
    · rw [owedAfter_cons count owed c cs feed]
      cases owed with
      | zero =>
        rw [outdentFrom_keep count c _ feed, outdentFrom_keep count c _ feed, ih, List.cons_append]
      | succ owed =>
        rw [outdentFrom_lose count owed c _ feed, outdentFrom_lose count owed c _ feed, ih,
          Nat.add_sub_cancel]

theorem owedAfter_append (ds : List Char) :
    owedAfter count owed (cs ++ ds) = owedAfter count (owedAfter count owed cs) ds := by
  induction cs generalizing owed with
  | nil => rfl
  | cons c cs ih => rw [List.cons_append, owedAfter, owedAfter, ih]

/-- In front of a character that is no indentation nothing is owed any more. -/
theorem owedAfter_eq_zero (solid : ¬IsIndent c) (noFeed : c ≠ '\n') (ds first : List Char)
    (rest : List (List Char)) (split : splitLineFeeds (cs ++ c :: ds) = first :: rest)
    (firstLost : ∀ d ∈ first.take owed, IsIndent d)
    (restLost : ∀ line ∈ rest, ∀ d ∈ line.take count, IsIndent d) :
    owedAfter count owed cs = 0 := by
  induction cs generalizing owed first rest with
  | nil =>
    obtain ⟨part, parts, behind⟩ := splitLineFeeds_eq_cons ds
    rw [List.nil_append, splitLineFeeds_cons c ds noFeed part parts behind] at split
    cases split
    cases owed with
    | zero => rfl
    | succ owed => exact absurd (firstLost c (by simp)) solid
  | cons e cs ih =>
    obtain ⟨part, parts, behind⟩ := splitLineFeeds_eq_cons (cs ++ c :: ds)
    rw [List.cons_append] at split
    by_cases feed : e = '\n'
    · subst feed
      rw [splitLineFeeds_feed, behind] at split
      cases split
      rw [owedAfter_feed]
      apply ih count part parts behind
      · exact restLost part List.mem_cons_self
      · intro line listed
        exact restLost line (List.mem_cons_of_mem _ listed)
    · rw [splitLineFeeds_cons e _ feed part parts behind] at split
      cases split
      rw [owedAfter_cons count owed e cs feed]
      refine ih (owed - 1) part _ behind ?_ restLost
      intro d lost
      cases owed with
      | zero => simp at lost
      | succ owed => exact firstLost d (List.mem_cons_of_mem _ lost)

theorem owedAfter_laterIndent (front ds : List Char) (solid : ¬IsIndent c) (noFeed : c ≠ '\n') :
    owedAfter (laterIndent (front ++ c :: ds)) 0 front = 0 := by
  obtain ⟨first, rest, lines⟩ := splitLineFeeds_eq_cons (front ++ c :: ds)
  refine owedAfter_eq_zero _ 0 c front solid noFeed ds first rest lines ?_ ?_
  · intro d lost
    rw [List.take_zero] at lost
    cases lost
  · intro line listed d lost
    rw [laterIndent, lines] at lost
    exact isIndent_of_mem_take rest line listed d lost

/-- A text that begins and ends with characters that are neither indentation nor line feeds. -/
structure IsSolid (cs : List Char) : Prop where
  first : ∃ c rest, cs = c :: rest ∧ ¬IsIndent c ∧ c ≠ '\n'
  last : ∃ front c, cs = front ++ [c] ∧ ¬IsIndent c ∧ c ≠ '\n'

/-- Each solid part is outdented on its own. -/
theorem outdent_around (front part behind : List Char) (solid : IsSolid part)
    (shared : count = laterIndent (front ++ part ++ behind)) :
    outdent count (front ++ part ++ behind) =
      outdent count front ++ outdent count part ++ outdent count behind := by
  obtain ⟨c, rest, begins, solidFirst, firstNoFeed⟩ := solid.first
  obtain ⟨init, d, ends, solidLast, lastNoFeed⟩ := solid.last
  have atFront : owedAfter count 0 front = 0 := by
    have same : front ++ part ++ behind = front ++ c :: (rest ++ behind) := by simp [begins]
    rw [shared, same]
    exact owedAfter_laterIndent c front (rest ++ behind) solidFirst firstNoFeed
  have atLast : owedAfter count 0 (front ++ init) = 0 := by
    have same : front ++ part ++ behind = (front ++ init) ++ d :: behind := by simp [ends]
    rw [shared, same]
    exact owedAfter_laterIndent d (front ++ init) behind solidLast lastNoFeed
  have atEnd : owedAfter count 0 (front ++ part) = 0 := by
    rw [ends, ← List.append_assoc, owedAfter_append, atLast, owedAfter_cons count 0 d [] lastNoFeed]
    rfl
  rw [outdent, outdentFrom_append, outdentFrom_append, atFront, atEnd]
  rfl

/-! Parts that stay as they are. -/

theorem outdentFrom_of_no_feed (noFeed : '\n' ∉ cs) : outdentFrom count 0 cs = cs := by
  induction cs with
  | nil => rfl
  | cons c cs ih =>
    rw [List.mem_cons, not_or] at noFeed
    rw [outdentFrom_keep count c cs (Ne.symm noFeed.1), ih noFeed.2]

theorem outdentFrom_zero : outdentFrom 0 0 cs = cs := by
  induction cs with
  | nil => rfl
  | cons c cs ih =>
    by_cases feed : c = '\n'
    · rw [feed, outdentFrom_feed, ih]
    · rw [outdentFrom_keep 0 c cs feed, ih]

theorem length_outdentFrom_le : (outdentFrom count owed cs).length ≤ cs.length := by
  induction cs generalizing owed with
  | nil => exact Nat.le_refl _
  | cons c cs ih =>
    by_cases feed : c = '\n'
    · rw [feed, outdentFrom_feed, List.length_cons, List.length_cons]
      exact Nat.succ_le_succ (ih count)
    · cases owed with
      | zero =>
        rw [outdentFrom_keep count c cs feed, List.length_cons, List.length_cons]
        exact Nat.succ_le_succ (ih 0)
      | succ owed =>
        rw [outdentFrom_lose count owed c cs feed, List.length_cons]
        exact Nat.le_succ_of_le (ih owed)

/-- A text that goes over a line end, and does not break off there, loses something. -/
theorem length_outdentFrom_lt (some : 0 < count) (feed : '\n' ∈ cs)
    (last : cs.getLast? ≠ .some '\n') : (outdentFrom count owed cs).length < cs.length := by
  induction cs generalizing owed with
  | nil => cases feed
  | cons c cs ih =>
    by_cases here : c = '\n'
    · subst here
      rw [outdentFrom_feed, List.length_cons, List.length_cons]
      apply Nat.succ_lt_succ
      cases cs with
      | nil => exact absurd rfl last
      | cons d ds =>
        by_cases again : d = '\n'
        · apply ih
          · rw [again]
            exact List.mem_cons_self
          · rwa [List.getLast?_cons_cons] at last
        · obtain ⟨lost, rfl⟩ := Nat.exists_eq_add_of_lt some
          rw [outdentFrom_lose _ _ d ds again, List.length_cons]
          exact Nat.lt_succ_of_le (length_outdentFrom_le _ _ ds)
    · have later : '\n' ∈ cs := (List.mem_cons.mp feed).resolve_left (Ne.symm here)
      obtain ⟨d, ds, rfl⟩ := List.exists_cons_of_ne_nil (List.ne_nil_of_mem later)
      rw [List.getLast?_cons_cons] at last
      cases owed with
      | zero =>
        rw [outdentFrom_keep count c _ here, List.length_cons, List.length_cons]
        exact Nat.succ_lt_succ (ih 0 later last)
      | succ owed =>
        rw [outdentFrom_lose count owed c _ here, List.length_cons]
        exact Nat.lt_succ_of_lt (ih owed later last)

/-- A solid text stays as it is exactly when it is on one line or nothing is to be lost. -/
theorem outdent_eq_self_iff (solid : IsSolid cs) :
    outdent count cs = cs ↔ count = 0 ∨ '\n' ∉ cs := by
  constructor
  · intro same
    rcases Nat.eq_zero_or_pos count with nothing | some
    · exact .inl nothing
    · right
      intro feed
      obtain ⟨front, c, ends, -, noFeed⟩ := solid.last
      have shorter : (outdent count cs).length < cs.length := by
        apply length_outdentFrom_lt count 0 cs some feed
        rw [ends, List.getLast?_concat]
        intro last
        exact noFeed (Option.some.inj last)
      rw [same] at shorter
      exact Nat.lt_irrefl _ shorter
  · rintro (rfl | oneLine)
    · exact outdentFrom_zero cs
    · exact outdentFrom_of_no_feed count cs oneLine

end RustLint.Text
