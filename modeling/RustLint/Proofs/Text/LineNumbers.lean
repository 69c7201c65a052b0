import RustLint.Proofs.Text.Positions
import RustLint.Text.Lines

set_option autoImplicit false

namespace RustLint.Text

/-- The character between the two is on the line with the number. The lines above its own are the
same in the text up to the character. -/
def OnLine (number : Nat) (before : List Char) (c : Char) (after : List Char) : Prop :=
  ∃ above left right below,
    splitLines (before ++ c :: after) = above ++ (left ++ c :: right) :: below ∧
    splitLines (before ++ [c]) = above ++ [left ++ [c]] ∧ number = above.length + 1

/-- A carriage return in front of a line feed, which ends the line for both. -/
def IsSplit (c : Char) (after : List Char) : Prop := c = '\r' ∧ ∃ rest, after = '\n' :: rest

/-- A line end that is no line feed, and no carriage return in front of one. -/
structure IsForeignEnd (c : Char) (after : List Char) : Prop where
  ends : isLineEnd c = true
  noFeed : c ≠ '\n'
  alone : ¬IsSplit c after

/-- A line end of another kind than the line feed stands in the text. -/
def HasForeignEnd (cs : List Char) : Prop :=
  ∃ front e behind, cs = front ++ e :: behind ∧ IsForeignEnd e behind

/-- The number of line ends that are no line feeds and no carriage returns in front of one. -/
def foreignEnds : List Char → Nat
  | [] => 0
  | '\r' :: '\n' :: rest => foreignEnds rest
  | c :: rest => if isLineEnd c && c != '\n' then foreignEnds rest + 1 else foreignEnds rest

/-! Lines. -/

section

variable (c : Char) (rest : List Char)

theorem splitLines_split : splitLines ('\r' :: '\n' :: rest) = [] :: splitLines rest := by
  rw [splitLines]

theorem splitLines_end (ends : isLineEnd c = true) (alone : ¬IsSplit c rest) :
    splitLines (c :: rest) = [] :: splitLines rest := by
  rw [splitLines.eq_def]
  split
  · next same => cases same
  · next same =>
    cases same
    exact absurd ⟨rfl, _, rfl⟩ alone
  · next same =>
    cases same
    rw [if_pos ends]

theorem splitLines_keep (keeps : isLineEnd c = false) :
    splitLines (c :: rest) =
      (c :: (splitLines rest).headD []) :: (splitLines rest).drop 1 := by
  rw [splitLines.eq_def]
  split
  · next same => cases same
  · next same =>
    cases same
    cases keeps
  · next same =>
    cases same
    rw [keeps]
    cases splitLines rest <;> rfl

theorem foreignEnds_cons (alone : ¬IsSplit c rest) : foreignEnds (c :: rest) =
    if isLineEnd c && c != '\n' then foreignEnds rest + 1 else foreignEnds rest := by
  rw [foreignEnds.eq_def]
  split
  · next same => cases same
  · next same =>
    cases same
    exact absurd ⟨rfl, _, rfl⟩ alone
  · next same =>
    cases same
    rfl

/-- What the count takes for a foreign line end is one. -/
theorem isForeignEnd_of_counted
    (overlap : ∀ behind, c = '\r' → rest = '\n' :: behind → False)
    (foreign : (isLineEnd c && c != '\n') = true) : IsForeignEnd c rest where
  ends := (Bool.and_eq_true_iff.mp foreign).1
  noFeed := bne_iff_ne.mp (Bool.and_eq_true_iff.mp foreign).2
  alone := fun ⟨carriage, behind, feed⟩ => overlap behind carriage feed

/-- A character of a line is no part of a line end in front of it. -/
theorem isSplit_of_append (keeps : isLineEnd c = false) (e : Char) (after : List Char)
    (split : IsSplit e (rest ++ c :: after)) : IsSplit e rest := by
  obtain ⟨rfl, behind, feed⟩ := split
  cases rest with
  | nil =>
    cases feed
    cases keeps
  | cons d rest =>
    cases feed
    exact ⟨rfl, rest, rfl⟩

/-- The text in front of a character of a line: the lines above it and the beginning of its own
line, whatever stands behind the character. -/
def Opens (before : List Char) (above : List (List Char)) (left : List Char) : Prop :=
  ∀ after, splitLines (before ++ c :: after) =
    above ++ (left ++ c :: (splitLines after).headD []) :: (splitLines after).drop 1

variable {c rest} {above : List (List Char)} {left : List Char}

theorem Opens.split (opens : Opens c rest above left) :
    Opens c ('\r' :: '\n' :: rest) ([] :: above) left := by
  intro after
  rw [List.cons_append, List.cons_append, splitLines_split, opens, List.cons_append]

theorem Opens.ended (opens : Opens c rest above left) (keeps : isLineEnd c = false) (e : Char)
    (ends : isLineEnd e = true) (alone : ¬IsSplit e rest) :
    Opens c (e :: rest) ([] :: above) left := by
  intro after
  rw [List.cons_append, splitLines_end e _ ends, opens, List.cons_append]
  intro split
  exact alone (isSplit_of_append c rest keeps e after split)

theorem Opens.kept (opens : Opens c rest above left) (e : Char) (kept : isLineEnd e = false) :
    ∃ above' left', above'.length = above.length ∧ Opens c (e :: rest) above' left' := by
  cases above with
  | nil =>
    refine ⟨[], e :: left, rfl, ?_⟩
    intro after
    rw [List.cons_append, splitLines_keep e _ kept, opens]
    rfl
  | cons line lines =>
    refine ⟨(e :: line) :: lines, left, rfl, ?_⟩
    intro after
    rw [List.cons_append, splitLines_keep e _ kept, opens]
    rfl

/-- There are as many lines above a character as line ends in front of it. -/
theorem exists_opens (c : Char) (keeps : isLineEnd c = false) (before : List Char) :
    ∃ above left, above.length = before.count '\n' + foreignEnds before ∧
      Opens c before above left := by
  induction before using foreignEnds.induct with
  | case1 => exact ⟨[], [], rfl, fun after => splitLines_keep c after keeps⟩
  | case2 rest ih =>
    obtain ⟨above, left, number, opens⟩ := ih
    refine ⟨[] :: above, left, ?_, opens.split⟩
    simp [foreignEnds, number]
    omega
  | case3 e rest overlap foreign ih =>
    obtain ⟨above, left, number, opens⟩ := ih
    have foreignEnd := isForeignEnd_of_counted e rest overlap foreign
    refine ⟨[] :: above, left, ?_, opens.ended keeps e foreignEnd.ends foreignEnd.alone⟩
    rw [foreignEnds_cons e rest foreignEnd.alone, if_pos foreign,
      List.count_cons_of_ne foreignEnd.noFeed, List.length_cons, number]
    omega
  | case4 e rest overlap notForeign ih =>
    obtain ⟨above, left, number, opens⟩ := ih
    have alone : ¬IsSplit e rest := fun ⟨carriage, behind, feed⟩ => overlap behind carriage feed
    rw [foreignEnds_cons e rest alone, if_neg notForeign]
    by_cases feed : e = '\n'
    · subst feed
      refine ⟨[] :: above, left, ?_, opens.ended keeps '\n' rfl alone⟩
      rw [List.count_cons_self, List.length_cons, number]
      omega
    · have kept : isLineEnd e = false := by
        simpa [feed] using notForeign
      obtain ⟨above', left', same, opens'⟩ := opens.kept e kept
      refine ⟨above', left', ?_, opens'⟩
      rw [same, number, List.count_cons_of_ne feed]

/-- The line of a character is one more than the line ends in front of it. -/
theorem onLine_iff (number : Nat) (before : List Char) (c : Char) (after : List Char)
    (keeps : isLineEnd c = false) :
    OnLine number before c after ↔ number = before.count '\n' + foreignEnds before + 1 := by
  obtain ⟨above, left, counted, opens⟩ := exists_opens c keeps before
  have upTo : splitLines (before ++ [c]) = above ++ [left ++ [c]] := opens []
  constructor
  · rintro ⟨above', left', right, below, -, upTo', rfl⟩
    have same := congrArg List.length (upTo.symm.trans upTo')
    simp only [List.length_append, List.length_singleton] at same
    omega
  · rintro rfl
    refine ⟨above, left, _, _, opens after, upTo, ?_⟩
    rw [counted]

/-- There is a foreign line end where one is counted. -/
theorem foreignEnds_pos_iff (cs : List Char) : 0 < foreignEnds cs ↔ HasForeignEnd cs := by
  unfold HasForeignEnd
  induction cs using foreignEnds.induct with
  | case1 => simp [foreignEnds]
  | case2 rest ih =>
    rw [foreignEnds, ih]
    constructor
    · rintro ⟨front, e, behind, rfl, foreign⟩
      exact ⟨'\r' :: '\n' :: front, e, behind, rfl, foreign⟩
    · rintro ⟨front, e, behind, parts, foreign⟩
      match front, parts with
      | [], parts =>
        cases parts
        exact absurd ⟨rfl, rest, rfl⟩ foreign.alone
      | [_], parts =>
        cases parts
        exact absurd rfl foreign.noFeed
      | _ :: _ :: front, parts =>
        cases parts
        exact ⟨front, e, behind, rfl, foreign⟩
  | case3 e rest overlap foreign ih =>
    have foreignEnd := isForeignEnd_of_counted e rest overlap foreign
    rw [foreignEnds_cons e rest foreignEnd.alone, if_pos foreign]
    exact ⟨fun _ => ⟨[], e, rest, rfl, foreignEnd⟩, fun _ => Nat.succ_pos _⟩
  | case4 e rest overlap notForeign ih =>
    have alone : ¬IsSplit e rest := fun ⟨carriage, behind, feed⟩ => overlap behind carriage feed
    rw [foreignEnds_cons e rest alone, if_neg notForeign, ih]
    constructor
    · rintro ⟨front, d, behind, rfl, foreign⟩
      exact ⟨e :: front, d, behind, rfl, foreign⟩
    · rintro ⟨front, d, behind, parts, foreign⟩
      cases front with
      | nil =>
        cases parts
        exact absurd (by simp [foreign.ends, foreign.noFeed]) notForeign
      | cons f front =>
        cases parts
        exact ⟨front, d, behind, rfl, foreign⟩

end

end RustLint.Text

namespace RustLint.Source

open Text (encode OnLine HasForeignEnd foreignEnds)

/-- The line of a position is that of the character there exactly when only line feeds, alone or
behind carriage returns, end the lines above. -/
theorem line_eq_iff (s : Source) (before : List Char) (c : Char) (after : List Char) (number : Nat)
    (written : s.text.toList = before ++ c :: after) (keeps : Text.isLineEnd c = false)
    (onLine : OnLine number before c after) :
    (s.lineCol (encode before).length).1 = number ↔ ¬HasForeignEnd before := by
  rw [s.line_front before _ written, (Text.onLine_iff number before c after keeps).mp onLine,
    ← Text.foreignEnds_pos_iff]
  omega

end RustLint.Source
