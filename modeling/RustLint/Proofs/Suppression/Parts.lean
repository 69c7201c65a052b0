import RustLint.Proofs.Suppression

set_option autoImplicit false

namespace RustLint.Suppressions

variable (reach : Reach) (lint : String)

/-- The line holds a directive of the reach that allows the lint. -/
def LineAllows (line : String) : Prop :=
  ∃ lints, Directive.lintsIn? reach line = some lints ∧ allows lints lint = true

/-! Where a directive stands. -/

theorem not_allowedAt_nil (number : Nat) : ¬AllowedAt reach [] lint number := by
  rintro ⟨above, line, below, lints, parts, -⟩
  cases above <;> cases parts

/-- What a directive allows at its line is what that line allows. -/
theorem allowedAt_length_succ_iff (above : List String) (line : String) (below : List String) :
    AllowedAt reach (above ++ line :: below) lint (above.length + 1) ↔
      LineAllows reach lint line := by
  constructor
  · rintro ⟨above', line', below', lints, parts, place, found, allowed⟩
    have behind := (List.append_inj parts (Nat.add_right_cancel place)).2
    cases behind
    exact ⟨lints, found, allowed⟩
  · rintro ⟨lints, found, allowed⟩
    exact ⟨above, line, below, lints, rfl, rfl, found, allowed⟩

theorem allowedAt_cons_iff (line : String) (lines : List String) (number : Nat) :
    AllowedAt reach (line :: lines) lint number ↔
      (number = 1 ∧ LineAllows reach lint line) ∨
        ∃ k, number = k + 1 ∧ AllowedAt reach lines lint k := by
  constructor
  · rintro ⟨above, here, below, lints, parts, rfl, found, allowed⟩
    cases above with
    | nil =>
      cases parts
      exact .inl ⟨rfl, lints, found, allowed⟩
    | cons first above =>
      cases parts
      exact .inr ⟨above.length + 1, rfl, above, here, below, lints, rfl, rfl, found, allowed⟩
  · rintro (⟨rfl, lints, found, allowed⟩ | ⟨k, rfl, above, here, below, lints, rfl, rfl, listed⟩)
    · exact ⟨[], line, lines, lints, rfl, rfl, found, allowed⟩
    · exact ⟨line :: above, here, below, lints, rfl, rfl, listed⟩

/-- A directive of a text stands in one of its parts. -/
theorem allowedAt_append_iff (upper lower : List String) (number : Nat) :
    AllowedAt reach (upper ++ lower) lint number ↔
      AllowedAt reach upper lint number ∨
        ∃ k, number = upper.length + k ∧ AllowedAt reach lower lint k := by
  induction upper generalizing number with
  | nil =>
    simp only [List.nil_append, not_allowedAt_nil, List.length_nil, Nat.zero_add, false_or,
      exists_eq_left']
  | cons line upper ih =>
    rw [List.cons_append, allowedAt_cons_iff, allowedAt_cons_iff, or_assoc]
    refine or_congr_right ?_
    constructor
    · rintro ⟨j, rfl, allowed⟩
      rcases (ih j).mp allowed with above | ⟨k, rfl, below⟩
      · exact .inl ⟨j, rfl, above⟩
      · refine .inr ⟨k, ?_, below⟩
        rw [List.length_cons, Nat.add_right_comm]
    · rintro (⟨j, rfl, above⟩ | ⟨k, rfl, below⟩)
      · exact ⟨j, rfl, (ih j).mpr (.inl above)⟩
      · refine ⟨upper.length + k, ?_, (ih _).mpr (.inr ⟨k, rfl, below⟩)⟩
        rw [List.length_cons, Nat.add_right_comm]

/-- The directives of a text are those of its parts, the lower ones further down. -/
theorem exists_allowedAt_append_iff (upper lower : List String) (counts : Nat → Prop) :
    (∃ k, counts k ∧ AllowedAt reach (upper ++ lower) lint k) ↔
      (∃ k, counts k ∧ AllowedAt reach upper lint k) ∨
        ∃ k, counts (upper.length + k) ∧ AllowedAt reach lower lint k := by
  constructor
  · rintro ⟨number, here, allowed⟩
    rcases (allowedAt_append_iff reach lint upper lower number).mp allowed with
      above | ⟨k, rfl, below⟩
    · exact .inl ⟨number, here, above⟩
    · exact .inr ⟨k, here, below⟩
  · rintro (⟨k, here, above⟩ | ⟨k, here, below⟩)
    · exact ⟨k, here, (allowedAt_append_iff reach lint upper lower k).mpr (.inl above)⟩
    · exact ⟨_, here, (allowedAt_append_iff reach lint upper lower _).mpr (.inr ⟨k, rfl, below⟩)⟩

/-! What is silenced. -/

variable (lines : List String)

theorem isSuppressed_none_iff :
    isSuppressed (ofLines lines) lint none = true ↔ ∃ k, AllowedAt .file lines lint k := by
  have unfolded : isSuppressed (ofLines lines) lint none =
      (allows (inFile (ofLines lines)) lint || false) := rfl
  rw [unfolded, Bool.or_false, allows_inFile_iff]

/-- A directive counts for the file, for the line it stands on, or for the line after that. Numbers
that no line has are as good as none. -/
theorem isSuppressed_some_iff (n : Int) :
    isSuppressed (ofLines lines) lint (some n) = true ↔
      (∃ k, AllowedAt .file lines lint k) ∨
        (∃ k : Nat, n = k ∧ AllowedAt .sameLine lines lint k) ∨
          ∃ k : Nat, n = k + 1 ∧ AllowedAt .nextLine lines lint k := by
  cases n with
  | ofNat number =>
    refine (isSuppressed_ofLines_iff lines lint number).trans (or_congr_right (or_congr ?_ ?_))
    · constructor
      · exact fun allowed => ⟨number, rfl, allowed⟩
      · rintro ⟨k, same, allowed⟩
        rwa [Int.ofNat.inj same]
    · refine exists_congr fun k => and_congr_left fun _ => ?_
      exact Int.ofNat_inj (m := number) (n := k + 1) |>.symm
  | negSucc number =>
    have unfolded : isSuppressed (ofLines lines) lint (some (.negSucc number)) =
        isSuppressed (ofLines lines) lint none := rfl
    rw [unfolded, isSuppressed_none_iff, or_iff_left]
    rintro (⟨k, same, -⟩ | ⟨k, same, -⟩)
    · exact absurd same (by omega)
    · exact absurd same (by omega)

/-- For any two parts of a text, lint and line: the lint is silenced there in the whole text exactly
when it is in the upper part, or in the lower part with the lines counted from its own first line.
For the whole file it is silenced exactly when one of the parts has a directive for the file. So a
directive counts for the file, for its own line or for the line after it, and for nothing else. -/
theorem isSuppressed_append (upper lower : List String) (lint : String) (n : Int) :
    (isSuppressed (ofLines (upper ++ lower)) lint (some n) = true ↔
        isSuppressed (ofLines upper) lint (some n) = true ∨
          isSuppressed (ofLines lower) lint (some (n - upper.length)) = true) ∧
      (isSuppressed (ofLines (upper ++ lower)) lint none = true ↔
        (∃ k, AllowedAt .file upper lint k) ∨ ∃ k, AllowedAt .file lower lint k) ∧
      (isSuppressed (ofLines (upper ++ lower)) lint (some n) = true ↔
        (∃ k, AllowedAt .file (upper ++ lower) lint k) ∨
          (∃ k : Nat, n = k ∧ AllowedAt .sameLine (upper ++ lower) lint k) ∨
            ∃ k : Nat, n = k + 1 ∧ AllowedAt .nextLine (upper ++ lower) lint k) := by
  have file : (∃ k, AllowedAt .file (upper ++ lower) lint k) ↔
      (∃ k, AllowedAt .file upper lint k) ∨ ∃ k, AllowedAt .file lower lint k := by
    simpa only [true_and] using exists_allowedAt_append_iff .file lint upper lower fun _ => True
  have own (k : Nat) : n = (upper.length + k : Nat) ↔ n - upper.length = k := by omega
  have next (k : Nat) : n = (upper.length + k : Nat) + 1 ↔ n - upper.length = k + 1 := by omega
  refine ⟨?_, (isSuppressed_none_iff lint _).trans file, isSuppressed_some_iff lint _ n⟩
  rw [isSuppressed_some_iff, isSuppressed_some_iff, isSuppressed_some_iff, file,
    exists_allowedAt_append_iff .sameLine lint upper lower fun k => n = k,
    exists_allowedAt_append_iff .nextLine lint upper lower fun k => n = k + 1]
  simp only [own, next]
  exact (or_congr_right or_or_or_comm).trans or_or_or_comm

end RustLint.Suppressions
