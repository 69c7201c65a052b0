import RustLint.Text.Blank
import Mathlib.Data.List.DropRight

set_option autoImplicit false

namespace RustLint.Text

/-- Neither the first nor the last character is blank. -/
structure IsBare (cs : List Char) : Prop where
  first : ∀ c ∈ cs.head?, isBlank c = false
  last : ∀ c ∈ cs.getLast?, isBlank c = false

theorem isBare_stripChars (cs : List Char) : IsBare (stripChars cs) := by
  have short : stripChars cs <+: cs.dropWhile isBlank := List.rdropWhile_prefix isBlank _
  constructor
  · intro c first
    obtain ⟨behind, whole⟩ := short
    have begins := List.head?_dropWhile_not isBlank cs
    rw [← whole, List.mem_head?_append_of_mem_head? (t := behind) first] at begins
    exact begins
  · intro c last
    have some : stripChars cs ≠ [] := by
      rintro none
      rw [none] at last
      cases last
    have ends := List.rdropWhile_last_not isBlank (cs.dropWhile isBlank) some
    rw [List.getLast?_eq_some_getLast some, Option.mem_some] at last
    exact Bool.eq_false_iff.mpr (last ▸ ends)

theorem stripChars_of_isBare {cs : List Char} (bare : IsBare cs) : stripChars cs = cs := by
  cases cs with
  | nil => rfl
  | cons c cs =>
    have first : (c :: cs).dropWhile isBlank = c :: cs :=
      List.dropWhile_cons_of_neg (Bool.eq_false_iff.mp (bare.first c rfl))
    have last : (c :: cs).rdropWhile isBlank = c :: cs := by
      rw [List.rdropWhile_eq_self_iff]
      intro some
      exact Bool.eq_false_iff.mp (bare.last _ (List.getLast?_eq_some_getLast some))
    rw [stripChars, first]
    exact last

theorem strip_of_isBare {s : String} (bare : IsBare s.toList) : strip s = s := by
  rw [strip, stripChars_of_isBare bare, String.ofList_toList]

theorem strip_strip (s : String) : strip (strip s) = strip s := by
  apply strip_of_isBare
  rw [strip, String.toList_ofList]
  exact isBare_stripChars s.toList

/-- What is left behind the blanks at the front, where that is something. -/
theorem dropWhile_isBlank_eq_iff (cs rest : List Char) (c : Char) (solid : isBlank c = false) :
    cs.dropWhile isBlank = c :: rest ↔
      ∃ gap, (∀ d ∈ gap, isBlank d = true) ∧ cs = gap ++ c :: rest := by
  constructor
  · intro left
    refine ⟨cs.takeWhile isBlank, List.all_eq_true.mp List.all_takeWhile, ?_⟩
    rw [← left, List.takeWhile_append_dropWhile]
  · rintro ⟨gap, blank, rfl⟩
    rw [List.dropWhile_append_of_pos blank,
      List.dropWhile_cons_of_neg (Bool.eq_false_iff.mp solid)]

end RustLint.Text
