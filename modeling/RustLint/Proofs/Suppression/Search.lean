import RustLint.Suppression
import RustLint.Proofs.Text.LowerCase
import RustLint.Proofs.Text.Strip
import Mathlib.Data.List.Forall2

set_option autoImplicit false

namespace RustLint.Directive

open Text (isBlank dropWhile_isBlank_eq_iff)

/-- The characters fit the patterns one by one. -/
def Spells (patterns : List (Char → Bool)) (cs : List Char) : Prop :=
  List.Forall₂ (fun fits c => fits c = true) patterns cs

/-- The head of a directive: the tool with a colon, the keyword and an equals sign, the last two
behind any blanks. -/
def IsHead (reach : Reach) (head : List Char) : Prop :=
  ∃ tool gap key space, head = tool ++ (gap ++ (key ++ (space ++ ['=']))) ∧
    Spells (word "ferrolint:") tool ∧ (∀ c ∈ gap, isBlank c = true) ∧
    Spells (keyword reach) key ∧ ∀ c ∈ space, isBlank c = true

/-- The line names the tool in ASCII letters of either case. -/
def NamesTool (line : List Char) : Prop :=
  ∃ front name behind, line = front ++ name ++ behind ∧ name.map Char.toLower = "ferrolint".toList

/-! Patterns. -/

theorem after?_eq_some_iff (patterns : List (Char → Bool)) (cs rest : List Char) :
    after? patterns cs = some rest ↔ ∃ front, Spells patterns front ∧ cs = front ++ rest := by
  induction patterns generalizing cs with
  | nil =>
    rw [after?, Option.some_inj]
    constructor
    · rintro rfl
      exact ⟨[], .nil, rfl⟩
    · rintro ⟨front, spelled, rfl⟩
      rw [List.forall₂_nil_left_iff.mp spelled, List.nil_append]
  | cons fits patterns ih =>
    cases cs with
    | nil =>
      rw [after?]
      constructor
      · exact nofun
      · rintro ⟨front, spelled, parts⟩
        rw [(List.append_eq_nil_iff.mp parts.symm).1] at spelled
        cases spelled
    | cons c cs =>
      rw [after?]
      constructor
      · intro found
        split at found
        · next here =>
          obtain ⟨front, spelled, rfl⟩ := (ih cs).mp found
          exact ⟨c :: front, .cons here spelled, rfl⟩
        · cases found
      · rintro ⟨front, spelled, parts⟩
        cases spelled with
        | cons here spelled =>
          cases parts
          rw [if_pos here]
          exact (ih _).mpr ⟨_, spelled, rfl⟩

/-- A character that no pattern fits is in no text that they spell. -/
theorem Spells.not_mem {patterns : List (Char → Bool)} {cs : List Char}
    (spelled : Spells patterns cs) (d : Char) (unfit : ∀ fits ∈ patterns, fits d = false) :
    d ∉ cs := by
  induction spelled with
  | nil => exact List.not_mem_nil
  | cons here _ ih =>
    rw [List.forall_mem_cons] at unfit
    rw [List.mem_cons, not_or]
    refine ⟨?_, ih unfit.2⟩
    rintro rfl
    exact Bool.false_ne_true (unfit.1.symm.trans here)

/-- A word is spelled in ASCII letters, or with one of the two letters that count as an `i`. -/
theorem Spells.word_cases {letters cs : List Char} (spelled : Spells (letters.map isLetter) cs) :
    cs.map Char.toLower = letters ∨ 'İ' ∈ cs ∨ 'ı' ∈ cs := by
  induction letters generalizing cs with
  | nil => exact .inl (by rw [List.forall₂_nil_left_iff.mp spelled]; rfl)
  | cons letter letters ih =>
    cases spelled with
    | cons here spelled =>
      next c cs =>
      rw [isLetter, Bool.or_eq_true, Bool.and_eq_true, Bool.or_eq_true, beq_iff_eq, beq_iff_eq,
        beq_iff_eq, beq_iff_eq] at here
      rcases here with same | ⟨-, rfl | rfl⟩
      · rcases ih spelled with rest | dotted | dotless
        · left
          rw [List.map_cons, same, rest]
        · exact .inr (.inl (List.mem_cons_of_mem c dotted))
        · exact .inr (.inr (List.mem_cons_of_mem c dotless))
      · exact .inr (.inl List.mem_cons_self)
      · exact .inr (.inr List.mem_cons_self)

/-! Directives. -/

theorem isBlank_of_isLetter_a (c : Char) (here : isLetter 'a' c = true) : isBlank c = false := by
  rw [isLetter, Bool.or_eq_true, beq_iff_eq] at here
  rcases here with small | other
  · rcases Text.toLower_cases c with same | ⟨-, -, moved⟩
    · rw [← same, small]
      decide
    · have capital : c = 'A' := by
        rw [small] at moved
        exact Char.toNat_inj.mp (Nat.add_right_cancel (m := 32) moved.symm)
      rw [capital]
      decide
  · cases other

/-- A keyword begins with a letter. -/
theorem Spells.keyword_solid {reach : Reach} {key : List Char} (spelled : Spells (keyword reach) key) :
    ∃ c rest, key = c :: rest ∧ isBlank c = false := by
  have begins : ∃ patterns, keyword reach = isLetter 'a' :: patterns := by
    cases reach <;> exact ⟨_, rfl⟩
  obtain ⟨patterns, shape⟩ := begins
  rw [shape] at spelled
  cases spelled with
  | cons here _ => exact ⟨_, _, rfl, isBlank_of_isLetter_a _ here⟩

/-- Right here a directive begins exactly when its head does and a character that names may have
stands behind it; its list is all such characters. -/
theorem namesHere?_eq_some_iff (reach : Reach) (cs names : List Char) :
    namesHere? reach cs = some names ↔
      ∃ head rest, IsHead reach head ∧ cs = head ++ rest ∧ names = rest.takeWhile isNameChar ∧
        names ≠ [] := by
  have list (rest : List Char) :
      (if (rest.takeWhile isNameChar).isEmpty then none else some (rest.takeWhile isNameChar)) =
          some names ↔ names = rest.takeWhile isNameChar ∧ names ≠ [] := by
    split
    · next empty =>
      rw [List.isEmpty_iff.mp empty]
      exact iff_of_false nofun fun both => both.2 both.1
    · next some =>
      rw [Option.some_inj]
      refine ⟨fun same => ⟨same.symm, ?_⟩, fun both => both.1.symm⟩
      rwa [← same, ne_eq, ← List.isEmpty_iff]
  simp only [namesHere?, Option.bind_eq_bind, Option.bind_eq_some_iff, after?_eq_some_iff, list]
  constructor
  · rintro ⟨afterTool, ⟨tool, spelledTool, rfl⟩, afterKey, ⟨key, spelledKey, behindGap⟩, rest,
      ⟨sign, spelledSign, behindSpace⟩, listed⟩
    obtain ⟨c, key, rfl, solid⟩ := spelledKey.keyword_solid
    rw [List.cons_append] at behindGap
    obtain ⟨gap, blankGap, rfl⟩ := (dropWhile_isBlank_eq_iff _ _ c solid).mp behindGap
    cases spelledSign with
    | cons isSign none =>
      cases none
      rw [beq_iff_eq] at isSign
      subst isSign
      rw [List.singleton_append] at behindSpace
      obtain ⟨space, blankSpace, rfl⟩ :=
        (dropWhile_isBlank_eq_iff _ _ '=' (by decide)).mp behindSpace
      refine ⟨tool ++ (gap ++ ((c :: key) ++ (space ++ ['=']))), rest,
        ⟨tool, gap, c :: key, space, rfl, spelledTool, blankGap, spelledKey, blankSpace⟩, ?_,
        listed⟩
      simp only [List.append_assoc, List.cons_append, List.nil_append]
  · rintro ⟨head, rest, ⟨tool, gap, key, space, rfl, spelledTool, blankGap, spelledKey,
      blankSpace⟩, rfl, listed⟩
    obtain ⟨c, key, rfl, solid⟩ := spelledKey.keyword_solid
    refine ⟨gap ++ c :: (key ++ (space ++ '=' :: rest)), ⟨tool, spelledTool, ?_⟩,
      space ++ '=' :: rest, ⟨c :: key, spelledKey, ?_⟩, rest, ⟨['='], ?_, ?_⟩, listed⟩
    · simp only [List.append_assoc, List.cons_append, List.nil_append]
    · exact (dropWhile_isBlank_eq_iff _ _ c solid).mpr ⟨gap, blankGap, rfl⟩
    · exact .cons rfl .nil
    · exact (dropWhile_isBlank_eq_iff _ _ '=' (by decide)).mpr ⟨space, blankSpace, rfl⟩

/-- The search finds the first place where a directive begins. -/
theorem namesIn?_eq_some_of (reach : Reach) (front here names : List Char)
    (found : namesHere? reach here = some names)
    (first : ∀ skipped part, front = skipped ++ part → part ≠ [] →
      namesHere? reach (part ++ here) = none) :
    namesIn? reach (front ++ here) = some names := by
  induction front with
  | nil =>
    cases here with
    | nil => cases found
    | cons c here =>
      rw [List.nil_append, namesIn?, found]
      rfl
  | cons c front ih =>
    have none := first [] (c :: front) rfl (List.cons_ne_nil c front)
    rw [List.cons_append] at none
    rw [List.cons_append, namesIn?, none, Option.none_or]
    refine ih fun skipped part parts some => first (c :: skipped) part ?_ some
    rw [parts, List.cons_append]

theorem exists_namesHere?_of_namesIn? (reach : Reach) (cs names : List Char)
    (found : namesIn? reach cs = some names) :
    ∃ front here, cs = front ++ here ∧ namesHere? reach here = some names := by
  induction cs with
  | nil => cases found
  | cons c cs ih =>
    rw [namesIn?, Option.or_eq_some_iff] at found
    rcases found with here | ⟨-, later⟩
    · exact ⟨[], c :: cs, rfl, here⟩
    · obtain ⟨front, here, rfl, found⟩ := ih later
      exact ⟨c :: front, here, rfl, found⟩

/-! The name of the tool. -/

theorem contains_iff (word cs : List Char) : contains word cs = true ↔ word <:+: cs := by
  induction cs with
  | nil => rw [contains, List.isEmpty_iff, List.infix_nil]
  | cons c cs ih =>
    rw [contains, Bool.or_eq_true, List.isPrefixOf_iff_prefix, ih, List.infix_cons_iff]

/-- A line may hold directives exactly when it names the tool in ASCII letters. -/
theorem mayHold_iff (line : String) : mayHold line = true ↔ NamesTool line.toList := by
  have form : (Text.lower line).toList = Text.lowerFrom [] line.toList := String.toList_ofList
  rw [mayHold, contains_iff, form]
  refine Text.infix_lowerFrom_iff [] line.toList 'f' "errolint".toList (fun c listed => ?_)
    (by decide)
  have plain : ("ferrolint".toList.all fun c => decide (Text.IsPlain c)) = true := by decide
  exact of_decide_eq_true (List.all_eq_true.mp plain c listed)

end RustLint.Directive
