import RustLint.Text.Lower
import Mathlib.Data.List.Infix

set_option autoImplicit false

namespace RustLint.Text

/-- A character that no other character than ASCII ones has as the whole of its lower-case form. -/
def IsPlain (c : Char) : Prop := 0 < c.toNat ∧ c.toNat < 128 ∧ c ≠ 'k'

instance (c : Char) : Decidable (IsPlain c) :=
  inferInstanceAs (Decidable (0 < c.toNat ∧ c.toNat < 128 ∧ c ≠ 'k'))

variable (c : Char) (before cs : List Char)

/-! Single characters. -/

/-- Within ASCII, capital letters move by 32 and nothing else does. -/
theorem toLower_cases :
    c.toLower = c ∨ (65 ≤ c.toNat ∧ c.toNat ≤ 90 ∧ c.toLower.toNat = c.toNat + 32) := by
  by_cases capital : c.val ≥ 'A'.val ∧ c.val ≤ 'Z'.val
  · right
    have atLeast : 65 ≤ c.toNat := UInt32.le_iff_toNat_le.mp capital.1
    have atMost : c.toNat ≤ 90 := UInt32.le_iff_toNat_le.mp capital.2
    have moved : c.toLower.val = c.val + 32 := congrArg Char.val (dif_pos capital)
    refine ⟨atLeast, atMost, ?_⟩
    change c.toLower.val.toNat = c.val.toNat + 32
    rw [moved, UInt32.toNat_add]
    exact Nat.mod_eq_of_lt (by change c.toNat + 32 < _; omega)
  · exact .inl (dif_neg capital)

theorem toNat_lt_of_toLower (small : c.toLower.toNat < 128) : c.toNat < 128 := by
  rcases toLower_cases c with same | ⟨-, atMost, -⟩
  · rwa [same] at small
  · omega

theorem lowerChar_of_ascii (ascii : c.toNat < 128) : lowerChar c = c.toLower := by
  rw [lowerChar, if_pos ascii]

theorem toNat_ofNat_cases (n : Nat) : (Char.ofNat n).toNat = n ∨ (Char.ofNat n).toNat = 0 := by
  by_cases valid : n.isValidChar
  · exact .inl (congrArg Char.toNat (dif_pos valid))
  · exact .inr (congrArg Char.toNat (dif_neg valid))

/-- All runs of the table lead out of ASCII, except for the sign of the unit kelvin. -/
theorem shifted_of_mem_lowerRuns : ∀ run ∈ Table.lowerRuns,
    128 ≤ (run.first : Int) + run.shift ∨
      (run.first = 0x212A ∧ run.last = 0x212A ∧ run.shift = 107 - 0x212A) := by
  decide +kernel

/-- A plain character is the lower-case form of ASCII characters only. -/
theorem toLower_eq_of_lowerChar (plain : IsPlain (lowerChar c)) :
    c.toNat < 128 ∧ c.toLower = lowerChar c := by
  by_cases ascii : c.toNat < 128
  · exact ⟨ascii, (lowerChar_of_ascii c ascii).symm⟩
  · exfalso
    rw [lowerChar, if_neg ascii] at plain
    cases found : Table.lowerRuns.find? (·.holds c.toNat) with
    | none =>
      rw [found] at plain
      exact ascii plain.2.1
    | some run =>
      rw [found] at plain
      change IsPlain (Char.ofNat (c.toNat + run.shift).toNat) at plain
      obtain ⟨positive, small, noKelvin⟩ := plain
      have holds := List.find?_some found
      rw [Table.CaseRun.holds, Bool.and_eq_true, Bool.and_eq_true, decide_eq_true_eq,
        decide_eq_true_eq] at holds
      rcases toNat_ofNat_cases (c.toNat + run.shift).toNat with moved | null
      · rcases shifted_of_mem_lowerRuns run (List.mem_of_find?_eq_some found) with
          outside | ⟨first, last, shift⟩
        · omega
        · have kelvin : c.toNat = 0x212A := by omega
          rw [kelvin, shift] at noKelvin
          exact noKelvin rfl
      · omega

/-! Words. -/

theorem lowerFrom_sigma (cs : List Char) : ∃ small, (small = 'ς' ∨ small = 'σ') ∧
    lowerFrom before ('Σ' :: cs) = small :: lowerFrom ('Σ' :: before) cs := by
  rw [lowerFrom, if_pos rfl]
  split
  · exact ⟨'ς', .inl rfl, rfl⟩
  · exact ⟨'σ', .inr rfl, rfl⟩

theorem lowerFrom_dottedI :
    lowerFrom before ('İ' :: cs) = 'i' :: '\u0307' :: lowerFrom ('İ' :: before) cs := rfl

theorem lowerFrom_cons (noSigma : c ≠ 'Σ') (noDottedI : c ≠ 'İ') :
    lowerFrom before (c :: cs) = lowerChar c :: lowerFrom (c :: before) cs := by
  rw [lowerFrom, if_neg noSigma, if_neg noDottedI]
  rfl

theorem lowerFrom_append (front : List Char) :
    ∃ small, lowerFrom before (front ++ cs) = small ++ lowerFrom (front.reverse ++ before) cs := by
  induction front generalizing before with
  | nil => exact ⟨[], rfl⟩
  | cons c front ih =>
    obtain ⟨small, rest⟩ := ih (c :: before)
    rw [List.cons_append, lowerFrom, rest, List.reverse_cons, List.append_assoc,
      List.singleton_append, ← List.append_assoc]
    exact ⟨_, rfl⟩

/-- A word in ASCII letters becomes the word in small ones. -/
theorem lowerFrom_name (name word : List Char) (plain : ∀ d ∈ word, IsPlain d)
    (spelled : name.map Char.toLower = word) :
    lowerFrom before (name ++ cs) = word ++ lowerFrom (name.reverse ++ before) cs := by
  subst spelled
  induction name generalizing before with
  | nil => rfl
  | cons c name ih =>
    rw [List.map_cons, List.forall_mem_cons] at plain
    have ascii := toNat_lt_of_toLower c plain.1.2.1
    have noSigma : c ≠ 'Σ' := by
      rintro rfl
      exact absurd ascii (by decide)
    have noDottedI : c ≠ 'İ' := by
      rintro rfl
      exact absurd ascii (by decide)
    rw [List.cons_append, lowerFrom_cons c before _ noSigma noDottedI, ih (c :: before) plain.2,
      lowerChar_of_ascii c ascii, List.reverse_cons, List.append_assoc]
    rfl

/-- A plain word at the front of a lower-case form comes from the word in ASCII letters. A last `i`
could be the beginning of a longer form. -/
theorem exists_name_of_prefix (word : List Char) (plain : ∀ d ∈ word, IsPlain d)
    (last : word.getLast? ≠ some 'i') (front : word <+: lowerFrom before cs) :
    ∃ name behind, cs = name ++ behind ∧ name.map Char.toLower = word := by
  induction word generalizing before cs with
  | nil => exact ⟨[], cs, rfl, rfl⟩
  | cons d word ih =>
    rw [List.forall_mem_cons] at plain
    cases cs with
    | nil => cases List.prefix_nil.mp front
    | cons c cs =>
      by_cases sigma : c = 'Σ'
      · subst sigma
        obtain ⟨small, greek, form⟩ := lowerFrom_sigma before cs
        rw [form, List.cons_prefix_cons] at front
        rw [front.1] at plain
        rcases greek with rfl | rfl <;> exact absurd plain.1 (by decide)
      by_cases dottedI : c = 'İ'
      · subst dottedI
        rw [lowerFrom_dottedI, List.cons_prefix_cons] at front
        obtain ⟨rfl, front⟩ := front
        cases word with
        | nil => exact absurd rfl last
        | cons e word =>
          rw [List.cons_prefix_cons] at front
          rw [List.forall_mem_cons, front.1] at plain
          exact absurd plain.2.1 (by decide)
      · rw [lowerFrom_cons c before cs sigma dottedI, List.cons_prefix_cons] at front
        obtain ⟨rfl, front⟩ := front
        have further : word.getLast? ≠ some 'i' := by
          cases word with
          | nil => exact nofun
          | cons e word => rwa [List.getLast?_cons_cons] at last
        obtain ⟨name, behind, rfl, spelled⟩ := ih (c :: before) cs plain.2 further front
        refine ⟨c :: name, behind, rfl, ?_⟩
        rw [List.map_cons, spelled, (toLower_eq_of_lowerChar c plain.1).2]

/-- The lower-case form of a text holds a plain word exactly when the text holds it in ASCII letters
of either case. -/
theorem infix_lowerFrom_iff (d : Char) (word : List Char) (plain : ∀ e ∈ d :: word, IsPlain e)
    (last : (d :: word).getLast? ≠ some 'i') :
    d :: word <:+: lowerFrom before cs ↔
      ∃ front name behind, cs = front ++ name ++ behind ∧ name.map Char.toLower = d :: word := by
  constructor
  · intro inside
    induction cs generalizing before with
    | nil => cases List.infix_nil.mp inside
    | cons c cs ih =>
      have atFront (whole : d :: word <+: lowerFrom before (c :: cs)) :
          ∃ front name behind, c :: cs = front ++ name ++ behind ∧
            name.map Char.toLower = d :: word := by
        obtain ⟨name, behind, parts, spelled⟩ :=
          exists_name_of_prefix before (c :: cs) (d :: word) plain last whole
        exact ⟨[], name, behind, parts, spelled⟩
      have later (further : d :: word <:+: lowerFrom (c :: before) cs) :
          ∃ front name behind, c :: cs = front ++ name ++ behind ∧
            name.map Char.toLower = d :: word := by
        obtain ⟨front, name, behind, rfl, spelled⟩ := ih (c :: before) further
        exact ⟨c :: front, name, behind, rfl, spelled⟩
      by_cases sigma : c = 'Σ'
      · subst sigma
        obtain ⟨small, -, form⟩ := lowerFrom_sigma before cs
        rw [form, List.infix_cons_iff, ← form] at inside
        exact inside.elim atFront later
      by_cases dottedI : c = 'İ'
      · subst dottedI
        rw [lowerFrom_dottedI, List.infix_cons_iff, ← lowerFrom_dottedI, List.infix_cons_iff]
          at inside
        rcases inside with whole | inDot | behind
        · exact atFront whole
        · rw [List.cons_prefix_cons] at inDot
          have dot := plain d List.mem_cons_self
          rw [inDot.1] at dot
          exact absurd dot (by decide)
        · exact later behind
      · have form := lowerFrom_cons c before cs sigma dottedI
        rw [form, List.infix_cons_iff, ← form] at inside
        exact inside.elim atFront later
  · rintro ⟨front, name, behind, rfl, spelled⟩
    rw [List.append_assoc]
    obtain ⟨small, form⟩ := lowerFrom_append before (name ++ behind) front
    rw [form, lowerFrom_name _ behind name (d :: word) plain spelled]
    exact ⟨small, _, List.append_assoc ..⟩

end RustLint.Text
