import RustLint.Path
import Mathlib.Data.List.Lex
import Mathlib.Data.Prod.Lex
import Mathlib.Data.String.Basic

set_option autoImplicit false

namespace RustLint.Path

theorem lex_map_toNat (as bs : List Char) :
    (as.map Char.toNat).lex (bs.map Char.toNat) Nat.blt = true ↔ as < bs := by
  induction as generalizing bs with
  | nil =>
    cases bs with
    | nil => simp
    | cons b bs => simp [List.nil_lt_cons]
  | cons a as ih =>
    cases bs with
    | nil => simp
    | cons b bs =>
      have order : Nat.blt a.toNat b.toNat = true ↔ a < b := by
        rw [Nat.blt_eq]
        exact Iff.rfl
      have same : (a.toNat == b.toNat) = true ↔ a = b := by
        rw [beq_iff_eq, Char.toNat_inj]
      rw [List.map_cons, List.map_cons, List.cons_lex_cons, List.cons_lt_cons_iff,
        Bool.or_eq_true, Bool.and_eq_true, order, same, ih]

theorem nameLt_iff (a b : String) : nameLt a b = true ↔ a < b := by
  rw [nameLt, lex_map_toNat, String.lt_iff_toList_lt]

/-- What paths are compared by. -/
def rank (p : Path) : ℕ ×ₗ List String := toLex (p.leading, p.parts)

theorem rank_injective : Function.Injective rank := by
  intro p q same
  cases p
  cases q
  cases same
  rfl

theorem le_iff (p q : Path) : p.le q = true ↔ p.rank ≤ q.rank := by
  have names : q.parts.lex p.parts nameLt = true ↔ q.parts < p.parts := by
    rw [List.lex_eq_true_iff_lex, ← List.lex_lt]
    simp only [nameLt_iff]
  rw [le, rank, rank, Prod.Lex.toLex_le_toLex]
  split
  · next same =>
    rw [Bool.not_eq_true', ← Bool.not_eq_true, names, not_lt]
    simp [same]
  · next other =>
    rw [decide_eq_true_eq]
    dsimp only
    omega

theorem le_total (p q : Path) : (p.le q || q.le p) = true := by
  rw [Bool.or_eq_true, le_iff, le_iff]
  exact LinearOrder.le_total p.rank q.rank

theorem le_trans (p q r : Path) (first : p.le q = true) (second : q.le r = true) :
    p.le r = true := by
  rw [le_iff] at first second ⊢
  exact first.trans second

theorem le_antisymm (p q : Path) (first : p.le q = true) (second : q.le p = true) : p = q := by
  rw [le_iff] at first second
  exact rank_injective (first.antisymm second)

/-! Lists in this order. -/

/-- Each path comes before all that follow it. -/
def Ascends (ps : List Path) : Prop := ps.Pairwise fun p q => p.le q = true ∧ p ≠ q

theorem ascends_mergeSort (ps : List Path) (distinct : ps.Nodup) : Ascends (ps.mergeSort le) := by
  have sorted := List.pairwise_mergeSort le_trans le_total ps
  have still : (ps.mergeSort le).Nodup := (List.mergeSort_perm ps le).nodup_iff.mpr distinct
  exact sorted.and still

theorem Ascends.nodup {ps : List Path} (ascends : Ascends ps) : ps.Nodup :=
  ascends.imp And.right

/-- The members tell the whole list. -/
theorem Ascends.ext {ps qs : List Path} (first : Ascends ps) (second : Ascends qs)
    (same : ∀ p, p ∈ ps ↔ p ∈ qs) : ps = qs := by
  have perm : ps.Perm qs := (List.perm_ext_iff_of_nodup first.nodup second.nodup).mpr same
  apply perm.eq_of_pairwise _ (first.imp And.left) (second.imp And.left)
  exact fun p q _ _ => le_antisymm p q

theorem Ascends.filter {ps : List Path} (ascends : Ascends ps) (keeps : Path → Bool) :
    Ascends (ps.filter keeps) :=
  List.Pairwise.filter keeps ascends

end RustLint.Path
