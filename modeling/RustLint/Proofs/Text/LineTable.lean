import RustLint.Text.LineTable
import Mathlib.Data.List.DropRight
import Mathlib.Data.List.Induction

set_option autoImplicit false

namespace RustLint.Text

/-! The places behind line feeds. -/

section

variable (offset : Nat) (bytes : List UInt8)

theorem behindFeeds_append (more : List UInt8) : behindFeeds offset (bytes ++ more) =
    behindFeeds offset bytes ++ behindFeeds (offset + bytes.length) more := by
  induction bytes generalizing offset with
  | nil => rfl
  | cons b bytes ih =>
    rw [List.cons_append, behindFeeds, behindFeeds, ih, List.length_cons, Nat.add_right_comm,
      ← Nat.add_assoc]
    split
    · rw [List.cons_append, Nat.add_right_comm]
    · rw [Nat.add_right_comm]

theorem length_behindFeeds : (behindFeeds offset bytes).length = bytes.count 10 := by
  induction bytes generalizing offset with
  | nil => rfl
  | cons b bytes ih =>
    rw [behindFeeds, List.count_cons]
    simp only [beq_iff_eq]
    split
    · rw [List.length_cons, ih]
    · rw [ih, Nat.add_zero]

theorem within_of_mem_behindFeeds (place : Nat) (listed : place ∈ behindFeeds offset bytes) :
    offset < place ∧ place ≤ offset + bytes.length := by
  induction bytes generalizing offset with
  | nil => cases listed
  | cons b bytes ih =>
    have later (listed : place ∈ behindFeeds (offset + 1) bytes) :
        offset < place ∧ place ≤ offset + (b :: bytes).length := by
      have within := ih (offset + 1) listed
      rw [List.length_cons]
      omega
    rw [behindFeeds] at listed
    split at listed
    · rcases List.mem_cons.mp listed with rfl | listed
      · rw [List.length_cons]
        omega
      · exact later listed
    · exact later listed

/-- The last line of a text begins behind its last line feed. -/
theorem getLast_behindFeeds :
    (offset :: behindFeeds offset bytes).getLast (List.cons_ne_nil _ _) =
      offset + (bytes.rdropWhile (· != 10)).length := by
  induction bytes using List.reverseRecOn with
  | nil => rfl
  | append_singleton bytes b ih =>
    simp only [behindFeeds_append, behindFeeds]
    by_cases feed : b = 10
    · subst feed
      rw [List.rdropWhile_concat_neg _ _ _ (by decide)]
      simp [Nat.add_assoc]
    · rw [List.rdropWhile_concat_pos _ _ _ (by simpa using feed), ← ih]
      simp [feed]

end

namespace LineTable

variable (table : LineTable) (offset : Nat)

/-- Where the lines up to one are just those that begin at the offset or before it, the search ends
at that line, if it lies in the range. -/
theorem search_eq (line lo hi : Nat) (ordered : lo ≤ hi) (inside : hi < table.starts.size)
    (begun : ∀ i (bound : i < table.starts.size), table.starts[i] ≤ offset ↔ i ≤ line)
    (lower : lo ≤ line) (upper : line ≤ hi) :
    (table.search offset lo hi ordered inside : Nat) = line := by
  fun_induction search table offset lo hi ordered inside with
  | case1 lo hi ordered inside more mid before ih =>
    exact ih ((begun mid _).mp before) upper
  | case2 lo hi ordered inside more mid behind ih =>
    have above := mt (begun mid _).mpr behind
    exact ih lower (by omega)
  | case3 lo hi ordered inside done =>
    change lo = line
    omega

variable (front behind : List UInt8)

/-- The lines that begin up to a position, and those that begin behind it. -/
theorem toList_starts_ofBytes : (ofBytes (front ++ behind)).starts.toList =
    (0 :: behindFeeds 0 front) ++ behindFeeds front.length behind := by
  change 0 :: behindFeeds 0 (front ++ behind) = _
  rw [behindFeeds_append, Nat.zero_add, List.cons_append]

theorem length_linesUpTo : (0 :: behindFeeds 0 front).length = front.count 10 + 1 := by
  rw [List.length_cons, length_behindFeeds]

/-- As many lines begin behind the first as there are line feeds in front of the position. -/
theorem starts_le_iff (i : Nat) (bound : i < (ofBytes (front ++ behind)).starts.size) :
    (ofBytes (front ++ behind)).starts[i] ≤ front.length ↔ i ≤ front.count 10 := by
  have length := length_linesUpTo front
  have bound' : i < ((0 :: behindFeeds 0 front) ++ behindFeeds front.length behind).length := by
    rwa [← toList_starts_ofBytes, Array.length_toList]
  have entry : (ofBytes (front ++ behind)).starts[i] =
      ((0 :: behindFeeds 0 front) ++ behindFeeds front.length behind)[i] := by
    simp only [← toList_starts_ofBytes, Array.getElem_toList]
  rw [entry]
  by_cases upTo : i < (0 :: behindFeeds 0 front).length
  · rw [List.getElem_append_left upTo]
    refine iff_of_true ?_ (by omega)
    rcases List.mem_cons.mp (List.getElem_mem upTo) with first | listed
    · rw [first]
      exact Nat.zero_le _
    · have within := within_of_mem_behindFeeds 0 front _ listed
      omega
  · rw [List.getElem_append_right (Nat.le_of_not_lt upTo)]
    refine iff_of_false ?_ (by omega)
    rw [Nat.not_le]
    exact (within_of_mem_behindFeeds front.length behind _ (List.getElem_mem _)).1

/-- The line of a position counts the line feeds in front of it. -/
theorem lineOf_ofBytes : ((ofBytes (front ++ behind)).lineOf front.length : Nat) =
    front.count 10 := by
  have size : (ofBytes (front ++ behind)).starts.size = (front ++ behind).count 10 + 1 := by
    rw [← length_linesUpTo, ← Array.length_toList]
    rfl
  rw [List.count_append] at size
  exact search_eq _ _ _ _ _ _ _ (starts_le_iff front behind) (Nat.zero_le _) (by omega)

/-- The line of a position begins behind the last line feed in front of it. -/
theorem startOf_ofBytes : (ofBytes (front ++ behind)).startOf front.length =
    (front.rdropWhile (· != 10)).length := by
  have last := getLast_behindFeeds 0 front
  rw [Nat.zero_add, List.getLast_eq_getElem] at last
  rw [← last, startOf, Fin.getElem_fin]
  simp only [lineOf_ofBytes, ← Array.getElem_toList, toList_starts_ofBytes, length_linesUpTo,
    Nat.add_sub_cancel]
  exact List.getElem_append_left (by rw [length_linesUpTo]; omega)

end LineTable

end RustLint.Text
