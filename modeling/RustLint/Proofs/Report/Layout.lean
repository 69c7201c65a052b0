import Mathlib.Data.List.Basic
import RustLint.Report.Json

set_option autoImplicit false

namespace RustLint.Report.Json

/-! Lines. -/

/-- The lines between two brackets. -/
def between (level : Nat) (members : List (List Char)) : List Char :=
  List.intercalate [','] (members.map (newLine level ++ ·))

theorem between_single (level : Nat) (member : List Char) :
    between level [member] = newLine level ++ member := by
  simp [between]

theorem between_cons (level : Nat) (member next : List Char) (members : List (List Char)) :
    between level (member :: next :: members) =
      newLine level ++ member ++ ',' :: between level (next :: members) := by
  simp [between, List.intercalate_cons_cons]

theorem between_append_cons (level : Nat) (member : List Char) (members : List (List Char))
    (behind : List Char) : ∃ more,
      between level (member :: members) ++ behind = newLine level ++ (member ++ more) := by
  cases members with
  | nil => exact ⟨behind, by rw [between_single, List.append_assoc]⟩
  | cons next members =>
    exact ⟨',' :: between level (next :: members) ++ behind, by
      rw [between_cons, List.append_assoc, List.append_assoc]⟩

theorem length_newLine (level : Nat) : (newLine level).length = 2 * level + 1 := by
  simp [newLine]

theorem enclose_eq (opening closing : Char) (level : Nat) (members : List (List Char))
    (filled : members ≠ []) : enclose opening closing level members =
      opening :: (between (level + 1) members ++ (newLine level ++ [closing])) := by
  rw [enclose, if_neg (by rwa [List.isEmpty_iff]), List.cons_append, List.cons_append,
    List.append_assoc]
  rfl

theorem length_enclose (opening closing : Char) (level : Nat) (members : List (List Char))
    (filled : members ≠ []) : (enclose opening closing level members).length =
      (between (level + 1) members).length + 2 * level + 3 := by
  simp only [enclose_eq opening closing level members filled, List.length_cons,
    List.length_append, length_newLine, List.length_nil]
  omega

theorem enclose_append (opening closing : Char) (level : Nat) (members : List (List Char))
    (rest : List Char) (filled : members ≠ []) :
    enclose opening closing level members ++ rest =
      opening :: (between (level + 1) members ++ (newLine level ++ closing :: rest)) := by
  rw [enclose_eq opening closing level members filled, List.cons_append, List.append_assoc,
    List.append_assoc]
  rfl

/-! Values. -/

mutual

/-- The text of a value with all its numbers written out. -/
def layout (level : Nat) : Json → List Char
  | null => "null".toList
  | number n => (toString n).toList
  | text s => quote s
  | list items => enclose '[' ']' level (layoutOfItems (level + 1) items)
  | object members => enclose '\x7b' '\x7d' level (layoutOfMembers (level + 1) members)

def layoutOfItems (level : Nat) : List Json → List (List Char)
  | [] => []
  | item :: items => layout level item :: layoutOfItems level items

def layoutOfMembers (level : Nat) : List (String × Json) → List (List Char)
  | [] => []
  | (key, value) :: members =>
    (quote key ++ ':' :: ' ' :: layout level value) :: layoutOfMembers level members

end

mutual

/-- The numbers in a value, in order. -/
def numbers : Json → List Int
  | null | text _ => []
  | number n => [n]
  | list items => numbersOfItems items
  | object members => numbersOfMembers members

def numbersOfItems : List Json → List Int
  | [] => []
  | item :: items => numbers item ++ numbersOfItems items

def numbersOfMembers : List (String × Json) → List Int
  | [] => []
  | (_, value) :: members => numbers value ++ numbersOfMembers members

end

mutual

/-- A value has a text exactly if every number in it fits, and the text is its layout. -/
theorem chars?_eq (limit : Option Nat) (level : Nat) : ∀ j : Json,
    j.chars? limit level = if j.numbers.all (fits limit) then some (j.layout level) else none
  | .null | .text _ => rfl
  | .number n => by rw [chars?, numbers, List.all_cons, List.all_nil, Bool.and_true, layout]
  | .list items => by
    rw [chars?, charsOfItems?_eq limit (level + 1) items, numbers, layout]
    split <;> rfl
  | .object members => by
    rw [chars?, charsOfMembers?_eq limit (level + 1) members, numbers, layout]
    split <;> rfl

theorem charsOfItems?_eq (limit : Option Nat) (level : Nat) : ∀ items : List Json,
    charsOfItems? limit level items =
      if (numbersOfItems items).all (fits limit) then some (layoutOfItems level items) else none
  | [] => rfl
  | item :: items => by
    rw [charsOfItems?, chars?_eq limit level item, charsOfItems?_eq limit level items,
      numbersOfItems, List.all_append, layoutOfItems]
    cases item.numbers.all (fits limit) <;>
      cases (numbersOfItems items).all (fits limit) <;> rfl

theorem charsOfMembers?_eq (limit : Option Nat) (level : Nat) : ∀ members : List (String × Json),
    charsOfMembers? limit level members =
      if (numbersOfMembers members).all (fits limit) then some (layoutOfMembers level members)
      else none
  | [] => rfl
  | (key, value) :: members => by
    rw [charsOfMembers?, chars?_eq limit level value, charsOfMembers?_eq limit level members,
      numbersOfMembers, List.all_append, layoutOfMembers]
    cases value.numbers.all (fits limit) <;>
      cases (numbersOfMembers members).all (fits limit) <;> rfl

end

theorem render?_eq (limit : Option Nat) (j : Json) : j.render? limit =
    if j.numbers.all (fits limit) then some (String.ofList (j.layout 0)) else none := by
  rw [render?, chars?_eq]
  split <;> rfl

/-! ASCII. -/

/-- Only characters of ASCII. -/
def Ascii (cs : List Char) : Prop := ∀ c ∈ cs, c.toNat < 128

theorem Ascii.append {cs ds : List Char} (first : Ascii cs) (second : Ascii ds) :
    Ascii (cs ++ ds) := List.forall_mem_append.mpr ⟨first, second⟩

theorem Ascii.cons {c : Char} {cs : List Char} (first : c.toNat < 128) (others : Ascii cs) :
    Ascii (c :: cs) := List.forall_mem_cons.mpr ⟨first, others⟩

theorem ascii_null : Ascii "null".toList := by simp [Ascii]

theorem ascii_hexDigits (width n : Nat) : Ascii (Text.hexDigits width n) := by
  induction width generalizing n with
  | zero => exact List.forall_mem_nil _
  | succ width ih =>
    have digit : ∀ k < 16, (Text.hexDigit k).toNat < 128 := by decide
    exact (ih _).append (.cons (digit _ (Nat.mod_lt _ (by decide))) (List.forall_mem_nil _))

theorem ascii_escapeUnit (n : Nat) : Ascii (escapeUnit n) :=
  .cons (by decide) (.cons (by decide) (ascii_hexDigits 4 n))

theorem ascii_escapeChar (c : Char) : Ascii (escapeChar c) := by
  have two (d : Char) (small : d.toNat < 128) : Ascii ['\\', d] :=
    .cons (by decide) (.cons small (List.forall_mem_nil _))
  unfold escapeChar
  split
  · next quoted =>
    rw [Bool.or_eq_true, decide_eq_true_eq, decide_eq_true_eq] at quoted
    obtain rfl | rfl := quoted <;> exact two _ (by decide)
  iterate 5 (split; · exact two _ (by decide))
  split
  · next visible =>
    have atMost : c ≤ '~' := by simp_all
    have bound : c.toNat ≤ 126 := atMost
    exact .cons (by omega) (List.forall_mem_nil _)
  · rw [escapeCodePoint]
    split
    · exact ascii_escapeUnit _
    · exact (ascii_escapeUnit _).append (ascii_escapeUnit _)

theorem ascii_quote (s : String) : Ascii (quote s) := by
  have inside : Ascii (s.toList.flatMap escapeChar) := by
    intro d among
    obtain ⟨c, -, among⟩ := List.mem_flatMap.mp among
    exact ascii_escapeChar c d among
  exact .append (.cons (by decide) inside) (.cons (by decide) (List.forall_mem_nil _))

theorem ascii_number (n : Int) : Ascii (toString n).toList := by
  have digits (k : Nat) : Ascii (Nat.toDigits 10 k) := by
    intro c among
    have digit := Nat.isDigit_of_mem_toDigits (by decide) (by decide) among
    have bounds : '0' ≤ c ∧ c ≤ '9' := by simpa [Char.isDigit, Char.le_def] using digit
    have bound : c.toNat ≤ 57 := bounds.2
    omega
  rw [Int.toString_eq_repr]
  cases n with
  | ofNat n => exact Nat.toList_repr (n := n) ▸ digits n
  | negSucc n =>
    rw [Int.repr, String.toList_append, Nat.toList_repr]
    exact .cons (by decide) (digits _)

theorem ascii_newLine (level : Nat) : Ascii (newLine level) :=
  .cons (by decide) fun c blank => by rw [List.eq_of_mem_replicate blank]; decide

theorem ascii_between (level : Nat) : ∀ members : List (List Char),
    (∀ member ∈ members, Ascii member) → Ascii (between level members)
  | [], _ => List.forall_mem_nil _
  | [member], inside => by
    rw [between_single]
    exact (ascii_newLine level).append (inside member List.mem_cons_self)
  | member :: next :: members, inside => by
    obtain ⟨first, others⟩ := List.forall_mem_cons.mp inside
    rw [between_cons]
    exact ((ascii_newLine level).append first).append
      (.cons (by decide) (ascii_between level (next :: members) others))

theorem ascii_enclose (opening closing : Char) (level : Nat) (members : List (List Char))
    (first : opening.toNat < 128) (last : closing.toNat < 128)
    (inside : ∀ member ∈ members, Ascii member) :
    Ascii (enclose opening closing level members) := by
  by_cases filled : members = []
  · rw [filled]
    exact .cons first (.cons last (List.forall_mem_nil _))
  · rw [enclose_eq opening closing level members filled]
    exact .cons first ((ascii_between (level + 1) members inside).append
      ((ascii_newLine level).append (.cons last (List.forall_mem_nil _))))

mutual

/-- The text of a value is in ASCII. -/
theorem ascii_layout (level : Nat) : ∀ j : Json, Ascii (j.layout level)
  | .null => ascii_null
  | .number n => ascii_number n
  | .text s => ascii_quote s
  | .list items => ascii_enclose _ _ _ _ (by decide) (by decide) (ascii_layoutOfItems _ items)
  | .object members =>
    ascii_enclose _ _ _ _ (by decide) (by decide) (ascii_layoutOfMembers _ members)

theorem ascii_layoutOfItems (level : Nat) : ∀ items : List Json,
    ∀ text ∈ layoutOfItems level items, Ascii text
  | [] => List.forall_mem_nil _
  | item :: items =>
    List.forall_mem_cons.mpr ⟨ascii_layout level item, ascii_layoutOfItems level items⟩

theorem ascii_layoutOfMembers (level : Nat) : ∀ members : List (String × Json),
    ∀ text ∈ layoutOfMembers level members, Ascii text
  | [] => List.forall_mem_nil _
  | (key, value) :: members =>
    List.forall_mem_cons.mpr ⟨(ascii_quote key).append
      (.cons (by decide) (.cons (by decide) (ascii_layout level value))),
      ascii_layoutOfMembers level members⟩

end

end RustLint.Report.Json
