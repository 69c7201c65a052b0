import Mathlib.Algebra.Group.Nat.Defs
import RustLint.Proofs.Report.Layout
import RustLint.Proofs.Report.Reader

set_option autoImplicit false

namespace RustLint.Report.Datum

/-! Texts. -/

theorem hexDigit?_hexDigit (n : Nat) (small : n < 16) : hexDigit? (Text.hexDigit n) = some n := by
  revert n
  decide

theorem hexValue?_append (n : Nat) (cs ds : List Char) :
    hexValue? n (cs ++ ds) = (hexValue? n cs).bind (hexValue? · ds) := by
  induction cs generalizing n with
  | nil => rfl
  | cons c cs ih =>
    simp only [List.cons_append, hexValue?, Option.bind_eq_bind, Option.bind_assoc, ih]

theorem hexValue?_hexDigits (width start n : Nat) (small : n < 16 ^ width) :
    hexValue? start (Text.hexDigits width n) = some (16 ^ width * start + n) := by
  induction width generalizing n with
  | zero =>
    have zero : n = 0 := by omega
    rw [zero, Nat.pow_zero, Nat.one_mul, Nat.add_zero]
    rfl
  | succ width ih =>
    rw [Nat.pow_succ] at small
    rw [Text.hexDigits, hexValue?_append, ih (n / 16) (by omega)]
    simp only [Option.bind_some, hexValue?, hexDigit?_hexDigit (n % 16) (by omega),
      Option.bind_eq_bind, Option.some.injEq]
    rw [Nat.pow_succ, Nat.mul_right_comm]
    omega

/-- What is read behind code units. -/
def behind (units : List Nat) (read : List Nat × List Char) : List Nat × List Char :=
  (units ++ read.1, read.2)

theorem units?_escapeUnit (n : Nat) (small : n < 0x10000) (rest : List Char) :
    units? (Json.escapeUnit n ++ rest) = (units? rest).map (behind [n]) := by
  have value := hexValue?_hexDigits 4 0 n (by omega)
  simp only [Json.escapeUnit, Text.hexDigits, List.nil_append, List.cons_append] at value ⊢
  simp only [units?, value, Option.bind_eq_bind, Option.bind_some, Nat.mul_zero, Nat.zero_add]
  cases units? rest <;> rfl

theorem units?_escapeCodePoint (c : Char) (rest : List Char) :
    units? (Json.escapeCodePoint c.toNat ++ rest) = (units? rest).map (behind (unitsOf c)) := by
  have number : c.toNat < 0xD800 ∨ 0xDFFF < c.toNat ∧ c.toNat < 0x110000 := c.valid
  rw [Json.escapeCodePoint, unitsOf]
  split
  · next single => exact units?_escapeUnit _ single rest
  · rw [List.append_assoc, units?_escapeUnit _ (by omega), units?_escapeUnit _ (by omega),
      Option.map_map]
    rfl

theorem units?_escaped (c : Char) (unit : Nat) (rest : List Char) (notUnit : c ≠ 'u')
    (escapes : escaped? c = some unit) :
    units? ('\\' :: c :: rest) = (units? rest).map (behind [unit]) := by
  rw [units?]
  · rw [escapes]
    cases units? rest <;> rfl
  · grind

theorem units?_plain (c : Char) (rest : List Char) (notQuote : c ≠ '"') (notEscape : c ≠ '\\')
    (visible : 0x20 ≤ c.toNat) :
    units? (c :: rest) = (units? rest).map (behind (unitsOf c)) := by
  rw [units?]
  · rw [if_neg (by omega)]
    cases units? rest <;> rfl
  all_goals grind

/-- A character as it is written is read as its code units. -/
theorem units?_escapeChar (c : Char) (rest : List Char) :
    units? (Json.escapeChar c ++ rest) = (units? rest).map (behind (unitsOf c)) := by
  unfold Json.escapeChar
  split
  · next quoted =>
    rw [Bool.or_eq_true, decide_eq_true_eq, decide_eq_true_eq] at quoted
    obtain rfl | rfl := quoted <;> exact units?_escaped _ _ rest (by decide) rfl
  · next unquoted =>
    rw [Bool.or_eq_true, decide_eq_true_eq, decide_eq_true_eq, not_or] at unquoted
    split
    · next newline => subst newline; exact units?_escaped 'n' _ rest (by decide) rfl
    split
    · next carriage => subst carriage; exact units?_escaped 'r' _ rest (by decide) rfl
    split
    · next tab => subst tab; exact units?_escaped 't' _ rest (by decide) rfl
    split
    · next feed => subst feed; exact units?_escaped 'f' _ rest (by decide) rfl
    split
    · next back => subst back; exact units?_escaped 'b' _ rest (by decide) rfl
    split
    · next visible =>
      have atLeast : ' ' ≤ c := by simp_all
      exact units?_plain c rest unquoted.1 unquoted.2 atLeast
    · exact units?_escapeCodePoint c rest

/-- The code units of a character stand for it, whatever comes behind them. -/
theorem charsOf?_unitsOf (c : Char) (units : List Nat) :
    charsOf? (unitsOf c ++ units) = (charsOf? units).map (c :: ·) := by
  have number : c.toNat < 0xD800 ∨ 0xDFFF < c.toNat ∧ c.toNat < 0x110000 := c.valid
  have self : Char.ofNat c.toNat = c := Char.ofNat_toNat c
  rw [unitsOf]
  split
  · have lone : ¬ ((isLead c.toNat || isTrail c.toNat) = true) := by
      simp only [isLead, isTrail, Bool.or_eq_true, Bool.and_eq_true, decide_eq_true_eq]
      omega
    cases units with
    | nil => simp only [List.append_nil, charsOf?, if_neg lone, self, Option.map_some]
    | cons next units =>
      have noPair : ¬ ((isLead c.toNat && isTrail next) = true) := by
        rw [Bool.and_eq_true]
        exact fun pair => lone (by rw [pair.1, Bool.true_or])
      simp only [List.cons_append, List.nil_append, charsOf?, if_neg lone, if_neg noPair, self]
  · have pair : (isLead (0xD800 + (c.toNat - 0x10000) / 0x400) &&
        isTrail (0xDC00 + (c.toNat - 0x10000) % 0x400)) = true := by
      simp only [isLead, isTrail, Bool.and_eq_true, decide_eq_true_eq]
      omega
    have back : 0x10000 + 0x400 * (0xD800 + (c.toNat - 0x10000) / 0x400 - 0xD800) +
        (0xDC00 + (c.toNat - 0x10000) % 0x400 - 0xDC00) = c.toNat := by omega
    simp only [List.cons_append, List.nil_append, charsOf?, if_pos pair, back, self]

theorem units?_flatMap (cs rest : List Char) :
    units? (cs.flatMap Json.escapeChar ++ '"' :: rest) = some (cs.flatMap unitsOf, rest) := by
  induction cs with
  | nil => rw [List.flatMap_nil, List.nil_append, units?, List.flatMap_nil]
  | cons c cs ih =>
    rw [List.flatMap_cons, List.append_assoc, units?_escapeChar, ih]
    rfl

theorem charsOf?_flatMap (cs : List Char) : charsOf? (cs.flatMap unitsOf) = some cs := by
  induction cs with
  | nil => rfl
  | cons c cs ih => rw [List.flatMap_cons, charsOf?_unitsOf, ih, Option.map_some]

/-- A text is read back from behind its opening quote. -/
theorem text?_quote (s : String) (rest : List Char) :
    text? (s.toList.flatMap Json.escapeChar ++ '"' :: rest) = some (s, rest) := by
  simp only [text?, units?_flatMap, charsOf?_flatMap, Option.bind_eq_bind, Option.bind_some,
    String.ofList_toList]

/-! Numbers. -/

/-- What may stand behind a value in a report. -/
def Ends (rest : List Char) : Prop := ∀ c ∈ rest.head?, c = ',' ∨ c = '\n'

theorem digits?_append (digits rest : List Char) (some : digits ≠ [])
    (all : ∀ c ∈ digits, c.isDigit = true) (ends : Ends rest) :
    digits? (digits ++ rest) = Option.some (digits, rest) := by
  have stops : ∀ c ∈ rest.head?, c.isDigit = false := by
    intro c head
    obtain rfl | rfl := ends c head <;> rfl
  have front : rest.takeWhile Char.isDigit = [] ∧ rest.dropWhile Char.isDigit = rest := by
    cases rest with
    | nil => exact ⟨rfl, rfl⟩
    | cons c rest => simp [stops c rfl]
  simp only [digits?, List.takeWhile_append_of_pos all, List.dropWhile_append_of_pos all, front,
    List.append_nil, List.isEmpty_iff, if_neg some]

/-- A number other than zero is not written with a zero in front. -/
theorem head?_toDigits (n : Nat) (positive : 0 < n) : (Nat.toDigits 10 n).head? ≠ some '0' := by
  induction n using Nat.strongRecOn with
  | ind n ih =>
    rw [Nat.toDigits_eq_if (by decide)]
    split
    · rw [List.head?_cons, ne_eq, Option.some.injEq, Nat.digitChar_eq_zero]
      omega
    · rw [List.head?_append_of_ne_nil _ Nat.toDigits_ne_nil]
      exact ih (n / 10) (by omega) (by omega)

theorem whole?_toDigits (n : Nat) (rest : List Char) (ends : Ends rest) :
    whole? (Nat.toDigits 10 n ++ rest) = some (Nat.toDigits 10 n, rest) := by
  have digits : ∀ c ∈ Nat.toDigits 10 n, c.isDigit = true :=
    fun c among => Nat.isDigit_of_mem_toDigits (by decide) (by decide) among
  simp only [whole?, digits?_append _ rest Nat.toDigits_ne_nil digits ends, Option.bind_eq_bind,
    Option.bind_some]
  refine if_neg fun padded => ?_
  rw [Bool.and_eq_true, decide_eq_true_eq, bne_iff_ne] at padded
  obtain rfl | positive := Nat.eq_zero_or_pos n
  · exact padded.2 rfl
  · exact head?_toDigits n positive padded.1

theorem fraction?_ends (rest : List Char) (ends : Ends rest) :
    fraction? rest = some ([], rest) := by
  cases rest with
  | nil => rfl
  | cons c rest => obtain rfl | rfl := ends c rfl <;> rfl

theorem exponent?_ends (rest : List Char) (ends : Ends rest) :
    exponent? rest = some (none, rest) := by
  cases rest with
  | nil => rfl
  | cons c rest => obtain rfl | rfl := ends c rfl <;> rfl

theorem sign_toDigits (n : Nat) (rest : List Char) :
    sign (Nat.toDigits 10 n ++ rest) = (false, Nat.toDigits 10 n ++ rest) := by
  cases digits : Nat.toDigits 10 n with
  | nil => exact absurd digits Nat.toDigits_ne_nil
  | cons c cs =>
    have first : c.isDigit = true :=
      Nat.isDigit_of_mem_toDigits (by decide : 0 < 10) (by decide)
        (digits ▸ List.mem_cons_self : c ∈ Nat.toDigits 10 n)
    have noSign : c ≠ '-' := by rintro rfl; exact absurd first (by decide)
    rw [List.cons_append, sign]
    grind

/-- Digits behind a sign are a whole number. -/
theorem number?_of_sign (cs rest : List Char) (negative : Bool) (n : Nat)
    (signs : sign cs = (negative, Nat.toDigits 10 n ++ rest)) (ends : Ends rest) :
    number? cs = some (number (if negative then -(n : Int) else n), rest) := by
  simp only [number?, signs, whole?_toDigits n rest ends, fraction?_ends rest ends,
    exponent?_ends rest ends, Option.bind_eq_bind, Option.bind_some, signed,
    Nat.ofDigitChars_ten_toDigits]

theorem number?_toString (n : Int) (rest : List Char) (ends : Ends rest) :
    number? ((toString n).toList ++ rest) = some (number n, rest) := by
  rw [Int.toString_eq_repr]
  cases n with
  | ofNat n =>
    have written : (Int.ofNat n).repr.toList = Nat.toDigits 10 n := Nat.toList_repr
    rw [written, number?_of_sign _ rest false n (sign_toDigits n rest) ends]
    rfl
  | negSucc n =>
    have written : (Int.negSucc n).repr.toList = '-' :: Nat.toDigits 10 (n + 1) := by
      rw [Int.repr, String.toList_append, Nat.toList_repr]
      rfl
    rw [written, List.cons_append, number?_of_sign _ rest true (n + 1) rfl ends]
    rfl

/-! Values. -/

mutual

/-- What a written value is read as. -/
def ofJson : Json → Datum
  | .null => null
  | .number n => number n
  | .text s => text s
  | .list items => list (ofItems items)
  | .object members => object (ofMembers members)

def ofItems : List Json → List Datum
  | [] => []
  | item :: items => ofJson item :: ofItems items

def ofMembers : List (String × Json) → List (String × Datum)
  | [] => []
  | (key, value) :: members => (key, ofJson value) :: ofMembers members

end

theorem skipBlanks_newLine (level : Nat) (cs : List Char) :
    skipBlanks (Json.newLine level ++ cs) = skipBlanks cs := by
  have blank : ∀ c ∈ Json.newLine level, isBlank c = true := by
    simp [Json.newLine, isBlank]
  exact List.dropWhile_append_of_pos blank

theorem skipBlanks_cons (c : Char) (cs : List Char) (solid : isBlank c = false) :
    skipBlanks (c :: cs) = c :: cs := by
  simp [skipBlanks, solid]

theorem value?_newLine (steps level : Nat) (cs : List Char) :
    value? steps (Json.newLine level ++ cs) = value? steps cs := by
  cases steps with
  | zero => rfl
  | succ steps => rw [value?, value?, skipBlanks_newLine]

theorem members?_newLine (steps level : Nat) (cs : List Char) :
    members? steps (Json.newLine level ++ cs) = members? steps cs := by
  cases steps with
  | zero => rfl
  | succ steps => rw [members?, members?, skipBlanks_newLine]

/-- A number begins with its sign or a digit. -/
theorem first_number (n : Int) :
    ∃ c cs, (toString n).toList = c :: cs ∧ ∀ d, d ≠ '-' → d.isDigit = false → c ≠ d := by
  rw [Int.toString_eq_repr]
  cases n with
  | ofNat n =>
    obtain ⟨c, cs, digits⟩ := List.exists_cons_of_ne_nil (Nat.toDigits_ne_nil (n := n) (b := 10))
    have first : c.isDigit = true :=
      Nat.isDigit_of_mem_toDigits (by decide : 0 < 10) (by decide)
        (digits ▸ List.mem_cons_self : c ∈ Nat.toDigits 10 n)
    refine ⟨c, cs, Nat.toList_repr.trans digits, ?_⟩
    rintro d - noDigit rfl
    exact absurd first (by rw [noDigit]; decide)
  | negSucc n =>
    exact ⟨'-', _, by rw [Int.repr, String.toList_append]; rfl, fun d noSign _ => noSign.symm⟩

/-- No value begins with a blank or with the end of a list. -/
theorem first_layout (level : Nat) (j : Json) :
    ∃ c cs, j.layout level = c :: cs ∧ isBlank c = false ∧ c ≠ ']' := by
  cases j with
  | null => exact ⟨'n', _, rfl, rfl, by decide⟩
  | number n =>
    obtain ⟨c, cs, written, other⟩ := first_number n
    exact ⟨c, cs, written, by simp [isBlank, other], other ']' (by decide) rfl⟩
  | text s => exact ⟨'"', _, rfl, rfl, by decide⟩
  | list items =>
    rw [Json.layout, Json.enclose]
    split <;> exact ⟨'[', _, rfl, rfl, by decide⟩
  | object members =>
    rw [Json.layout, Json.enclose]
    split <;> exact ⟨'\x7b', _, rfl, rfl, by decide⟩

theorem value?_number (steps : Nat) (n : Int) (rest : List Char) (ends : Ends rest) :
    value? (steps + 1) ((toString n).toList ++ rest) = some (number n, rest) := by
  obtain ⟨c, cs, written, other⟩ := first_number n
  have solid : isBlank c = false := by
    simp [isBlank, other]
  have noWord : word? (c :: (cs ++ rest)) = none := by
    simp [word?, words, List.isPrefixOf?, other, Ne.symm]
  rw [value?, written, List.cons_append, skipBlanks_cons c _ solid]
  simp only [if_neg (other '"' (by decide) rfl), if_neg (other '[' (by decide) rfl),
    if_neg (other '\x7b' (by decide) rfl), noWord, Option.none_or]
  rw [← List.cons_append, ← written, number?_toString n rest ends]

theorem ends_comma (rest : List Char) : Ends (',' :: rest) := fun _ first =>
  .inl (Option.some.inj first).symm

theorem ends_newLine (level : Nat) (rest : List Char) : Ends (Json.newLine level ++ rest) :=
  fun _ first => .inr (Option.some.inj first).symm

theorem value?_blank (steps : Nat) (cs : List Char) :
    value? steps (' ' :: cs) = value? steps cs := by
  cases steps with
  | zero => rfl
  | succ steps => rw [value?, value?]; rfl

theorem value?_text (steps : Nat) (s : String) (rest : List Char) :
    value? (steps + 1) (Json.quote s ++ rest) = some (text s, rest) := by
  rw [Json.quote, List.append_assoc, List.cons_append, value?, skipBlanks_cons _ _ rfl]
  simp only [↓reduceIte, List.cons_append, List.nil_append, text?_quote, Option.bind_eq_bind,
    Option.bind_some]

theorem value?_list (steps : Nat) (cs : List Char) (item : ∀ rest, skipBlanks cs ≠ ']' :: rest) :
    value? (steps + 1) ('[' :: cs) =
      (items? steps cs).map fun (items, rest) => (list items, rest) := by
  rw [value?, skipBlanks_cons _ _ rfl]
  simp only [Char.reduceEq, ↓reduceIte]
  cases items? steps cs <;> rfl

theorem value?_object (steps : Nat) (cs : List Char)
    (member : ∀ rest, skipBlanks cs ≠ '\x7d' :: rest) :
    value? (steps + 1) ('\x7b' :: cs) =
      (members? steps cs).map fun (members, rest) => (object members, rest) := by
  rw [value?, skipBlanks_cons _ _ rfl]
  simp only [Char.reduceEq, ↓reduceIte]
  cases members? steps cs <;> rfl

theorem items?_last (steps outer : Nat) (cs rest : List Char) (item : Datum)
    (reads : value? steps cs = some (item, Json.newLine outer ++ ']' :: rest)) :
    items? (steps + 1) cs = some ([item], rest) := by
  rw [items?, reads]
  simp only [Option.bind_eq_bind, Option.bind_some, skipBlanks_newLine,
    skipBlanks_cons ']' rest rfl]

theorem items?_more (steps : Nat) (cs more rest : List Char) (item : Datum) (items : List Datum)
    (reads : value? steps cs = some (item, ',' :: more))
    (readsMore : items? steps more = some (items, rest)) :
    items? (steps + 1) cs = some (item :: items, rest) := by
  rw [items?, reads]
  simp only [Option.bind_eq_bind, Option.bind_some, skipBlanks_cons ',' more rfl, readsMore]

/-- The key of a member, and the value behind it. -/
theorem members?_last (steps outer : Nat) (key : String) (cs rest : List Char) (value : Datum)
    (reads : value? steps cs = some (value, Json.newLine outer ++ '\x7d' :: rest)) :
    members? (steps + 1) (Json.quote key ++ ':' :: cs) = some ([(key, value)], rest) := by
  rw [members?, Json.quote, List.append_assoc, List.cons_append, skipBlanks_cons _ _ rfl]
  simp only [List.cons_append, List.nil_append, text?_quote, Option.bind_eq_bind, Option.bind_some,
    skipBlanks_cons ':' cs rfl, reads, skipBlanks_newLine, skipBlanks_cons '\x7d' rest rfl]

theorem members?_more (steps : Nat) (key : String) (cs more rest : List Char) (value : Datum)
    (members : List (String × Datum)) (reads : value? steps cs = some (value, ',' :: more))
    (readsMore : members? steps more = some (members, rest)) :
    members? (steps + 1) (Json.quote key ++ ':' :: cs) = some ((key, value) :: members, rest) := by
  rw [members?, Json.quote, List.append_assoc, List.cons_append, skipBlanks_cons _ _ rfl]
  simp only [List.cons_append, List.nil_append, text?_quote, Option.bind_eq_bind, Option.bind_some,
    skipBlanks_cons ':' cs rfl, reads, skipBlanks_cons ',' more rfl, readsMore]

/-- Between the brackets of a list with items no closing bracket comes first. -/
theorem skipBlanks_items (level : Nat) (item : Json) (items : List Json) (behind : List Char) :
    ∀ rest, skipBlanks (Json.between level (Json.layoutOfItems level (item :: items)) ++ behind) ≠
      ']' :: rest := by
  intro rest closed
  obtain ⟨c, cs, first, solid, noBracket⟩ := first_layout level item
  obtain ⟨more, begins⟩ := Json.between_append_cons level (item.layout level)
    (Json.layoutOfItems level items) behind
  rw [Json.layoutOfItems, begins, skipBlanks_newLine, first, List.cons_append,
    skipBlanks_cons c _ solid] at closed
  exact noBracket (List.cons.inj closed).1

/-- Between the braces of an object with members no closing brace comes first. -/
theorem skipBlanks_members (level : Nat) (member : String × Json) (members : List (String × Json))
    (behind : List Char) :
    ∀ rest,
      skipBlanks (Json.between level (Json.layoutOfMembers level (member :: members)) ++ behind) ≠
        '\x7d' :: rest := by
  intro rest closed
  obtain ⟨more, begins⟩ := Json.between_append_cons level
    (Json.quote member.1 ++ ':' :: ' ' :: member.2.layout level)
    (Json.layoutOfMembers level members) behind
  rw [Json.layoutOfMembers, begins, skipBlanks_newLine, Json.quote, List.cons_append,
    List.cons_append, List.cons_append, skipBlanks_cons _ _ rfl] at closed
  exact absurd (List.cons.inj closed).1 (by decide)

mutual

/-- A written value is read back, and nothing of what stands behind it is taken. -/
theorem value?_layout (level : Nat) : ∀ (j : Json) (steps : Nat) (rest : List Char),
    (j.layout level).length ≤ steps → Ends rest →
    value? steps (j.layout level ++ rest) = some (ofJson j, rest)
  | j, 0, rest, enough, _ => by
    obtain ⟨c, cs, first, -⟩ := first_layout level j
    rw [first] at enough
    exact absurd enough (by simp)
  | .null, steps + 1, rest, _, _ => rfl
  | .number n, steps + 1, rest, _, ends => value?_number steps n rest ends
  | .text s, steps + 1, rest, _, _ => value?_text steps s rest
  | .list [], steps + 1, rest, _, _ => rfl
  | .list (item :: items), steps + 1, rest, enough, _ => by
    have written : Json.layoutOfItems (level + 1) (item :: items) ≠ [] := List.cons_ne_nil _ _
    rw [Json.layout, Json.length_enclose _ _ _ _ written] at enough
    rw [Json.layout, Json.enclose_append _ _ _ _ _ written,
      value?_list steps _ (skipBlanks_items _ _ _ _),
      items?_between (level + 1) level (item :: items) steps rest (List.cons_ne_nil _ _) (by omega)]
    rfl
  | .object [], steps + 1, rest, _, _ => rfl
  | .object (member :: members), steps + 1, rest, enough, _ => by
    have written : Json.layoutOfMembers (level + 1) (member :: members) ≠ [] := List.cons_ne_nil _ _
    rw [Json.layout, Json.length_enclose _ _ _ _ written] at enough
    rw [Json.layout, Json.enclose_append _ _ _ _ _ written,
      value?_object steps _ (skipBlanks_members _ _ _ _),
      members?_between (level + 1) level (member :: members) steps rest (List.cons_ne_nil _ _)
        (by omega)]
    rfl

/-- The items of a list are read up to its closing bracket. -/
theorem items?_between (level outer : Nat) : ∀ (items : List Json) (steps : Nat) (rest : List Char),
    items ≠ [] → (Json.between level (Json.layoutOfItems level items)).length ≤ steps →
    items? steps (Json.between level (Json.layoutOfItems level items) ++
      (Json.newLine outer ++ ']' :: rest)) = some (ofItems items, rest)
  | [], _, _, filled, _ => absurd rfl filled
  | [item], steps, rest, _, enough => by
    rw [Json.layoutOfItems, Json.layoutOfItems, Json.between_single] at enough ⊢
    rw [List.length_append, Json.length_newLine] at enough
    obtain ⟨steps, rfl⟩ := Nat.exists_eq_add_one.mpr (by omega : 0 < steps)
    refine items?_last steps outer _ rest _ ?_
    rw [List.append_assoc, value?_newLine]
    exact value?_layout level item steps _ (by omega) (ends_newLine _ _)
  | item :: next :: items, steps, rest, _, enough => by
    rw [Json.layoutOfItems, Json.layoutOfItems, Json.between_cons, ← Json.layoutOfItems]
      at enough ⊢
    rw [List.length_append, List.length_append, Json.length_newLine, List.length_cons] at enough
    obtain ⟨steps, rfl⟩ := Nat.exists_eq_add_one.mpr (by omega : 0 < steps)
    refine items?_more steps _ _ rest _ _ ?_
      (items?_between level outer (next :: items) steps rest (List.cons_ne_nil _ _) (by omega))
    rw [List.append_assoc, List.append_assoc, value?_newLine]
    exact value?_layout level item steps _ (by omega) (ends_comma _)

/-- The members of an object are read up to its closing brace. -/
theorem members?_between (level outer : Nat) :
    ∀ (members : List (String × Json)) (steps : Nat) (rest : List Char),
    members ≠ [] → (Json.between level (Json.layoutOfMembers level members)).length ≤ steps →
    members? steps (Json.between level (Json.layoutOfMembers level members) ++
      (Json.newLine outer ++ '\x7d' :: rest)) = some (ofMembers members, rest)
  | [], _, _, filled, _ => absurd rfl filled
  | [(key, value)], steps, rest, _, enough => by
    rw [Json.layoutOfMembers, Json.layoutOfMembers, Json.between_single] at enough ⊢
    simp only [List.length_append, Json.length_newLine, List.length_cons] at enough
    obtain ⟨steps, rfl⟩ := Nat.exists_eq_add_one.mpr (by omega : 0 < steps)
    rw [List.append_assoc, members?_newLine, List.append_assoc, List.cons_append, List.cons_append]
    refine members?_last steps outer key _ rest _ ?_
    rw [value?_blank]
    exact value?_layout level value steps _ (by omega) (ends_newLine _ _)
  | (key, value) :: (name, next) :: members, steps, rest, _, enough => by
    rw [Json.layoutOfMembers, Json.layoutOfMembers, Json.between_cons, ← Json.layoutOfMembers]
      at enough ⊢
    simp only [List.length_append, Json.length_newLine, List.length_cons] at enough
    obtain ⟨steps, rfl⟩ := Nat.exists_eq_add_one.mpr (by omega : 0 < steps)
    rw [List.append_assoc, List.append_assoc, members?_newLine, List.append_assoc,
      List.cons_append, List.cons_append]
    refine members?_more steps key _ _ rest _ _ ?_
      (members?_between level outer ((name, next) :: members) steps rest (List.cons_ne_nil _ _)
        (by omega))
    rw [value?_blank]
    exact value?_layout level value steps _ (by omega) (ends_comma _)

end

/-- What is written is read back. -/
theorem read?_layout (j : Json) : read? (String.ofList (j.layout 0)) = some (ofJson j) := by
  have reads := value?_layout 0 j ((j.layout 0).length + 1) [] (by omega) (by simp [Ends])
  rw [List.append_nil] at reads
  rw [read?, String.toList_ofList, reads]
  rfl

end RustLint.Report.Datum
