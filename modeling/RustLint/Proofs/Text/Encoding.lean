import RustLint.Text.Utf8

set_option autoImplicit false

namespace RustLint.Text

/-- The bytes of a text. -/
def encode (cs : List Char) : List UInt8 := cs.flatMap String.utf8EncodeChar

theorem encode_cons (c : Char) (cs : List Char) :
    encode (c :: cs) = String.utf8EncodeChar c ++ encode cs := rfl

theorem encode_append (cs ds : List Char) : encode (cs ++ ds) = encode cs ++ encode ds :=
  List.flatMap_append

/-! One character. -/

/-- A lead byte with as many bytes behind it as it asks for reads as their character. -/
theorem decodeUtf8Parts_of_lead (b : UInt8) (tail rest : List UInt8) (lead : Utf8Lead)
    (leads : utf8Lead? b = some lead)
    (follows : utf8Tail lead.more lead.first (tail ++ rest) = tail)
    (complete : tail.length = lead.more) :
    decodeUtf8Parts (b :: (tail ++ rest)) = some (utf8Char lead tail) :: decodeUtf8Parts rest := by
  rw [decodeUtf8Parts, leads]
  simp only [follows, complete, ↓reduceIte]
  rw [← complete, List.drop_left]

theorem utf8Lead?_ofNat (n : Nat) (small : n < 256) : utf8Lead? (UInt8.ofNat n) =
    if n < 0x80 then some ⟨0, (0x80, 0xBF), n⟩
    else if n < 0xC2 then none
    else if n < 0xE0 then some ⟨1, (0x80, 0xBF), n - 0xC0⟩
    else if n = 0xE0 then some ⟨2, (0xA0, 0xBF), 0⟩
    else if n = 0xED then some ⟨2, (0x80, 0x9F), 0xD⟩
    else if n < 0xF0 then some ⟨2, (0x80, 0xBF), n - 0xE0⟩
    else if n = 0xF0 then some ⟨3, (0x90, 0xBF), 0⟩
    else if n < 0xF4 then some ⟨3, (0x80, 0xBF), n - 0xF0⟩
    else if n = 0xF4 then some ⟨3, (0x80, 0x8F), 4⟩
    else none := by
  have value : (UInt8.ofNat n).toNat = n := UInt8.toNat_ofNat_of_lt small
  simp only [utf8Lead?, UInt8.lt_iff_toNat_lt, ← UInt8.toNat_inj, value, UInt8.reduceToNat]

/-- The second of three bytes is in range where the form is not overlong and spells no surrogate. -/
theorem utf8Lead?_of_three (top second : Nat) (few : top < 16) (small : second < 64)
    (notOverlong : top = 0 → 32 ≤ second) (noSurrogate : top = 13 → second < 32) :
    ∃ lo hi, lo ≤ second + 0x80 ∧ second + 0x80 ≤ hi ∧ hi < 256 ∧
      utf8Lead? (UInt8.ofNat (top + 0xE0)) =
        some ⟨2, (UInt8.ofNat lo, UInt8.ofNat hi), top⟩ := by
  rw [utf8Lead?_ofNat _ (by omega), if_neg (by omega), if_neg (by omega), if_neg (by omega)]
  split
  · have first : top = 0 := by omega
    exact ⟨0xA0, 0xBF, by omega, by omega, by omega, by rw [first]; rfl⟩
  split
  · have beforeSurrogates : top = 13 := by omega
    exact ⟨0x80, 0x9F, by omega, by omega, by omega, by rw [beforeSurrogates]; rfl⟩
  · refine ⟨0x80, 0xBF, by omega, by omega, by omega, ?_⟩
    rw [if_pos (by omega), Nat.add_sub_cancel]
    rfl

/-- The second of four bytes is in range where the form is not overlong and not above the last
code point. -/
theorem utf8Lead?_of_four (top second : Nat) (few : top < 5) (small : second < 64)
    (notOverlong : top = 0 → 16 ≤ second) (notAbove : top = 4 → second < 16) :
    ∃ lo hi, lo ≤ second + 0x80 ∧ second + 0x80 ≤ hi ∧ hi < 256 ∧
      utf8Lead? (UInt8.ofNat (top + 0xF0)) =
        some ⟨3, (UInt8.ofNat lo, UInt8.ofNat hi), top⟩ := by
  rw [utf8Lead?_ofNat _ (by omega), if_neg (by omega), if_neg (by omega), if_neg (by omega),
    if_neg (by omega), if_neg (by omega), if_neg (by omega)]
  split
  · have first : top = 0 := by omega
    exact ⟨0x90, 0xBF, by omega, by omega, by omega, by rw [first]; rfl⟩
  split
  · refine ⟨0x80, 0xBF, by omega, by omega, by omega, ?_⟩
    rw [Nat.add_sub_cancel]
    rfl
  · have last : top = 4 := by omega
    refine ⟨0x80, 0x8F, by omega, by omega, by omega, ?_⟩
    rw [if_pos (by omega), last]
    rfl

theorem utf8Tail_cons (more lo hi n : Nat) (bs : List UInt8) (above : lo ≤ n) (below : n ≤ hi)
    (small : hi < 256) :
    utf8Tail (more + 1) (UInt8.ofNat lo, UInt8.ofNat hi) (UInt8.ofNat n :: bs) =
      UInt8.ofNat n :: utf8Tail more (0x80, 0xBF) bs := by
  have inRange : (decide (UInt8.ofNat lo ≤ UInt8.ofNat n) &&
      decide (UInt8.ofNat n ≤ UInt8.ofNat hi)) = true := by
    simp only [UInt8.le_iff_toNat_le, UInt8.toNat_ofNat', Bool.and_eq_true, decide_eq_true_eq]
    omega
  rw [utf8Tail, inRange]
  rfl

/-- What a byte behind a lead byte adds to the character. -/
theorem toNat_ofNat_sub (n : Nat) (small : n < 64) :
    (UInt8.ofNat (n + 0x80)).toNat - 0x80 = n := by
  rw [UInt8.toNat_ofNat']
  omega

/-- A byte behind a lead byte. -/
def IsTail (b : UInt8) : Prop := 0x80 ≤ b ∧ b ≤ 0xBF

theorem isTail_ofNat (n : Nat) (small : n < 64) : IsTail (UInt8.ofNat (n + 0x80)) := by
  simp only [IsTail, UInt8.le_iff_toNat_le, UInt8.toNat_ofNat', UInt8.reduceToNat]
  omega

/-- The bytes of a character: a lead byte, and behind it as many as it asks for. -/
structure IsForm (c : Char) (b : UInt8) (lead : Utf8Lead) (tail : List UInt8) : Prop where
  bytes : String.utf8EncodeChar c = b :: tail
  leads : utf8Lead? b = some lead
  complete : tail.length = lead.more
  follows : ∀ rest, utf8Tail lead.more lead.first (tail ++ rest) = tail
  inRange : ∀ x ∈ tail, IsTail x
  spells : utf8Char lead tail = c

theorem exists_form (c : Char) : ∃ b lead tail, IsForm c b lead tail := by
  have range : c.toNat < 0xD800 ∨ 0xDFFF < c.toNat ∧ c.toNat < 0x110000 := c.valid
  have value := Char.ofNat_toNat c
  have bytes := String.utf8EncodeChar.eq_def c
  simp only [show c.val.toNat = c.toNat from rfl] at bytes
  generalize c.toNat = v at range value bytes
  have low : v % 0x40 < 0x40 := by omega
  have middle (n : Nat) : v / n % 0x40 < 0x40 := Nat.mod_lt _ (by omega)
  have later (more n : Nat) (bs : List UInt8) (small : n < 0x40) :
      utf8Tail (more + 1) (0x80, 0xBF) (UInt8.ofNat (n + 0x80) :: bs) =
        UInt8.ofNat (n + 0x80) :: utf8Tail more (0x80, 0xBF) bs :=
    utf8Tail_cons more 0x80 0xBF _ bs (by omega) (by omega) (by omega)
  -- One, two, three or four bytes.
  split at bytes
  · refine ⟨_, ⟨0, (0x80, 0xBF), v⟩, [], bytes, ?_, rfl, fun _ => rfl, by simp, ?_⟩
    · rw [utf8Lead?_ofNat v (by omega), if_pos (by omega)]
    · simp only [utf8Char, List.foldl_nil, value]
  split at bytes
  · have bits : v / 64 % 0x20 + 0xC0 - 0xC0 = v / 64 := by omega
    have whole : v / 64 * 64 + v % 0x40 = v := by omega
    refine ⟨_, ⟨1, (0x80, 0xBF), v / 64⟩, _, bytes, ?_, rfl, fun rest => later 0 _ rest low, ?_, ?_⟩
    · rw [utf8Lead?_ofNat _ (by omega), if_neg (by omega), if_neg (by omega), if_pos (by omega),
        bits]
    · simp only [List.forall_mem_cons, isTail_ofNat _ low, List.not_mem_nil, false_imp_iff,
        implies_true, and_self]
    · simp only [utf8Char, List.foldl_nil, List.foldl_cons, toNat_ofNat_sub _ low, whole, value]
  split at bytes
  · obtain ⟨lo, hi, above, below, small, leads⟩ := utf8Lead?_of_three (v / 4096 % 0x10)
      (v / 64 % 0x40) (by omega) (middle 64) (by omega) (by omega)
    have whole : (v / 4096 % 0x10 * 64 + v / 64 % 0x40) * 64 + v % 0x40 = v := by omega
    refine ⟨_, _, _, bytes, leads, rfl, fun rest => ?_, ?_, ?_⟩
    · rw [List.cons_append, List.singleton_append, utf8Tail_cons 1 lo hi _ _ above below small,
        later 0 _ rest low]
      rfl
    · simp only [List.forall_mem_cons, isTail_ofNat _ low, isTail_ofNat _ (middle _),
        List.not_mem_nil, false_imp_iff, implies_true, and_self]
    · simp only [utf8Char, List.foldl_nil, List.foldl_cons, toNat_ofNat_sub _ low,
        toNat_ofNat_sub _ (middle _), whole, value]
  · obtain ⟨lo, hi, above, below, small, leads⟩ := utf8Lead?_of_four (v / 262144 % 0x08)
      (v / 4096 % 0x40) (by omega) (middle 4096) (by omega) (by omega)
    have whole : ((v / 262144 % 0x08 * 64 + v / 4096 % 0x40) * 64 + v / 64 % 0x40) * 64 +
        v % 0x40 = v := by omega
    refine ⟨_, _, _, bytes, leads, rfl, fun rest => ?_, ?_, ?_⟩
    · rw [List.cons_append, List.cons_append, List.singleton_append,
        utf8Tail_cons 2 lo hi _ _ above below small, later 1 _ _ (middle 64), later 0 _ rest low]
      rfl
    · simp only [List.forall_mem_cons, isTail_ofNat _ low, isTail_ofNat _ (middle _),
        List.not_mem_nil, false_imp_iff, implies_true, and_self]
    · simp only [utf8Char, List.foldl_nil, List.foldl_cons, toNat_ofNat_sub _ low,
        toNat_ofNat_sub _ (middle _), whole, value]

theorem decodeUtf8Parts_encodeChar (c : Char) (rest : List UInt8) :
    decodeUtf8Parts (String.utf8EncodeChar c ++ rest) = some c :: decodeUtf8Parts rest := by
  obtain ⟨b, lead, tail, form⟩ := exists_form c
  rw [form.bytes, List.cons_append,
    decodeUtf8Parts_of_lead b tail rest lead form.leads (form.follows rest) form.complete,
    form.spells]

/-- Only the line feed is written with the byte of a line feed. -/
theorem count_encodeChar (c : Char) :
    (String.utf8EncodeChar c).count 10 = if c = '\n' then 1 else 0 := by
  have feed : c = '\n' ↔ c.toNat = 10 := Char.toNat_inj.symm
  have byte (n : Nat) (small : n < 256) : (UInt8.ofNat n == 10) = decide (n = 10) := by
    have value : (10 : UInt8).toNat = 10 := rfl
    rw [Bool.eq_iff_iff, beq_iff_eq, decide_eq_true_eq, ← UInt8.toNat_inj, UInt8.toNat_ofNat']
    omega
  have high (n : Nat) (small : n < 256) (large : 0x80 ≤ n) : (UInt8.ofNat n == 10) = false := by
    rw [byte n small, decide_eq_false_iff_not]
    omega
  simp only [String.utf8EncodeChar, show c.val.toNat = c.toNat from rfl, feed]
  generalize c.toNat = v
  split
  · rw [List.count_cons, List.count_nil, byte v (by omega), Nat.zero_add]
    simp only [decide_eq_true_eq]
  have noFeed : v ≠ 10 := by omega
  rw [if_neg noFeed]
  split
  · simp (disch := omega) only [List.count_cons, List.count_nil, high]
    rfl
  split
  · simp (disch := omega) only [List.count_cons, List.count_nil, high]
    rfl
  · simp (disch := omega) only [List.count_cons, List.count_nil, high]
    rfl

/-! Whole texts. -/

theorem decodeUtf8Parts_encode (cs : List Char) (rest : List UInt8) :
    decodeUtf8Parts (encode cs ++ rest) = cs.map some ++ decodeUtf8Parts rest := by
  induction cs with
  | nil => rfl
  | cons c cs ih =>
    rw [encode_cons, List.append_assoc, decodeUtf8Parts_encodeChar, ih]
    rfl

/-- An encoded text reads as itself, whatever bytes follow. -/
theorem decodeUtf8Lossy_encode_append (cs : List Char) (rest : List UInt8) :
    decodeUtf8Lossy (encode cs ++ rest) = cs ++ decodeUtf8Lossy rest := by
  rw [decodeUtf8Lossy, decodeUtf8Parts_encode, List.map_append, List.map_map, decodeUtf8Lossy]
  exact congrArg (· ++ _) (List.map_id cs)

theorem decodeUtf8Lossy_encode (cs : List Char) : decodeUtf8Lossy (encode cs) = cs := by
  have nothing : decodeUtf8Lossy [] = [] := by rw [decodeUtf8Lossy, decodeUtf8Parts, List.map_nil]
  have whole := decodeUtf8Lossy_encode_append cs []
  rwa [List.append_nil, nothing, List.append_nil] at whole

/-- Equal bytes are equal texts. -/
theorem encode_inj (cs ds : List Char) (same : encode cs = encode ds) : cs = ds := by
  rw [← decodeUtf8Lossy_encode cs, same, decodeUtf8Lossy_encode]

theorem count_encode (cs : List Char) : (encode cs).count 10 = cs.count '\n' := by
  induction cs with
  | nil => rfl
  | cons c cs ih =>
    rw [encode_cons, List.count_append, count_encodeChar, ih, List.count_cons, Nat.add_comm]
    simp only [beq_iff_eq]

end RustLint.Text
