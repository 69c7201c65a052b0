import RustLint.Proofs.Text.Encoding

set_option autoImplicit false

/- Encoded text that is cut between two bytes of a character. The bytes that a cut leaves at its end
read as one replacement character, those that it leaves at a beginning as one each. -/
namespace RustLint.Text

/-- A character and where its bytes begin. -/
structure PlacedChar where
  char : Char
  start : Nat
  deriving DecidableEq

/-- Where the bytes of the character end. -/
def PlacedChar.stop (p : PlacedChar) : Nat := p.start + p.char.utf8Size

theorem PlacedChar.start_lt_stop (p : PlacedChar) : p.start < p.stop :=
  Nat.lt_add_of_pos_right (Char.utf8Size_pos p.char)

/-- The characters of a text that begins at the offset. -/
def placed (offset : Nat) : List Char → List PlacedChar
  | [] => []
  | c :: cs => ⟨c, offset⟩ :: placed (offset + c.utf8Size) cs

theorem length_encode_cons (c : Char) (cs : List Char) :
    (encode (c :: cs)).length = c.utf8Size + (encode cs).length := by
  rw [encode_cons, List.length_append, String.length_utf8EncodeChar]

theorem placed_append (offset : Nat) (cs ds : List Char) :
    placed offset (cs ++ ds) = placed offset cs ++ placed (offset + (encode cs).length) ds := by
  induction cs generalizing offset with
  | nil => rfl
  | cons c cs ih =>
    rw [List.cons_append, placed, placed, ih, length_encode_cons, Nat.add_assoc, List.cons_append]

/-- A character begins behind the bytes of those in front of it. -/
theorem exists_of_mem_placed (offset : Nat) (cs : List Char) (p : PlacedChar)
    (listed : p ∈ placed offset cs) :
    ∃ before after, cs = before ++ p.char :: after ∧
      p.start = offset + (encode before).length := by
  induction cs generalizing offset with
  | nil => cases listed
  | cons c cs ih =>
    rcases List.mem_cons.mp listed with rfl | later
    · exact ⟨[], cs, rfl, rfl⟩
    · obtain ⟨before, after, rfl, place⟩ := ih _ later
      refine ⟨c :: before, after, rfl, ?_⟩
      rw [place, length_encode_cons, Nat.add_assoc]

theorem le_start_of_mem_placed (offset : Nat) (cs : List Char) (p : PlacedChar)
    (listed : p ∈ placed offset cs) : offset ≤ p.start := by
  obtain ⟨before, -, -, place⟩ := exists_of_mem_placed offset cs p listed
  rw [place]
  exact Nat.le_add_right _ _

/-! Bytes of one character. -/

theorem utf8Tail_take (more : Nat) (range : UInt8 × UInt8) (bytes : List UInt8) (k : Nat) :
    utf8Tail more range (bytes.take k) = (utf8Tail more range bytes).take k := by
  induction more generalizing range bytes k with
  | zero => rw [utf8Tail, utf8Tail, List.take_nil]
  | succ more ih =>
    cases bytes with
    | nil => rw [List.take_nil, utf8Tail, List.take_nil]
    | cons b bytes =>
      cases k with
      | zero => rw [List.take_zero, utf8Tail, List.take_zero]
      | succ k =>
        rw [List.take_succ_cons, utf8Tail, utf8Tail]
        split
        · rw [ih, List.take_succ_cons]
        · rw [List.take_nil]

/-- A character without its last bytes is one invalid part. -/
theorem decodeUtf8Lossy_cut (c : Char) (k : Nat) (some : 0 < k) (cut : k < c.utf8Size) :
    decodeUtf8Lossy ((String.utf8EncodeChar c).take k) = ['\uFFFD'] := by
  obtain ⟨b, lead, tail, form⟩ := exists_form c
  obtain ⟨k, rfl⟩ := Nat.exists_eq_add_of_lt some
  have length := String.length_utf8EncodeChar c
  rw [form.bytes, List.length_cons] at length
  have follows : utf8Tail lead.more lead.first (tail.take k) = tail.take k := by
    have whole := form.follows []
    rw [List.append_nil] at whole
    rw [utf8Tail_take, whole]
  have incomplete : (tail.take k).length ≠ lead.more := by
    rw [← form.complete, List.length_take]
    omega
  have parts : decodeUtf8Parts (b :: tail.take k) = [none] := by
    rw [decodeUtf8Parts, form.leads]
    simp only [follows, incomplete, ↓reduceIte, List.drop_length, decodeUtf8Parts]
  rw [form.bytes, Nat.zero_add, List.take_succ_cons, decodeUtf8Lossy, parts]
  rfl

theorem utf8Lead?_of_isTail (b : UInt8) (inRange : IsTail b) : utf8Lead? b = none := by
  simp only [IsTail, UInt8.le_iff_toNat_le, UInt8.reduceToNat] at inRange
  have noSingle : ¬b < 0x80 := by
    simp only [UInt8.lt_iff_toNat_lt, UInt8.reduceToNat]
    omega
  have noLead : b < 0xC2 := by
    simp only [UInt8.lt_iff_toNat_lt, UInt8.reduceToNat]
    omega
  rw [utf8Lead?, if_neg noSingle, if_pos noLead]

/-- Each byte whose lead byte is missing is an invalid part of its own. -/
theorem decodeUtf8Lossy_tails (bytes rest : List UInt8) (inRange : ∀ x ∈ bytes, IsTail x) :
    decodeUtf8Lossy (bytes ++ rest) =
      List.replicate bytes.length '\uFFFD' ++ decodeUtf8Lossy rest := by
  induction bytes with
  | nil => rfl
  | cons b bytes ih =>
    have noLead := utf8Lead?_of_isTail b (inRange b List.mem_cons_self)
    have later := ih fun x listed => inRange x (List.mem_cons_of_mem _ listed)
    rw [decodeUtf8Lossy] at later ⊢
    rw [List.cons_append, decodeUtf8Parts, noLead]
    simp only [List.map_cons, Option.getD_none, List.length_cons, List.replicate_succ,
      List.cons_append, later]

theorem isTail_of_mem_drop (c : Char) (k : Nat) (some : 0 < k) :
    ∀ x ∈ (String.utf8EncodeChar c).drop k, IsTail x := by
  obtain ⟨b, lead, tail, form⟩ := exists_form c
  obtain ⟨k, rfl⟩ := Nat.exists_eq_add_of_lt some
  intro x listed
  rw [form.bytes, Nat.zero_add, List.drop_succ_cons] at listed
  exact form.inRange x (List.mem_of_mem_drop listed)

/-! The beginning of a text. -/

theorem take_encode_of_le (c : Char) (cs : List Char) (k : Nat) (whole : c.utf8Size ≤ k) :
    (encode (c :: cs)).take k = String.utf8EncodeChar c ++ (encode cs).take (k - c.utf8Size) := by
  rw [encode_cons, List.take_append, String.length_utf8EncodeChar,
    List.take_of_length_le (by rwa [String.length_utf8EncodeChar])]

theorem take_encode_of_lt (c : Char) (cs : List Char) (k : Nat) (cut : k < c.utf8Size) :
    (encode (c :: cs)).take k = (String.utf8EncodeChar c).take k := by
  rw [encode_cons, List.take_append_of_le_length]
  rw [String.length_utf8EncodeChar]
  exact Nat.le_of_lt cut

theorem decodeUtf8Lossy_nil : decodeUtf8Lossy [] = [] := by
  rw [decodeUtf8Lossy, decodeUtf8Parts, List.map_nil]

theorem decodeUtf8Lossy_encodeChar_append (c : Char) (rest : List UInt8) :
    decodeUtf8Lossy (String.utf8EncodeChar c ++ rest) = c :: decodeUtf8Lossy rest := by
  rw [decodeUtf8Lossy, decodeUtf8Parts_encodeChar]
  rfl

/-- Up to an offset a text reads as its characters that end there or before, and one replacement
character for a character that begins before the offset and ends behind it. -/
theorem decodeUtf8Lossy_take (offset hi : Nat) (cs : List Char) (inside : offset ≤ hi) :
    decodeUtf8Lossy ((encode cs).take (hi - offset)) =
      ((placed offset cs).filter (·.stop ≤ hi)).map PlacedChar.char ++
        if (placed offset cs).any fun p => p.start < hi && hi < p.stop then ['\uFFFD'] else [] := by
  induction cs generalizing offset with
  | nil => simp [encode, placed, decodeUtf8Lossy_nil]
  | cons c cs ih =>
    rw [placed, List.any_cons]
    have stop : (⟨c, offset⟩ : PlacedChar).stop = offset + c.utf8Size := rfl
    by_cases whole : offset + c.utf8Size ≤ hi
    · have fits : decide ((⟨c, offset⟩ : PlacedChar).stop ≤ hi) = true := decide_eq_true whole
      have notCut : decide (hi < (⟨c, offset⟩ : PlacedChar).stop) = false :=
        decide_eq_false (Nat.not_lt_of_le whole)
      rw [List.filter_cons, if_pos fits, notCut, Bool.and_false, Bool.false_or,
        take_encode_of_le c cs _ (by omega), decodeUtf8Lossy_encodeChar_append, Nat.sub_sub,
        ih _ whole]
      rfl
    · rw [Nat.not_le] at whole
      have behind (p : PlacedChar) (listed : p ∈ placed (offset + c.utf8Size) cs) :
          hi < p.start := Nat.lt_of_lt_of_le whole (le_start_of_mem_placed _ cs p listed)
      have noFit : ¬decide ((⟨c, offset⟩ : PlacedChar).stop ≤ hi) = true := by
        rw [decide_eq_true_eq]
        exact Nat.not_le_of_lt whole
      have noneFits : (placed (offset + c.utf8Size) cs).filter (·.stop ≤ hi) = [] := by
        rw [List.filter_eq_nil_iff]
        intro p listed
        have behind := behind p listed
        have later := p.start_lt_stop
        rw [decide_eq_true_eq]
        omega
      have noneCut : ((placed (offset + c.utf8Size) cs).any fun p =>
          p.start < hi && hi < p.stop) = false := by
        rw [List.any_eq_false]
        intro p listed
        have behind := behind p listed
        rw [Bool.and_eq_true, decide_eq_true_eq]
        omega
      rw [List.filter_cons, if_neg noFit, noneFits, noneCut, Bool.or_false, stop,
        take_encode_of_lt c cs _ (by omega), decide_eq_true whole, Bool.and_true, List.map_nil,
        List.nil_append]
      simp only [decide_eq_true_eq]
      split
      · next begun => exact decodeUtf8Lossy_cut c (hi - offset) (by omega) (by omega)
      · next atEnd =>
        rw [show hi - offset = 0 by omega, List.take_zero]
        exact decodeUtf8Lossy_nil

end RustLint.Text
