import RustLint.Proofs.Text.CutBytes
import RustLint.Proofs.Text.Positions
import Mathlib.Data.Prod.Lex

set_option autoImplicit false

namespace RustLint.Text

/-- The line and the column behind a text: one more than there are line feeds, and one more than
there are characters behind the last of them. -/
def position (cs : List Char) : Nat × Nat :=
  (cs.count '\n' + 1, (cs.rtakeWhile (· != '\n')).length + 1)

theorem position_concat_feed (cs : List Char) :
    position (cs ++ ['\n']) = ((position cs).1 + 1, 1) := by
  rw [position, position, List.count_append, List.rtakeWhile_concat_neg _ _ _ (by decide)]
  rfl

theorem position_concat (cs : List Char) (c : Char) (noFeed : c ≠ '\n') :
    position (cs ++ [c]) = ((position cs).1, (position cs).2 + 1) := by
  have none : [c].count '\n' = 0 := by simp [noFeed]
  rw [position, position, List.count_append, none, List.rtakeWhile_concat_pos _ _ _ (by simpa),
    List.length_append]
  rfl

/-- Every further character leads to a later position. -/
theorem position_le_concat (cs : List Char) (c : Char) :
    toLex (position cs) ≤ toLex (position (cs ++ [c])) := by
  rw [Prod.Lex.toLex_le_toLex]
  by_cases feed : c = '\n'
  · rw [feed, position_concat_feed]
    exact .inl (Nat.lt_succ_self _)
  · rw [position_concat cs c feed]
    exact .inr ⟨rfl, Nat.le_succ _⟩

theorem position_le_append (cs ds : List Char) :
    toLex (position cs) ≤ toLex (position (cs ++ ds)) := by
  induction ds using List.reverseRecOn with
  | nil => rw [List.append_nil]
  | append_singleton ds d ih =>
    rw [← List.append_assoc]
    exact le_trans ih (position_le_concat (cs ++ ds) d)

/-! Characters in front of an offset. -/

theorem map_char_placed (offset : Nat) (cs : List Char) :
    (placed offset cs).map PlacedChar.char = cs := by
  induction cs generalizing offset with
  | nil => rfl
  | cons c cs ih => rw [placed, List.map_cons, ih]

/-- The characters that begin in front of an offset are the first ones. -/
theorem exists_begun (offset hi : Nat) (cs : List Char) :
    ∃ front rest, cs = front ++ rest ∧ (∀ p ∈ placed offset front, p.start < hi) ∧
      ∀ p ∈ placed (offset + (encode front).length) rest, hi ≤ p.start := by
  induction cs generalizing offset with
  | nil => exact ⟨[], [], rfl, by simp [placed], by simp [placed]⟩
  | cons c cs ih =>
    by_cases begun : offset < hi
    · obtain ⟨front, rest, parts, early, late⟩ := ih (offset + c.utf8Size)
      refine ⟨c :: front, rest, by rw [parts, List.cons_append], ?_, ?_⟩
      · rw [placed, List.forall_mem_cons]
        exact ⟨begun, early⟩
      · rwa [length_encode_cons, ← Nat.add_assoc]
    · refine ⟨[], c :: cs, rfl, by simp [placed], ?_⟩
      intro p listed
      exact Nat.le_trans (Nat.le_of_not_lt begun) (le_start_of_mem_placed _ _ p listed)

/-- A later offset has the characters of an earlier one in front of it, and perhaps more. -/
theorem exists_begun_append (offset : Nat) (a b : Int) (order : a ≤ b) (cs : List Char) :
    ∃ more, ((placed offset cs).filter fun p => (p.start : Int) < b) =
      ((placed offset cs).filter fun p => (p.start : Int) < a) ++ more := by
  induction cs generalizing offset with
  | nil => exact ⟨[], rfl⟩
  | cons c cs ih =>
    by_cases begun : (offset : Int) < a
    · obtain ⟨more, longer⟩ := ih (offset + c.utf8Size)
      refine ⟨more, ?_⟩
      rw [placed, List.filter_cons, if_pos (decide_eq_true (Int.lt_of_lt_of_le begun order)),
        longer, List.filter_cons, if_pos (decide_eq_true begun), List.cons_append]
    · have none : ((placed offset (c :: cs)).filter fun p => (p.start : Int) < a) = [] := by
        rw [List.filter_eq_nil_iff]
        intro p listed
        have late := le_start_of_mem_placed _ _ p listed
        rw [decide_eq_true_eq]
        omega
      exact ⟨_, by rw [none, List.nil_append]⟩

/-- Characters that all begin in front of the cut are as many when it cuts the last of them. -/
theorem length_decodeUtf8Lossy_take (offset hi : Nat) (cs : List Char) (inside : offset ≤ hi)
    (begun : ∀ p ∈ placed offset cs, p.start < hi) :
    (decodeUtf8Lossy ((encode cs).take (hi - offset))).length = cs.length := by
  induction cs generalizing offset with
  | nil => simp [encode, decodeUtf8Lossy_nil]
  | cons c cs ih =>
    rw [placed, List.forall_mem_cons] at begun
    obtain ⟨first, later⟩ := begun
    have first : offset < hi := first
    by_cases whole : offset + c.utf8Size ≤ hi
    · rw [take_encode_of_le c cs _ (by omega), decodeUtf8Lossy_encodeChar_append, Nat.sub_sub,
        List.length_cons, ih _ whole later, List.length_cons]
    · cases cs with
      | nil =>
        rw [take_encode_of_lt c [] _ (by omega),
          decodeUtf8Lossy_cut c _ (Nat.sub_pos_of_lt first) (by omega)]
        rfl
      | cons d cs => exact absurd (Nat.le_of_lt (later ⟨d, _⟩ List.mem_cons_self)) whole

/-- The run at the end starts behind a list that has none at its own end. -/
theorem rtakeWhile_append_of_forall {α : Type} (p : α → Bool) (xs ys : List α)
    (all : ∀ y ∈ ys, p y = true) (last : xs.rtakeWhile p = []) :
    (xs ++ ys).rtakeWhile p = ys := by
  rw [List.rtakeWhile, List.reverse_append, List.takeWhile_append_of_pos]
  · have none : xs.reverse.takeWhile p = [] := List.reverse_eq_nil_iff.mp last
    rw [none, List.append_nil, List.reverse_reverse]
  · intro y listed
    exact all y (List.mem_reverse.mp listed)

theorem ne_feed_of_mem_encode (cs : List Char) (noFeed : '\n' ∉ cs) :
    ∀ b ∈ encode cs, (b != 10) = true := by
  have none : (encode cs).count 10 = 0 := by rw [count_encode, List.count_eq_zero.mpr noFeed]
  intro b listed
  rw [bne_iff_ne]
  rintro rfl
  exact List.count_eq_zero.mp none listed

/-- The text consists of whole lines: it is empty, or its last character is a line feed. -/
def EndsLine (cs : List Char) : Prop := cs = [] ∨ ∃ ls, cs = ls ++ ['\n']

namespace EndsLine

variable {cs : List Char}

theorem rtakeWhile_chars (ends : EndsLine cs) : cs.rtakeWhile (· != '\n') = [] := by
  rcases ends with rfl | ⟨ls, rfl⟩
  · rfl
  · exact List.rtakeWhile_concat_neg _ _ _ (by decide)

theorem rtakeWhile_bytes (ends : EndsLine cs) : (encode cs).rtakeWhile (· != 10) = [] := by
  rcases ends with rfl | ⟨ls, rfl⟩
  · rfl
  · rw [encode_append]
    exact List.rtakeWhile_concat_neg (· != 10) (encode ls) 10 (by decide)

/-- A line feed is one byte, so that whole lines end where the offset behind their last character
can be. -/
theorem length_le (ends : EndsLine cs) (offset : Nat) (begun : ∀ p ∈ placed 0 cs, p.start < offset) :
    (encode cs).length ≤ offset := by
  rcases ends with rfl | ⟨ls, rfl⟩
  · exact Nat.zero_le _
  · rw [placed_append, Nat.zero_add] at begun
    have last : (encode ls).length < offset :=
      begun ⟨'\n', _⟩ (List.mem_append_right _ List.mem_cons_self)
    rw [encode_append, List.length_append]
    exact last

end EndsLine

/-- A text is whole lines and a rest in which none ends. -/
theorem exists_lines (cs : List Char) :
    ∃ above line, cs = above ++ line ∧ '\n' ∉ line ∧ EndsLine above := by
  induction cs using List.reverseRecOn with
  | nil => exact ⟨[], [], rfl, List.not_mem_nil, .inl rfl⟩
  | append_singleton cs c ih =>
    by_cases feed : c = '\n'
    · exact ⟨cs ++ [c], [], (List.append_nil _).symm, List.not_mem_nil, .inr ⟨cs, by rw [feed]⟩⟩
    · obtain ⟨above, line, rfl, noFeed, ends⟩ := ih
      refine ⟨above, line ++ [c], List.append_assoc .., ?_, ends⟩
      rw [List.mem_append, List.mem_singleton]
      exact fun listed => listed.elim noFeed (feed ·.symm)

theorem position_append (above line : List Char) (ends : EndsLine above) (noFeed : '\n' ∉ line) :
    position (above ++ line) = (above.count '\n' + 1, line.length + 1) := by
  have none : ∀ c ∈ line, (c != '\n') = true := by
    intro c listed
    rw [bne_iff_ne]
    rintro rfl
    exact noFeed listed
  rw [position, List.count_append, List.count_eq_zero.mpr noFeed,
    rtakeWhile_append_of_forall _ above line none ends.rtakeWhile_chars]

/-- Where an offset cuts the last of the characters that begin in front of it, the bytes in front of
it have the line and the column behind these characters. -/
theorem position_take_encode (offset : Nat) (cs : List Char)
    (begun : ∀ p ∈ placed 0 cs, p.start < offset) :
    (((encode cs).take offset).count 10 + 1,
        (decodeUtf8Lossy (((encode cs).take offset).rtakeWhile (· != 10))).length + 1) =
      position cs := by
  -- A line feed is never cut, so the cut is in the last line.
  obtain ⟨above, line, rfl, noFeed, ends⟩ := exists_lines cs
  rw [placed_append, List.forall_mem_append, Nat.zero_add] at begun
  have fits := ends.length_le offset begun.1
  have bytes : (encode (above ++ line)).take offset =
      encode above ++ (encode line).take (offset - (encode above).length) := by
    rw [encode_append, List.take_append, List.take_of_length_le fits]
  have noFeedByte (b : UInt8) (listed : b ∈ (encode line).take (offset - (encode above).length)) :
      (b != 10) = true := ne_feed_of_mem_encode line noFeed b (List.mem_of_mem_take listed)
  have noneCounted : ((encode line).take (offset - (encode above).length)).count 10 = 0 :=
    List.count_eq_zero.mpr fun listed => absurd (noFeedByte 10 listed) (by decide)
  rw [bytes, rtakeWhile_append_of_forall _ _ _ noFeedByte ends.rtakeWhile_bytes,
    length_decodeUtf8Lossy_take _ offset line fits begun.2, List.count_append, count_encode,
    noneCounted, position_append above line ends noFeed]

end RustLint.Text

namespace RustLint.Source

open Text (encode placed PlacedChar position)

/-- The characters that begin in front of the offset. -/
def charsBefore (s : Source) (offset : Int) : List Char :=
  ((placed 0 s.text.toList).filter fun p => (p.start : Int) < offset).map PlacedChar.char

variable (s : Source)

theorem start_lt_size (p : PlacedChar) (listed : p ∈ placed 0 s.text.toList) :
    p.start < s.size := by
  obtain ⟨before, after, written, place⟩ := Text.exists_of_mem_placed 0 _ p listed
  have size := Char.utf8Size_pos p.char
  rw [size_eq_length, written, Text.encode_append, List.length_append, Text.length_encode_cons]
  omega

/-- Before the text there is nothing, and behind it nothing more. -/
theorem charsBefore_clamp (offset : Int) :
    s.charsBefore (s.clamp offset) = s.charsBefore offset := by
  refine congrArg (List.map PlacedChar.char) (List.filter_congr fun p listed => ?_)
  have inside := start_lt_size s p listed
  rw [decide_eq_decide, clamp]
  omega

/-- The bytes in front of an offset are those of the characters that begin there, the last of them
perhaps cut. -/
theorem slice_charsBefore (offset : Nat) (inside : offset ≤ s.size) :
    (∀ p ∈ placed 0 (s.charsBefore offset), p.start < offset) ∧
      s.slice 0 offset = (encode (s.charsBefore offset)).take offset := by
  obtain ⟨front, rest, parts, begun, late⟩ := Text.exists_begun 0 offset s.text.toList
  rw [Nat.zero_add] at late
  have chars : s.charsBefore offset = front := by
    rw [charsBefore, parts, Text.placed_append, List.filter_append, List.filter_eq_self.mpr,
      List.filter_eq_nil_iff.mpr, List.append_nil, Text.map_char_placed]
    · intro p listed
      have := late p (by rwa [Nat.zero_add] at listed)
      rw [decide_eq_true_eq]
      omega
    · intro p listed
      have := begun p listed
      rw [decide_eq_true_eq]
      omega
  have enough : offset ≤ (encode front).length := by
    cases rest with
    | nil =>
      rw [List.append_nil] at parts
      rwa [← parts, ← size_eq_length]
    | cons c rest => exact late ⟨c, _⟩ List.mem_cons_self
  rw [chars]
  refine ⟨begun, ?_⟩
  rw [slice_eq, List.drop_zero, Nat.sub_zero, parts, Text.encode_append,
    List.take_append_of_le_length enough]

/-- The position of an offset is that behind the characters which begin in front of it. -/
theorem lineCol_eq_position (offset : Int) :
    s.lineCol offset = position (s.charsBefore offset) := by
  obtain ⟨begun, bytes⟩ := slice_charsBefore s (s.clamp offset) (clamp_le s offset)
  have column : (s.lineCol offset).2 =
      (Text.decodeUtf8Lossy (s.lineBefore (s.clamp offset))).length + 1 := rfl
  rw [← Prod.mk.eta (p := s.lineCol offset), line_eq_count, column,
    lineBefore_eq s _ (clamp_le s offset), bytes, Text.position_take_encode _ _ begun,
    charsBefore_clamp]

/-- A later offset has no earlier position. -/
theorem lineCol_mono (a b : Int) (order : a ≤ b) :
    toLex (s.lineCol a) ≤ toLex (s.lineCol b) := by
  obtain ⟨more, longer⟩ := Text.exists_begun_append 0 a b order s.text.toList
  rw [lineCol_eq_position, lineCol_eq_position, charsBefore, charsBefore, longer, List.map_append]
  exact Text.position_le_append _ _

end RustLint.Source
