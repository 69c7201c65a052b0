import RustLint.Proofs.Text.CutBytes
import RustLint.Proofs.Text.Positions
import Mathlib.Data.Nat.Find

set_option autoImplicit false

namespace RustLint.Source

open Text (encode placed PlacedChar IsTail)

/-- The offset is between two characters or at an end of the text. -/
def IsBoundary (s : Source) (offset : Nat) : Prop :=
  ∃ before after, s.text.toList = before ++ after ∧ offset = (encode before).length

/-- The first boundary at the offset or behind it. -/
structure IsNextBoundary (s : Source) (offset next : Nat) : Prop where
  boundary : s.IsBoundary next
  behind : offset ≤ next
  first : ∀ other, s.IsBoundary other → offset ≤ other → next ≤ other

/-- The characters that begin at the offset or behind it. -/
def charsFrom (s : Source) (lo : Nat) : List PlacedChar :=
  (placed 0 s.text.toList).filter (lo ≤ ·.start)

/-- Those of them that end at `hi` or before it. -/
def wholeBetween (s : Source) (lo hi : Nat) : List Char :=
  ((s.charsFrom lo).filter (·.stop ≤ hi)).map PlacedChar.char

/-- One of them is cut by `hi`. -/
def isCut (s : Source) (lo hi : Nat) : Bool :=
  (s.charsFrom lo).any fun p => p.start < hi && hi < p.stop

variable (s : Source) (lo mid hi next : Nat)

/-! Slices. -/

theorem slice_append (ordered : lo ≤ mid) (inside : mid ≤ hi) :
    s.slice lo mid ++ s.slice mid hi = s.slice lo hi := by
  have whole : hi - lo = (mid - lo) + (hi - mid) := by omega
  rw [slice_eq, slice_eq, slice_eq, whole, List.take_add, List.drop_drop,
    Nat.add_sub_cancel' ordered]

theorem length_slice (inside : hi ≤ s.size) : (s.slice lo hi).length = hi - lo := by
  rw [size_eq_length] at inside
  rw [slice_eq, List.length_take, List.length_drop]
  omega

/-- The bytes behind a known front. -/
theorem slice_behind (before rest : List Char) (written : s.text.toList = before ++ rest) :
    s.slice (encode before).length hi = (encode rest).take (hi - (encode before).length) := by
  rw [slice_eq, written, Text.encode_append, List.drop_left]

/-! Boundaries. -/

theorem le_size_of_isBoundary (boundary : s.IsBoundary lo) : lo ≤ s.size := by
  obtain ⟨before, after, written, rfl⟩ := boundary
  rw [size_eq_length, written, Text.encode_append, List.length_append]
  exact Nat.le_add_right _ _

theorem isBoundary_size : s.IsBoundary s.size :=
  ⟨s.text.toList, [], (List.append_nil _).symm, size_eq_length s⟩

theorem exists_nextBoundary (inside : lo ≤ s.size) : ∃ next, s.IsNextBoundary lo next := by
  classical
  have some : ∃ next, s.IsBoundary next ∧ lo ≤ next := ⟨s.size, isBoundary_size s, inside⟩
  obtain ⟨boundary, behind⟩ := Nat.find_spec some
  exact ⟨Nat.find some, boundary, behind, fun other bounds later => Nat.find_min' some ⟨bounds, later⟩⟩

/-- A span between boundaries marks a part of the text. -/
theorem exists_marks (span : Span) (start : 0 ≤ span.lo) (ordered : span.lo ≤ span.hi)
    (first : s.IsBoundary span.lo.toNat) (last : s.IsBoundary span.hi.toNat) :
    ∃ before part after, s.Marks span before part after := by
  obtain ⟨before, rest, written, lower⟩ := first
  obtain ⟨upTo, after, written', upper⟩ := last
  have short : (encode before).length ≤ (encode upTo).length := by omega
  obtain ⟨part, rfl⟩ := exists_append_of_length_le before rest upTo after
    (written.symm.trans written') short
  exact ⟨before, part, after, written', by omega, by omega⟩

/-- The text up to the first boundary behind an offset: its characters begin in front of the offset,
and from the offset on there are no lead bytes. -/
theorem exists_before_next (next : Nat) (isNext : s.IsNextBoundary lo next) :
    ∃ before rest, s.text.toList = before ++ rest ∧ next = (encode before).length ∧
      (∀ p ∈ placed 0 before, p.start < lo) ∧ ∀ x ∈ s.slice lo next, IsTail x := by
  obtain ⟨before, rest, written, stop⟩ := isNext.boundary
  have early (front back : List Char) (c : Char) (parts : before = front ++ c :: back) :
      (encode front).length < lo := by
    by_contra late
    have least := isNext.first (encode front).length
      ⟨front, c :: back ++ rest, by rw [written, parts, List.append_assoc], rfl⟩
      (Nat.le_of_not_lt late)
    have size := Char.utf8Size_pos c
    rw [stop, parts, Text.encode_append, List.length_append, Text.length_encode_cons] at least
    omega
  refine ⟨before, rest, written, stop, ?_, ?_⟩
  · intro p listed
    obtain ⟨front, back, parts, place⟩ := Text.exists_of_mem_placed 0 before p listed
    rw [place, Nat.zero_add]
    exact early front back p.char parts
  · rcases List.eq_nil_or_concat before with none | ⟨front, c, last⟩
    · intro x listed
      rw [stop, none, slice_eq] at listed
      simp [encode] at listed
    · have begun := early front [] c (by rw [last, List.concat_eq_append])
      have bytes : s.slice (encode front).length next = String.utf8EncodeChar c := by
        rw [slice_behind s next front (c :: rest) (by simp [written, last]), stop, last,
          List.concat_eq_append, Text.encode_append, List.length_append, Nat.add_sub_cancel_left,
          Text.length_encode_cons, Text.take_encode_of_le c rest _ (Nat.le_add_right _ _)]
        simp [encode]
      rw [← slice_append s _ lo next (Nat.le_of_lt begun) isNext.behind] at bytes
      intro x listed
      apply Text.isTail_of_mem_drop c (lo - (encode front).length) (Nat.sub_pos_of_lt begun) x
      have inside := le_size_of_isBoundary s next isNext.boundary
      rw [← bytes, List.drop_left' (length_slice s _ lo (Nat.le_trans isNext.behind inside))]
      exact listed

/-! Reading. -/

variable {s lo mid hi next}

/-- No character of a span begins in front of the first boundary. -/
theorem charsFrom_eq {before rest : List Char} (written : s.text.toList = before ++ rest)
    (early : ∀ p ∈ placed 0 before, p.start < lo) (behind : lo ≤ (encode before).length) :
    s.charsFrom lo = placed (encode before).length rest := by
  have none : (placed 0 before).filter (lo ≤ ·.start) = [] := by
    rw [List.filter_eq_nil_iff]
    intro p listed
    rw [decide_eq_true_eq]
    exact Nat.not_le_of_lt (early p listed)
  have all : (placed (encode before).length rest).filter (lo ≤ ·.start) =
      placed (encode before).length rest := by
    rw [List.filter_eq_self]
    intro p listed
    rw [decide_eq_true_eq]
    exact Nat.le_trans behind (Text.le_start_of_mem_placed _ rest p listed)
  rw [charsFrom, written, Text.placed_append, Nat.zero_add, List.filter_append, none, all,
    List.nil_append]

/-- A span that ends in front of the first boundary has no lead byte. -/
theorem decode_slice_of_lt (isNext : s.IsNextBoundary lo next) (ordered : lo ≤ hi)
    (early : hi < next) :
    Text.decodeUtf8Lossy (s.slice lo hi) = List.replicate (hi - lo) '\uFFFD' := by
  obtain ⟨-, -, -, -, -, tails⟩ := exists_before_next s lo next isNext
  have inside := le_size_of_isBoundary s next isNext.boundary
  have read := Text.decodeUtf8Lossy_tails (s.slice lo hi) [] fun x listed => by
    apply tails x
    rw [← slice_append s lo hi next ordered (Nat.le_of_lt early)]
    exact List.mem_append_left _ listed
  rwa [List.append_nil, length_slice s lo hi (by omega), Text.decodeUtf8Lossy_nil,
    List.append_nil] at read

/-- The bytes up to the first boundary are read one by one. -/
theorem decode_slice_append (isNext : s.IsNextBoundary lo next) (reached : next ≤ hi) :
    Text.decodeUtf8Lossy (s.slice lo hi) =
      List.replicate (next - lo) '\uFFFD' ++ Text.decodeUtf8Lossy (s.slice next hi) := by
  obtain ⟨-, -, -, -, -, tails⟩ := exists_before_next s lo next isNext
  have inside := le_size_of_isBoundary s next isNext.boundary
  rw [← slice_append s lo next hi isNext.behind reached, Text.decodeUtf8Lossy_tails _ _ tails,
    length_slice s lo next inside]

/-- What a span reads as: a replacement character for each byte in front of the first boundary, the
characters that fit, and one more replacement character where the last of them does not. -/
theorem decode_slice (isNext : s.IsNextBoundary lo next) (ordered : lo ≤ hi) :
    Text.decodeUtf8Lossy (s.slice lo hi) =
      List.replicate (min next hi - lo) '\uFFFD' ++ s.wholeBetween lo hi ++
        if s.isCut lo hi then ['\uFFFD'] else [] := by
  obtain ⟨before, rest, written, stop, early, -⟩ := exists_before_next s lo next isNext
  have behind := isNext.behind
  rw [wholeBetween, isCut, charsFrom_eq written early (stop ▸ behind)]
  by_cases reached : next ≤ hi
  · rw [decode_slice_append isNext reached, Nat.min_eq_left reached, List.append_assoc, stop,
      slice_behind s hi before rest written, Text.decodeUtf8Lossy_take _ hi rest (stop ▸ reached)]
  · rw [Nat.not_le] at reached
    have late (p : PlacedChar) (listed : p ∈ placed (encode before).length rest) :
        hi < p.start ∧ hi < p.stop := by
      have start := Text.le_start_of_mem_placed _ rest p listed
      have stops := p.start_lt_stop
      omega
    have noneFits : (placed (encode before).length rest).filter (·.stop ≤ hi) = [] := by
      rw [List.filter_eq_nil_iff]
      intro p listed
      rw [decide_eq_true_eq]
      exact Nat.not_le_of_lt (late p listed).2
    have noneCut : ((placed (encode before).length rest).any fun p =>
        p.start < hi && hi < p.stop) = false := by
      rw [List.any_eq_false]
      intro p listed
      rw [decide_eq_false (Nat.not_lt_of_lt (late p listed).1), Bool.false_and]
      exact Bool.false_ne_true
    rw [decode_slice_of_lt isNext ordered reached, Nat.min_eq_right (Nat.le_of_lt reached),
      noneFits, noneCut]
    simp

/-- Bytes behind a boundary are read apart from those in front of it. -/
theorem decode_append_of_isBoundary (boundary : s.IsBoundary mid) (ordered : lo ≤ mid)
    (bytes : List UInt8) :
    Text.decodeUtf8Lossy (s.slice lo mid ++ bytes) =
      Text.decodeUtf8Lossy (s.slice lo mid) ++ Text.decodeUtf8Lossy bytes := by
  have inside := le_size_of_isBoundary s mid boundary
  obtain ⟨next, isNext⟩ := exists_nextBoundary s lo (Nat.le_trans ordered inside)
  have reached := isNext.first mid boundary ordered
  obtain ⟨-, -, -, -, -, tails⟩ := exists_before_next s lo next isNext
  obtain ⟨before, part, after, marks⟩ := exists_marks s ⟨next, mid, 0⟩ (Int.natCast_nonneg _)
    (Int.ofNat_le.mpr reached) isNext.boundary boundary
  have whole : s.slice next mid = encode part := marks.slice_eq
  rw [← slice_append s lo next mid isNext.behind reached, List.append_assoc,
    Text.decodeUtf8Lossy_tails _ _ tails, Text.decodeUtf8Lossy_tails _ _ tails, whole,
    Text.decodeUtf8Lossy_encode_append, Text.decodeUtf8Lossy_encode, List.append_assoc]

theorem covers_iff (span : Span) : s.covers span = true ↔
    0 ≤ span.lo ∧ span.lo ≤ span.hi ∧ span.hi ≤ s.size := by
  simp only [covers, Bool.and_eq_true, decide_eq_true_eq, and_assoc]

/-- The default is given exactly for spans that the file does not cover, whatever it is. -/
theorem snippet_eq_default_iff (span : Span) :
    (∀ default, s.snippet span default = default) ↔ ¬s.covers span = true := by
  constructor
  · intro defaults covers
    have one := defaults "a"
    have other := defaults "b"
    rw [snippet, if_pos covers] at one other
    exact absurd (one.symm.trans other) (by decide)
  · intro outside default
    rw [snippet, if_neg outside]

/-- For every file and every span. The default is given exactly for a span that is not inside the
file. A span inside yields the marked part of the text when both its ends are boundaries; in
general it yields a replacement character for each byte up to the first boundary or its end, the
characters that lie in it as a whole, and one replacement character for a character that it begins
and does not end. And the two parts of a span that meet at a boundary yield what the span does. -/
theorem snippet_reads (s : Source) (span : Span) :
    ((∀ default, s.snippet span default = default) ↔
        ¬(0 ≤ span.lo ∧ span.lo ≤ span.hi ∧ span.hi ≤ s.size)) ∧
      (0 ≤ span.lo ∧ span.lo ≤ span.hi ∧ span.hi ≤ s.size → ∀ default,
        (s.IsBoundary span.lo.toNat → s.IsBoundary span.hi.toNat →
          ∃ before part after, s.Marks span before part after ∧
            s.snippet span default = String.ofList part) ∧
        (∃ next, s.IsNextBoundary span.lo.toNat next ∧
          (s.snippet span default).toList =
            List.replicate (min next span.hi.toNat - span.lo.toNat) '\uFFFD' ++
              s.wholeBetween span.lo.toNat span.hi.toNat ++
                if s.isCut span.lo.toNat span.hi.toNat then ['\uFFFD'] else []) ∧
        ∀ mid ctxt ctxt' : Int, span.lo ≤ mid → mid ≤ span.hi → s.IsBoundary mid.toNat →
          s.snippet ⟨span.lo, mid, ctxt⟩ default ++ s.snippet ⟨mid, span.hi, ctxt'⟩ default =
            s.snippet span default) := by
  have inside := covers_iff (s := s) span
  refine ⟨by rw [snippet_eq_default_iff, inside], ?_⟩
  rintro ⟨start, ordered, stop⟩ default
  have covers := inside.mpr ⟨start, ordered, stop⟩
  refine ⟨?_, ?_, ?_⟩
  · intro first last
    obtain ⟨before, part, after, marks⟩ := exists_marks s span start ordered first last
    exact ⟨before, part, after, marks, marks.snippet_eq default⟩
  · obtain ⟨next, isNext⟩ := exists_nextBoundary s span.lo.toNat (by omega)
    refine ⟨next, isNext, ?_⟩
    rw [snippet, if_pos covers, String.toList_ofList, decode_slice isNext (by omega)]
  · intro mid ctxt ctxt' lower upper boundary
    have coversFirst := (covers_iff (s := s) ⟨span.lo, mid, ctxt⟩).mpr
      ⟨start, lower, Int.le_trans upper stop⟩
    have coversLast := (covers_iff (s := s) ⟨mid, span.hi, ctxt'⟩).mpr
      ⟨Int.le_trans start lower, upper, stop⟩
    have lower := Int.toNat_le_toNat lower
    have upper := Int.toNat_le_toNat upper
    rw [snippet, snippet, snippet, if_pos coversFirst, if_pos coversLast, if_pos covers,
      ← String.ofList_append, ← decode_append_of_isBoundary boundary lower,
      slice_append s _ _ _ lower upper]

/-! The text `éa😀` from the middle of its first character to that of its last. -/

def cutSample : Source := ⟨"éa😀", none⟩

/-- A byte is missing in front, and two behind. -/
theorem snippet_cutSample : cutSample.snippet ⟨1, 5, 0⟩ = "\uFFFDa\uFFFD" := by
  obtain ⟨-, reads⟩ := snippet_reads cutSample ⟨1, 5, 0⟩
  obtain ⟨-, ⟨next, isNext, read⟩, -⟩ := reads (by decide +kernel) placeholder
  have atMost : next ≤ 2 := isNext.first 2 ⟨['é'], ['a', '😀'], rfl, rfl⟩ (by decide)
  have notInside : next ≠ 1 := by
    rintro rfl
    obtain ⟨before, after, written, place⟩ := isNext.boundary
    cases before with
    | nil => cases place
    | cons c before =>
      have text : cutSample.text.toList = ['é', 'a', '😀'] := by decide
      rw [text] at written
      obtain ⟨rfl, -⟩ := List.cons.inj written
      have long : 'é'.utf8Size = 2 := by decide
      rw [Text.length_encode_cons] at place
      omega
  have atLeast := isNext.behind
  have second : next = 2 := by
    rw [Int.toNat_one] at atLeast
    omega
  rw [second] at read
  rw [← String.toList_inj, read]
  decide +kernel

end RustLint.Source
