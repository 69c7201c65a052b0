set_option autoImplicit false

/- UTF-8 as bytes. Any bytes can be read: each maximal part that begins a well-formed character and
does not finish it, and each byte that begins none, reads as one invalid part. -/
namespace RustLint.Text

/-- How a byte can begin a character: how many bytes follow, the range of the first of them, and
the bits that the byte itself contributes. -/
structure Utf8Lead where
  more : Nat
  first : UInt8 × UInt8
  bits : Nat

/-- The bytes that begin a character. The narrower ranges shut out overlong forms, surrogates and
values above the last code point. -/
def utf8Lead? (b : UInt8) : Option Utf8Lead :=
  if b < 0x80 then some ⟨0, (0x80, 0xBF), b.toNat⟩
  else if b < 0xC2 then none
  else if b < 0xE0 then some ⟨1, (0x80, 0xBF), b.toNat - 0xC0⟩
  else if b = 0xE0 then some ⟨2, (0xA0, 0xBF), 0⟩
  else if b = 0xED then some ⟨2, (0x80, 0x9F), 0xD⟩
  else if b < 0xF0 then some ⟨2, (0x80, 0xBF), b.toNat - 0xE0⟩
  else if b = 0xF0 then some ⟨3, (0x90, 0xBF), 0⟩
  else if b < 0xF4 then some ⟨3, (0x80, 0xBF), b.toNat - 0xF0⟩
  else if b = 0xF4 then some ⟨3, (0x80, 0x8F), 4⟩
  else none

/-- The bytes at the front that can follow a lead byte, at most `more` of them. -/
def utf8Tail : Nat → UInt8 × UInt8 → List UInt8 → List UInt8
  | 0, _, _ => []
  | _ + 1, _, [] => []
  | more + 1, (lo, hi), b :: bs =>
    if lo ≤ b && b ≤ hi then b :: utf8Tail more (0x80, 0xBF) bs else []

/-- The character that a lead byte and all its following bytes spell. -/
def utf8Char (lead : Utf8Lead) (tail : List UInt8) : Char :=
  Char.ofNat (tail.foldl (fun n b => n * 64 + (b.toNat - 0x80)) lead.bits)

/-- The characters of a byte string; `none` stands for one invalid part. -/
def decodeUtf8Parts : List UInt8 → List (Option Char)
  | [] => []
  | b :: bs =>
    match utf8Lead? b with
    | none => none :: decodeUtf8Parts bs
    | some lead =>
      let tail := utf8Tail lead.more lead.first bs
      let part := if tail.length = lead.more then some (utf8Char lead tail) else none
      part :: decodeUtf8Parts (bs.drop tail.length)
termination_by bs => bs.length
decreasing_by
  · exact Nat.lt_succ_self _
  · exact Nat.lt_succ_of_le (List.drop_sublist _ _).length_le

/-- The replacement character stands for each invalid part. -/
def decodeUtf8Lossy (bytes : List UInt8) : List Char :=
  (decodeUtf8Parts bytes).map (·.getD '\uFFFD')

/-- The text of well-formed bytes. -/
def decodeUtf8? (bytes : List UInt8) : Option (List Char) :=
  (decodeUtf8Parts bytes).mapM id

end RustLint.Text
