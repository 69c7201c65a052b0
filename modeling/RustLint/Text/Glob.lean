set_option autoImplicit false

namespace RustLint.Text

/-- A member of a character class. -/
inductive ClassItem where
  | one (c : Char)
  | range (lo hi : Char)
  deriving DecidableEq, Inhabited, Repr

namespace ClassItem

def holds : ClassItem → Char → Bool
  | one a, c => a == c
  | range lo hi, c => decide (lo ≤ c) && decide (c ≤ hi)

/-- A range from a character down to a smaller one holds nothing. -/
def isReversed : ClassItem → Bool
  | one _ => false
  | range lo hi => decide (hi < lo)

/-- The members that a class lists, read from the left: a dash between two characters makes a
range, any other dash stands for itself. -/
def ofChars : List Char → List ClassItem
  | lo :: '-' :: hi :: rest => range lo hi :: ofChars rest
  | c :: rest => one c :: ofChars rest
  | [] => []

end ClassItem

/-- A part of a pattern. -/
inductive GlobPart where
  | anyText
  | anyChar
  | char (c : Char)
  | charClass (negated : Bool) (items : List ClassItem)
  deriving DecidableEq, Inhabited, Repr

namespace GlobPart

/-- The class that stands between two brackets. An exclamation mark in front negates it, also one
that comes to the front when the reversed ranges before it are dropped. -/
def ofClass : List Char → GlobPart
  | '!' :: cs => charClass true ((ClassItem.ofChars cs).filter (!·.isReversed))
  | cs =>
    match (ClassItem.ofChars cs).filter (!·.isReversed) with
    | .one '!' :: items => charClass true items
    | .range '!' hi :: items => charClass true (.one '-' :: .one hi :: items)
    | items => charClass false items

/-- The part stands for the one character. -/
def holds : GlobPart → Char → Bool
  | anyText, _ => false
  | anyChar, _ => true
  | char a, c => a == c
  | charClass negated items, c => items.any (·.holds c) != negated

end GlobPart

/-- What stands at the front of a class and cannot close it: an exclamation mark, and a bracket
right behind it or right at the front. -/
def classFront (cs : List Char) : List Char :=
  let mark := (cs.take 1).takeWhile (· == '!')
  mark ++ ((cs.drop mark.length).take 1).takeWhile (· == ']')

/-- The text of a class and what follows its closing bracket. -/
def splitClass? (cs : List Char) : Option (List Char × List Char) :=
  let rest := cs.drop (classFront cs).length
  match rest.dropWhile (· != ']') with
  | [] => none
  | _ :: after => some (classFront cs ++ rest.takeWhile (· != ']'), after)

theorem length_after_class {cs inside after : List Char}
    (h : splitClass? cs = some (inside, after)) : after.length < cs.length := by
  unfold splitClass? at h
  simp only at h
  split at h
  · cases h
  · next c rest heq =>
    have h₁ := (List.dropWhile_sublist (l := cs.drop (classFront cs).length) (· != ']')).length_le
    have h₂ := (List.drop_sublist (classFront cs).length cs).length_le
    rw [heq] at h₁
    cases h
    exact Nat.lt_of_lt_of_le (Nat.lt_succ_self _) (Nat.le_trans h₁ h₂)

/-- The parts of a pattern. A bracket that no other closes stands for itself. -/
def globParts : List Char → List GlobPart
  | [] => []
  | '*' :: rest => .anyText :: globParts (rest.dropWhile (· == '*'))
  | '?' :: rest => .anyChar :: globParts rest
  | '[' :: rest =>
    match _found : splitClass? rest with
    | some (inside, after) => .ofClass inside :: globParts after
    | none => .char '[' :: globParts rest
  | c :: rest => .char c :: globParts rest
termination_by cs => cs.length
decreasing_by
  · have := (List.dropWhile_sublist (l := rest) (· == '*')).length_le
    simp only [List.length_cons]
    omega
  · simp
  · have := length_after_class _found
    simp only [List.length_cons]
    omega
  · simp
  · simp

/-- The text, and what is left of it without its first characters, the longest first. -/
def suffixes : List Char → List (List Char)
  | [] => [[]]
  | c :: cs => (c :: cs) :: suffixes cs

/-- What is left of a text that begins with a character of the part. -/
def GlobPart.rest? (part : GlobPart) : List Char → Option (List Char)
  | [] => none
  | c :: cs => if part.holds c then some cs else none

/-- What can be left of a text behind the part, for all that can be left in front of it. The longest
comes first and the others are suffixes of it, so any text behind the longest is any text behind
them all. -/
def GlobPart.rests (part : GlobPart) (before : List (List Char)) : List (List Char) :=
  match part with
  | anyText => (before.head?.map suffixes).getD []
  | _ => before.filterMap part.rest?

/-- The parts cover the text: nothing can be left of it behind the last of them. -/
def globCovers (parts : List GlobPart) (cs : List Char) : Bool :=
  (parts.foldl (fun before part => part.rests before) [cs]).any List.isEmpty

/-- The pattern covers the text. -/
def globMatches (pattern text : String) : Bool :=
  globCovers (globParts pattern.toList) text.toList

end RustLint.Text
