set_option autoImplicit false

/- White space in text: which characters are blank, and cutting or splitting text at them. The class
is that of the Unicode separators together with the control characters that move the carriage. -/
namespace RustLint.Text

/-- Blank characters: tabulators and line breaks, the four information separators, the space, and
every other Unicode space or line separator. -/
def isBlank (c : Char) : Bool :=
  let n := c.toNat
  (9 ≤ n && n ≤ 13) || (28 ≤ n && n ≤ 32) || n == 0x85 || n == 0xA0 || n == 0x1680 ||
    (0x2000 ≤ n && n ≤ 0x200A) || n == 0x2028 || n == 0x2029 || n == 0x202F || n == 0x205F ||
    n == 0x3000

/-- The list without the longest run at its end whose members satisfy `p`. -/
def dropEndWhile {α : Type} (p : α → Bool) (l : List α) : List α :=
  (l.reverse.dropWhile p).reverse

/-- The text without blanks at its two ends. -/
def stripChars (cs : List Char) : List Char := dropEndWhile isBlank (cs.dropWhile isBlank)

/-- The text without blanks at its two ends. -/
def strip (s : String) : String := String.ofList (stripChars s.toList)

/-- The text without any blank. -/
def squash (s : String) : String := String.ofList (s.toList.filter fun c => !isBlank c)

/-- The parts between the separators: one more than there are separators. -/
def splitAtAll (isSep : Char → Bool) : List Char → List (List Char)
  | [] => [[]]
  | c :: cs =>
    if isSep c then [] :: splitAtAll isSep cs
    else
      match splitAtAll isSep cs with
      | [] => [[c]]
      | part :: parts => (c :: part) :: parts

theorem splitAtAll_ne_nil (isSep : Char → Bool) (cs : List Char) : splitAtAll isSep cs ≠ [] := by
  cases cs with
  | nil => simp [splitAtAll]
  | cons c cs =>
    rw [splitAtAll]
    split
    · simp
    · split <;> simp

/-- The lines between line feeds. -/
def splitLineFeeds (cs : List Char) : List (List Char) := splitAtAll (· == '\n') cs

/-- The parts joined with a line feed between neighbours. -/
def joinLineFeeds : List (List Char) → List Char
  | [] => []
  | [line] => line
  | line :: lines => line ++ '\n' :: joinLineFeeds lines

end RustLint.Text
