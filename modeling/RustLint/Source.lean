import RustLint.Span
import RustLint.Path
import RustLint.Text.Utf8
import RustLint.Text.Indent
import RustLint.Text.LineTable

set_option autoImplicit false

namespace RustLint

/-- The text of a file, and its path when it has one. -/
structure Source where
  text : String
  path : Option Path := none
  deriving DecidableEq, Inhabited

namespace Source

/-- What stands for the text of a span outside the file. -/
def placeholder : String := "..."

/-- The length in bytes. -/
def size (s : Source) : Nat := s.text.toByteArray.size

/-- The bytes from `lo` up to `hi`. -/
def slice (s : Source) (lo hi : Nat) : List UInt8 :=
  (s.text.toByteArray.extract lo hi).data.toList

/-- The span lies inside the file. -/
def covers (s : Source) (span : Span) : Bool :=
  decide (0 ≤ span.lo) && decide (span.lo ≤ span.hi) && decide (span.hi ≤ s.size)

/-- The text of a span, or the default for a span that the file does not cover. Cut characters
read as replacement characters. -/
def snippet (s : Source) (span : Span) (default : String := placeholder) : String :=
  if s.covers span then
    String.ofList (Text.decodeUtf8Lossy (s.slice span.lo.toNat span.hi.toNat))
  else default

/-- The text of a block without the indentation that its later lines share, so that it can be
placed at another depth. -/
def snippetBlock (s : Source) (span : Span) (default : String := placeholder) : String :=
  Text.trimMultiline (s.snippet span default) true

/-- Where the lines of the file begin. -/
def lineTable (s : Source) : Text.LineTable := .ofBytes s.text.toByteArray.data.toList

/-- The bytes of the line before the offset. -/
def lineBefore (s : Source) (offset : Nat) : List UInt8 :=
  s.slice (s.lineTable.startOf offset) offset

/-- The spaces and tabulators that the line of the span begins with, up to the span. -/
def indentOf (s : Source) (span : Span) : String :=
  if decide (0 ≤ span.lo) && decide (span.lo ≤ s.size) then
    let blanks := (s.lineBefore span.lo.toNat).takeWhile fun b => b == 32 || b == 9
    String.ofList (Text.decodeUtf8Lossy blanks)
  else ""

/-- The nearest offset inside the file. -/
def clamp (s : Source) (offset : Int) : Nat := min offset.toNat s.size

/-- Line and column of an offset, both counted from 1; columns count characters. -/
def lineCol (s : Source) (offset : Int) : Nat × Nat :=
  let o := s.clamp offset
  (s.lineTable.lineOf o + 1, (Text.decodeUtf8Lossy (s.lineBefore o)).length + 1)

end Source

end RustLint
