set_option autoImplicit false

/- Places in a source file. A span is a range of bytes together with the macro expansion that
produced it; spans of different expansions never describe the same written code. -/
namespace RustLint

/-- The bytes from `lo` up to, not including, `hi`. Context 0 is the code as written, every other
context one macro expansion. -/
structure Span where
  lo : Int
  hi : Int
  ctxt : Int := 0
  deriving DecidableEq, Inhabited, Repr

namespace Span

/-- The empty span at the start. -/
def shrinkToLo (s : Span) : Span := { s with hi := s.lo }

/-- The empty span at the end. -/
def shrinkToHi (s : Span) : Span := { s with lo := s.hi }

/-- Containment looks at the bytes only, whatever the contexts. -/
def contains (outer inner : Span) : Bool :=
  decide (outer.lo ≤ inner.lo) && decide (inner.hi ≤ outer.hi)

/-- The code was produced by a macro. -/
def inMacro (s : Span) : Bool := s.ctxt != 0

/-- Both spans stem from the same expansion, or both from the code as written. -/
def sameContext (a b : Span) : Bool := a.ctxt == b.ctxt

end Span

end RustLint
