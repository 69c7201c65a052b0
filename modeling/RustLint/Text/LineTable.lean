set_option autoImplicit false

namespace RustLint.Text

/-- The places behind the line feeds, in order, for bytes that begin at the offset. -/
def behindFeeds (offset : Nat) : List UInt8 → List Nat
  | [] => []
  | b :: bs =>
    if b = 10 then (offset + 1) :: behindFeeds (offset + 1) bs else behindFeeds (offset + 1) bs

/-- The places where the lines begin, in order. There is always a first line. -/
structure LineTable where
  starts : Array Nat
  nonempty : 0 < starts.size

namespace LineTable

/-- The first line begins at the front, and one more behind every line feed. -/
def ofBytes (bytes : List UInt8) : LineTable where
  starts := (0 :: behindFeeds 0 bytes).toArray
  nonempty := by simp

variable (table : LineTable) (offset : Nat)

/-- The last line from `lo` to `hi` that begins at the offset or before it, if `lo` does. The range
is halved until one line is left. -/
def search (lo hi : Nat) (ordered : lo ≤ hi) (inside : hi < table.starts.size) :
    Fin table.starts.size :=
  if more : lo < hi then
    -- Rounded up: with `lo` in the middle the range would stay as it is.
    let mid := (lo + hi + 1) / 2
    if table.starts[mid] ≤ offset then search mid hi (by omega) inside
    else search lo (mid - 1) (by omega) (by omega)
  else ⟨lo, by omega⟩
termination_by hi - lo

/-- The line of a position, counted from 0. -/
def lineOf : Fin table.starts.size :=
  table.search offset 0 (table.starts.size - 1) (Nat.zero_le _)
    (Nat.sub_one_lt (Nat.pos_iff_ne_zero.mp table.nonempty))

/-- Where the line of a position begins. -/
def startOf : Nat := table.starts[table.lineOf offset]

end LineTable

end RustLint.Text
