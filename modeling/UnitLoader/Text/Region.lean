/-!
# Regions

A region is a stretch of one line, as a compiler counts: lines and columns start at one.
-/

namespace UnitLoader.Text

/-- A stretch of one line. -/
structure Region where
  /-- The line, one for the first. -/
  line : Nat
  /-- The column of its first character, one for the first of the line. -/
  column : Nat
  /-- The number of its characters. -/
  width : Nat
  deriving DecidableEq, Repr

/-- The first column behind a region. -/
def Region.end (r : Region) : Nat := r.column + r.width

end UnitLoader.Text
