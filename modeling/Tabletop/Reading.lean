/-!
# Widths of written numbers

A notation may spell numbers of any length. A `Reading` says what such a number stands for. Rolls
read numbers `saturating`: one too large for its width stands for the largest that fits. Reading
`exact` leaves every number as it is.
-/

namespace Tabletop

/-- The largest number of a face, of sides and of a ceiling on dice: 32 bits, unsigned. -/
def maxFace : Nat := UInt32.size - 1

/-- The largest count of dice: 64 bits, unsigned. -/
def maxCount : Nat := UInt64.size - 1

/-- What written numbers stand for. -/
structure Reading where
  /-- The value of a count of dice. -/
  count : Nat → Nat
  /-- The value of the number in a threshold. -/
  face : Nat → Nat

/-- Numbers too large for their width stand for the largest that fits. -/
def Reading.saturating : Reading := ⟨min maxCount, min maxFace⟩

/-- Every number stands for itself. -/
def Reading.exact : Reading := ⟨id, id⟩

end Tabletop
