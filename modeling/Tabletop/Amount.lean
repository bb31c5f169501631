/-!
# Amounts

Flat amounts, totals and success counts are integers of a signed 64-bit width. They are kept as
plain integers; this module says where the width ends and how a value outside it is brought back.
Additions of a flat amount stop at the ends (`Amount.clamp`), sums of dice go around
(`Amount.wrap`). Both are the identity on `Amount.InRange`.
-/

namespace Tabletop.Amount

/-- The least amount, `-2 ^ 63`. -/
def least : Int := -0x8000000000000000

/-- The greatest amount, `2 ^ 63 - 1`. -/
def greatest : Int := 0x7FFFFFFFFFFFFFFF

/-- An integer within the width of an amount. -/
def InRange (n : Int) : Prop := least ≤ n ∧ n ≤ greatest

instance (n : Int) : Decidable (InRange n) := by
  unfold InRange; infer_instance

/-- The amount nearest to an integer. -/
def clamp (n : Int) : Int := max least (min greatest n)

/-- The amount equal to an integer modulo `2 ^ 64`. -/
def wrap (n : Int) : Int := n.bmod UInt64.size

/-- The text of an amount with its sign, `+` for zero too. -/
def signed (n : Int) : String :=
  if n < 0 then toString n else "+" ++ toString n

/-- What is in range is the nearest amount to itself. -/
theorem clamp_of_inRange {n : Int} (h : InRange n) : clamp n = n := by
  unfold InRange at h; unfold clamp; omega

/-- What is in range does not go around. -/
theorem wrap_of_inRange {n : Int} (h : InRange n) : wrap n = n := by
  unfold InRange least greatest at h; unfold wrap UInt64.size
  rw [Int.bmod_eq_of_le] <;> omega

/-- What has gone around is in range. -/
theorem inRange_wrap (n : Int) : InRange (wrap n) := by
  have hle := Int.le_bmod (x := n) (m := UInt64.size) (by decide)
  have hlt := Int.bmod_lt (x := n) (m := UInt64.size) (by decide)
  unfold UInt64.size at hle hlt
  unfold InRange wrap least greatest UInt64.size
  omega

/-- The nearest amount is in range. -/
theorem inRange_clamp (n : Int) : InRange (clamp n) := by
  unfold InRange clamp least greatest; omega

end Tabletop.Amount
