/-!
# Thresholds

A threshold is a comparison of a face with a fixed number. Thresholds decide which dice are
rolled again and which count as successes. All four are monotone, so a threshold that matches
both ends of a range of faces matches all of it.
-/

namespace Tabletop

/-- A comparison of a face with a fixed number. -/
inductive Threshold where
  /-- Matches faces `≤ n`. -/
  | atMost (n : Nat)
  /-- Matches faces `≥ n`. -/
  | atLeast (n : Nat)
  /-- Matches faces `< n`. -/
  | below (n : Nat)
  /-- Matches faces `> n`. -/
  | above (n : Nat)
  deriving DecidableEq, Repr, Inhabited

namespace Threshold

/-- Whether a face satisfies the comparison. -/
def holds : Threshold → Nat → Bool
  | atMost n, face => face ≤ n
  | atLeast n, face => n ≤ face
  | below n, face => face < n
  | above n, face => n < face

/-- The number compared with. -/
def bound : Threshold → Nat
  | atMost n | atLeast n | below n | above n => n

/-- Whether the comparison matches the lowest and the highest face of a die, and with them every
face between. -/
def coversFaces (t : Threshold) (sides : Nat) : Bool :=
  t.holds 1 && t.holds sides

/-- The written form. Inclusive and strict comparisons look alike: a reroll rule is always read as
inclusive and a success rule always as strict. -/
def render : Threshold → String
  | atMost n | below n => "<" ++ toString n
  | atLeast n | above n => ">" ++ toString n

end Threshold

end Tabletop
