import Tabletop.Modifiers

/-!
# Faces under a reroll rule

Which faces a die can end on once its reroll rule has run. Only a rule that keeps rolling and
leaves some face unmatched narrows the range (`repeating?`): a rule that covers every face is not
followed at all, and a rule that rolls once more can end anywhere.
-/

namespace Tabletop.Modifiers

/-- The reroll rule, if it is followed for as long as it matches. -/
def repeating? (m : Modifiers) : Option Threshold :=
  if m.rerollOnce then none else m.reroll

/-- Whether the reroll rule lets no face but the highest through, so that every die ends on it. -/
def forcesMaxFace (m : Modifiers) (sides : Nat) : Bool :=
  match m.repeating? with
  | some rule => decide (2 ≤ sides) && rule.holds (sides - 1) && !rule.holds sides
  | none => false

/-- The lowest and the highest face on which a die can end. A die without sides has one face. -/
def faceRange (m : Modifiers) (sides : Nat) : Nat × Nat :=
  let highest := max sides 1
  match m.repeating? with
  | none => (1, highest)
  | some rule =>
    if rule.coversFaces sides then (1, highest)
    else match rule with
      | .atMost n => (max 1 (n + 1), highest)
      | .below n => (max 1 n, highest)
      | .atLeast n => (1, min highest (n - 1))
      | .above n => (1, min highest n)

end Tabletop.Modifiers
