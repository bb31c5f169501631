/-!
# Kinds of dice
-/

namespace Tabletop

/-- The kind of die that a roll uses. -/
inductive Dice where
  /-- A die with faces numbered from 1 to `sides`. -/
  | standard (sides : Nat)
  /-- A die that shows -1, 0 or +1. -/
  | fudge
  deriving DecidableEq, Repr, Inhabited

/-- The written form: the number of sides, or `F`. -/
def Dice.render : Dice → String
  | .standard sides => toString sides
  | .fudge => "F"

end Tabletop
