/-!
# Why a notation is refused
-/

namespace Tabletop

/-- Why a notation, or a roll in preparation, is not rolled. -/
inductive RollError where
  /-- The text is no dice notation. -/
  | invalidNotation (text : String)
  /-- More dice than the ceiling `max`. -/
  | tooManyDice (max : Nat)
  /-- No die at all. -/
  | tooFewDice
  /-- A standard die with fewer than two sides. -/
  | invalidSides (sides : Nat)
  deriving DecidableEq, Repr

/-- The message for the person who asked for the roll. -/
def RollError.message : RollError → String
  | invalidNotation text =>
    "I couldn't read `" ++ text ++ "` as a dice roll. Try something like `2d6`, `4d6+2`, `2d20k1`, "
      ++ "`4dF`, `10d10!`, `6d10>7` or `3d6ro<2`."
  | tooManyDice max =>
    "That's too many dice! You can roll at most " ++ toString max ++ " at once."
  | tooFewDice => "You need to roll at least one die."
  | invalidSides sides => "A die needs at least 2 sides, got " ++ toString sides ++ "."

end Tabletop
