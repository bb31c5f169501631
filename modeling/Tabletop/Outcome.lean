import Tabletop.Amount
import Tabletop.Threshold

/-!
# Outcomes

What a roll came to: the dice that count, their total, and the total with the flat amount added.
Dice are added up (`Outcome.sum`), counted where they match a threshold (`Outcome.successes`), or
are Fudge dice (`Outcome.fudge`).
-/

namespace Tabletop

/-- The outcome of a roll. -/
structure Outcome where
  /-- The dice that count, in ascending order; Fudge dice as they came. -/
  rolls : List Int
  /-- The sum of the dice, or the number of successes. -/
  total : Int
  /-- The flat amount. -/
  flat : Int
  /-- The total and the flat amount together. -/
  modifiedTotal : Int
  /-- The notation of the roll. -/
  text : String
  /-- Whether the dice were Fudge dice. -/
  isFudge : Bool
  /-- The number of successes, if the roll was scored by them. -/
  successCount : Option Int
  /-- The number of dice rolled, those that do not count included. -/
  diceRolled : Nat
  deriving DecidableEq, Repr

namespace Outcome

/-- An outcome all of whose dice count. -/
def ofTotal (text : String) (rolls : List Int) (total flat : Int) (isFudge : Bool)
    (successCount : Option Int) : Outcome where
  rolls
  total
  flat
  modifiedTotal := Amount.clamp (total + flat)
  text
  isFudge
  successCount
  diceRolled := rolls.length

/-- The total of dice that are added up. -/
def addUp (rolls : List Int) : Int := Amount.wrap (rolls.foldr (· + ·) 0)

/-- The outcome of dice that are added up. -/
def sum (text : String) (faces : List Nat) (flat : Int) : Outcome :=
  let rolls := faces.map Int.ofNat
  ofTotal text rolls (addUp rolls) flat false none

/-- The outcome of dice that succeed where they match a threshold. -/
def successes (text : String) (faces : List Nat) (rule : Threshold) (flat : Int) : Outcome :=
  let count : Int := faces.countP rule.holds
  ofTotal text (faces.map Int.ofNat) count flat false (some count)

/-- The outcome of Fudge dice. -/
def fudge (text : String) (rolls : List Int) (flat : Int) : Outcome :=
  ofTotal text rolls (addUp rolls) flat true none

/-- The outcome with another number of dice rolled. -/
def withDiceRolled (o : Outcome) (n : Nat) : Outcome := { o with diceRolled := n }

end Outcome

end Tabletop
