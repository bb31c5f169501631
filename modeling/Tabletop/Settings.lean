/-!
# Settings
-/

namespace Tabletop

/-- What a table allows and shows. -/
structure Settings where
  /-- The most dice that a roll may ask for. -/
  maxDice : Nat := 100
  /-- A roll with more dice than this is summarised. -/
  showIndividual : Nat := 10
  deriving DecidableEq, Repr, Inhabited

end Tabletop
