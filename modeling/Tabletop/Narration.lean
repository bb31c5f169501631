import Tabletop.Outcome

/-!
# Narration

An outcome in words. At most `show` dice are listed one by one; more are summarised. Fudge dice are
always listed, by their signs. A pool of a single die says whether it succeeded, and a flat amount
adds a line with the arithmetic.
-/

namespace Tabletop

namespace Narration

/-- Stands for dice that are too many to list. -/
def summary : String := "a whole bunch of dice"

/-- The numbers with commas between them and `and` before the last. -/
def list : List Int → String
  | [] => "no dice"
  | [only] => toString only
  | [first, second] => toString first ++ " and " ++ toString second
  | first :: rest => toString first ++ ", " ++ list rest

/-- The sign of a Fudge die. -/
def sign (face : Int) : String := if 0 < face then "+" else if face < 0 then "-" else "0"

/-- The dice that count, listed or summarised. -/
def dice (limit : Nat) (rolls : List Int) : String :=
  if limit < rolls.length then summary else list rolls

/-- What the dice came to. -/
def verdict (o : Outcome) (limit : Nat) : String :=
  match o.successCount with
  | some count =>
    if o.diceRolled = 1 then if count = 1 then ", a success!" else ", no success."
    else ", for " ++ toString count ++ (if count = 1 then " success." else " successes.")
  | none =>
    if o.rolls.length = 1 ∧ o.rolls.length ≤ limit then "."
    else ", for a total of " ++ toString o.total ++ "."

/-- The first line. -/
def headline (o : Outcome) (limit : Nat) : String :=
  "Rolled " ++ o.text ++ ": " ++
    if o.isFudge then
      ", ".intercalate (o.rolls.map sign) ++ ", for a total of " ++ toString o.total ++ "."
    else dice limit o.rolls ++ verdict o limit

/-- The line with the arithmetic of the flat amount. -/
def arithmetic (o : Outcome) : String :=
  toString o.total ++ (if o.flat < 0 then " - " else " + ") ++ toString o.flat.natAbs ++ " = "
    ++ toString o.modifiedTotal

end Narration

/-- The outcome in words, with at most `limit` dice listed. -/
def narrate (o : Outcome) (limit : Nat) : String :=
  Narration.headline o limit ++ if o.flat = 0 then "" else "\n" ++ Narration.arithmetic o

end Tabletop
