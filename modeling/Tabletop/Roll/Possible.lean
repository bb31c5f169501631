import Tabletop.Roll

/-!
# Possible totals

The lowest and the highest modified total of a roll, from the faces on which its dice can end and
the number of dice that are kept. Exploding dice have no highest total.
-/

namespace Tabletop.Roll

/-- The lowest and the highest total that `kept` dice ending on `lo` to `hi` can have. -/
def totals (success : Option Threshold) (kept lo hi : Nat) : Int × Int :=
  match success with
  | none => (Amount.clamp (kept * lo), Amount.clamp (kept * hi))
  | some rule => match rule.holds lo, rule.holds hi with
    | true, true => (kept, kept)
    | false, false => (0, 0)
    | _, _ => (0, kept)

/-- The lowest and the highest total before the flat amount, none if dice explode. -/
def bareTotals? (r : Roll) : Option (Int × Int) :=
  match r.dice with
  | .fudge => some (-(r.count : Int), r.count)
  | .standard sides =>
    if r.modifiers.explode then none
    else
      let (lo, hi) := r.modifiers.faceRange sides
      some (totals r.modifiers.success (r.modifiers.keptCount r.count) lo hi)

/-- The lowest and the highest modified total. -/
def possible? (r : Roll) : Option (Int × Int) :=
  r.bareTotals?.map fun (lo, hi) => (Amount.clamp (lo + r.flat), Amount.clamp (hi + r.flat))

end Tabletop.Roll
