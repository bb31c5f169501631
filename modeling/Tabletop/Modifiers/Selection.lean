import Tabletop.Modifiers

/-!
# Keeping and dropping dice

The keep and drop counts act on the dice in ascending order, one after the other: drop the lowest,
drop the highest, keep the lowest, keep the highest. A count larger than what is left empties the
dice (drops) or changes nothing (keeps). `keptCount` says how many dice `select` leaves.
-/

namespace Tabletop.Modifiers

/-- The faces without the last `n`. -/
def dropHighest (n : Nat) (sorted : List Nat) : List Nat :=
  sorted.take (sorted.length - n)

/-- The last `n` faces. -/
def keepHighest (n : Nat) (sorted : List Nat) : List Nat :=
  sorted.drop (sorted.length - n)

/-- One step of the selection, left out if its count is not set. -/
def step (act : Nat → List Nat → List Nat) : Option Nat → List Nat → List Nat
  | none, sorted => sorted
  | some n, sorted => act n sorted

/-- What the keep and drop counts leave of dice in ascending order. -/
def trim (m : Modifiers) (sorted : List Nat) : List Nat :=
  step keepHighest m.keepHigh <| step List.take m.keepLow <|
    step dropHighest m.dropHigh <| step List.drop m.dropLow sorted

/-- The dice that count, in ascending order. -/
def select (m : Modifiers) (faces : List Nat) : List Nat :=
  m.trim (faces.mergeSort fun a b => a ≤ b)

/-- How many of `count` dice `select` leaves. -/
def keptCount (m : Modifiers) (count : Nat) : Nat :=
  let left := count - m.dropLow.getD 0 - m.dropHigh.getD 0
  min (min left (m.keepLow.getD left)) (m.keepHigh.getD left)

end Tabletop.Modifiers
