import Tabletop.Modifiers.Selection
import Tabletop.Notation
import Tabletop.Outcome
import Tabletop.Rolling
import Tabletop.Settings

/-!
# Rolls

A `Roll` is what is rolled: so many dice of a kind, a flat amount and modifiers. It comes from a
notation (`Roll.ofNotation`) or from a `Draft` that is filled in step by step; both check the
number of dice and of sides, in that order. `Roll.render` is the canonical notation of a roll, and
`Roll.roll` rolls it on any source.
-/

namespace Tabletop

/-- Dice to be rolled. -/
structure Roll where
  /-- The notation under which the outcome is reported. -/
  text : String
  /-- The number of dice before any explosion. -/
  count : Nat
  /-- The kind of die. -/
  dice : Dice
  /-- The flat amount. -/
  flat : Int
  /-- The modifiers. Fudge dice ignore them. -/
  modifiers : Modifiers
  deriving DecidableEq, Repr

/-- The flat part of a notation, nothing for 0. -/
def renderFlat (flat : Int) : String := if flat = 0 then "" else Amount.signed flat

/-- The canonical notation of a roll. -/
def Roll.render (r : Roll) : String :=
  toString r.count ++ "d" ++ r.dice.render ++ renderFlat r.flat ++ r.modifiers.render

/-- A roll in preparation. It starts as a single die without modifiers. -/
structure Draft where
  /-- The kind of die. -/
  dice : Dice
  /-- The number of dice. -/
  count : Nat := 1
  /-- The flat amount. -/
  flat : Int := 0
  /-- The modifiers. -/
  modifiers : Modifiers := {}
  /-- The most dice allowed. -/
  maxDice : Nat := ({} : Settings).maxDice
  deriving DecidableEq, Repr

/-- Checks a draft. The roll is reported under its canonical notation. -/
def Draft.build (d : Draft) : Except RollError Roll :=
  if d.maxDice < d.count then .error (.tooManyDice d.maxDice)
  else if d.count = 0 then .error .tooFewDice
  else
    let roll : Roll := ⟨"", d.count, d.dice, d.flat, d.modifiers⟩
    let accepted : Except RollError Roll := .ok { roll with text := roll.render }
    match d.dice with
    | .standard sides => if sides < 2 then .error (.invalidSides sides) else accepted
    | .fudge => accepted

namespace Roll

/-- Checks a notation against the most dice allowed. The roll keeps the text as typed. -/
def ofNotation (n : Notation) (maxDice : Nat) : Except RollError Roll :=
  (Draft.build ⟨n.dice, n.count, n.flat, n.modifiers, maxDice⟩).map ({ · with text := n.text })

variable {σ : Type} [DieSource σ]

/-- The faces on which standard dice end: the base dice, then those of the explosion. -/
def settleAll (r : Roll) (sides : Nat) : Roller σ (List Nat) := do
  let base ← Roller.times r.count (rollOne sides r.modifiers)
  if r.modifiers.explode then
    let extra ← Tabletop.explode base sides r.modifiers
    Roller.report (.exploded extra.length)
    pure (base ++ extra)
  else pure base

/-- Scores the faces on which standard dice ended. -/
def score (r : Roll) (settled : List Nat) : Outcome :=
  let kept := r.modifiers.select settled
  let outcome := match r.modifiers.success with
    | some rule => Outcome.successes r.text kept rule r.flat
    | none => Outcome.sum r.text kept r.flat
  outcome.withDiceRolled settled.length

/-- Rolls the dice. -/
def roll (r : Roll) : Roller σ Outcome :=
  match r.dice with
  | .fudge => do
    let rolls ← rollFudge r.count
    pure (Outcome.fudge r.text rolls r.flat)
  | .standard sides => do
    let settled ← r.settleAll sides
    pure (r.score settled)

end Roll

end Tabletop
