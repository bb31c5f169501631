import Tabletop.Narration
import Tabletop.Roll

/-!
# Evaluating a notation

From a text to an outcome: read the notation, check it against the settings, roll it. A text that is
refused is refused before the source is asked for anything.
-/

namespace Tabletop

variable {σ : Type} [DieSource σ]

/-- Rolls what a text spells, under a reading of its numbers. -/
def evaluateWith (reading : Reading) (input : String) (settings : Settings) :
    Roller σ (Except RollError Outcome) :=
  match Notation.parseWith reading input with
  | .error e => pure (.error e)
  | .ok n => do
    Roller.reports n.events
    match Roll.ofNotation n settings.maxDice with
    | .error e => pure (.error e)
    | .ok r => do
      let o ← r.roll
      Roller.report (.evaluated o.text o.rolls.length o.total o.modifiedTotal)
      pure (.ok o)

/-- Rolls what a text spells. -/
def evaluate (input : String) (settings : Settings) : Roller σ (Except RollError Outcome) :=
  evaluateWith .saturating input settings

/-- Rolls what a text spells and puts the outcome into words. -/
def evaluateAloud (input : String) (settings : Settings) :
    Roller σ (Except RollError (Outcome × String)) := do
  let answer ← evaluate input settings
  pure (answer.map fun o => (o, narrate o settings.showIndividual))

end Tabletop
