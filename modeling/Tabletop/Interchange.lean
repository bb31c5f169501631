import Tabletop.Json.Record
import Tabletop.Roll

/-!
# Interchange

The JSON form of everything a table may want to store or send: dice, thresholds, modifiers,
notations, rolls, outcomes and settings. Each type has `toJson` and `ofJson?`. Reading checks the
width of every number and nothing else: a stored roll need not be one that `Draft.build` accepts.
-/

namespace Tabletop

open Json (optional? nat? bool? text? list? record? variant?)

/-- An amount. -/
def amount? : Json → Option Int := Json.int? Amount.least Amount.greatest

/-- A face, a number of sides, or a number of dice to be rolled. -/
def face? : Json → Option Nat := nat? maxFace

/-- A count of dice. -/
def count? : Json → Option Nat := nat? maxCount

namespace Dice

/-- The stored form. -/
def toJson : Dice → Json
  | standard sides => .record [("Standard", .nat sides)]
  | fudge => .text "Fudge"

/-- The kind of die that a value stands for. -/
def ofJson? (j : Json) : Option Dice :=
  match variant? j with
  | some ("Standard", some sides) => (face? sides).map standard
  | some ("Fudge", none) | some ("Fudge", some .null) => some fudge
  | _ => none

end Dice

namespace Threshold

/-- The stored form. -/
def toJson : Threshold → Json
  | atMost n => .record [("AtMost", .nat n)]
  | atLeast n => .record [("AtLeast", .nat n)]
  | below n => .record [("Below", .nat n)]
  | above n => .record [("Above", .nat n)]

/-- The threshold that a value stands for. -/
def ofJson? (j : Json) : Option Threshold :=
  match variant? j with
  | some ("AtMost", some n) => (face? n).map atMost
  | some ("AtLeast", some n) => (face? n).map atLeast
  | some ("Below", some n) => (face? n).map below
  | some ("Above", some n) => (face? n).map above
  | _ => none

end Threshold

namespace Modifiers

/-- The names of the members. -/
def names : List String :=
  ["explode", "keep_high", "keep_low", "drop_high", "drop_low", "reroll", "reroll_once", "success"]

/-- The stored form. -/
def toJson (m : Modifiers) : Json :=
  .record [
    ("explode", .bool m.explode),
    ("keep_high", .ofOption .nat m.keepHigh),
    ("keep_low", .ofOption .nat m.keepLow),
    ("drop_high", .ofOption .nat m.dropHigh),
    ("drop_low", .ofOption .nat m.dropLow),
    ("reroll", .ofOption Threshold.toJson m.reroll),
    ("reroll_once", .bool m.rerollOnce),
    ("success", .ofOption Threshold.toJson m.success)]

/-- The modifiers that a value stands for. -/
def ofJson? (j : Json) : Option Modifiers := do
  let [explode, keepHigh, keepLow, dropHigh, dropLow, reroll, rerollOnce, success] ←
    record? names names.length j | none
  return {
    explode := ← bool? (← explode)
    keepHigh := ← optional? count? keepHigh
    keepLow := ← optional? count? keepLow
    dropHigh := ← optional? count? dropHigh
    dropLow := ← optional? count? dropLow
    reroll := ← optional? Threshold.ofJson? reroll
    rerollOnce := ← bool? (← rerollOnce)
    success := ← optional? Threshold.ofJson? success }

end Modifiers

namespace Notation

/-- The names of the members. -/
def names : List String := ["text", "count", "dice", "modifier", "modifiers"]

/-- The stored form. -/
def toJson (n : Notation) : Json :=
  .record [
    ("text", .text n.text),
    ("count", .nat n.count),
    ("dice", n.dice.toJson),
    ("modifier", .int n.flat),
    ("modifiers", n.modifiers.toJson)]

/-- The notation that a value stands for. -/
def ofJson? (j : Json) : Option Notation := do
  let [text, count, dice, flat, modifiers] ← record? names names.length j | none
  return {
    text := ← text? (← text)
    count := ← count? (← count)
    dice := ← Dice.ofJson? (← dice)
    flat := ← amount? (← flat)
    modifiers := ← Modifiers.ofJson? (← modifiers) }

end Notation

namespace Roll

/-- The names of the members. -/
def names : List String := ["notation", "count", "dice", "modifier", "modifiers"]

/-- The stored form. -/
def toJson (r : Roll) : Json :=
  .record [
    ("notation", .text r.text),
    ("count", .nat r.count),
    ("dice", r.dice.toJson),
    ("modifier", .int r.flat),
    ("modifiers", r.modifiers.toJson)]

/-- The roll that a value stands for. -/
def ofJson? (j : Json) : Option Roll := do
  let [text, count, dice, flat, modifiers] ← record? names names.length j | none
  return {
    text := ← text? (← text)
    count := ← face? (← count)
    dice := ← Dice.ofJson? (← dice)
    flat := ← amount? (← flat)
    modifiers := ← Modifiers.ofJson? (← modifiers) }

end Roll

namespace Outcome

/-- The names of the members. -/
def names : List String :=
  ["rolls", "total", "modifier", "modified_total", "notation", "is_fudge", "success_count",
    "dice_rolled"]

/-- The stored form. -/
def toJson (o : Outcome) : Json :=
  .record [
    ("rolls", .array (o.rolls.map .int)),
    ("total", .int o.total),
    ("modifier", .int o.flat),
    ("modified_total", .int o.modifiedTotal),
    ("notation", .text o.text),
    ("is_fudge", .bool o.isFudge),
    ("success_count", .ofOption .int o.successCount),
    ("dice_rolled", .nat o.diceRolled)]

/-- The outcome that a value stands for. -/
def ofJson? (j : Json) : Option Outcome := do
  let [rolls, total, flat, modifiedTotal, text, isFudge, successCount, diceRolled] ←
    record? names names.length j | none
  return {
    rolls := ← list? amount? (← rolls)
    total := ← amount? (← total)
    flat := ← amount? (← flat)
    modifiedTotal := ← amount? (← modifiedTotal)
    text := ← text? (← text)
    isFudge := ← bool? (← isFudge)
    successCount := ← optional? amount? successCount
    diceRolled := ← count? (← diceRolled) }

end Outcome

namespace Settings

/-- The names of the members. -/
def names : List String := ["max_dice", "show_individual"]

/-- The stored form. -/
def toJson (s : Settings) : Json :=
  .record [("max_dice", .nat s.maxDice), ("show_individual", .nat s.showIndividual)]

/-- The settings that a value stands for. A member that is absent keeps its usual value, but none
may be `null`. -/
def ofJson? (j : Json) : Option Settings := do
  let usual : Settings := {}
  let [maxDice, showIndividual] ← record? names 0 j | none
  return {
    maxDice := ← Json.defaulted? face? usual.maxDice maxDice
    showIndividual := ← Json.defaulted? count? usual.showIndividual showIndividual }

end Settings

end Tabletop
