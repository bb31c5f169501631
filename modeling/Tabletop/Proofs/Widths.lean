import Tabletop.Roll

/-!
# Values within their widths

Numbers are unbounded here, while every number of a roll has a width: counts to keep or drop and
counts of dice, faces and sides, flat amounts. The `Fits` predicates hold of the values whose
numbers are all within their widths, which are the only ones a program can have. Like
`Modifiers.Canonical` they can be decided.
-/

namespace Tabletop

/-- The number of sides is within its width. -/
def Dice.Fits : Dice → Prop
  | .standard sides => sides ≤ maxFace
  | .fudge => True

instance (d : Dice) : Decidable d.Fits := by
  unfold Dice.Fits; split <;> infer_instance

/-- The counts and the thresholds are within their widths. -/
structure Modifiers.Fits (m : Modifiers) : Prop where
  keepHigh : ∀ n ∈ m.keepHigh, n ≤ maxCount
  keepLow : ∀ n ∈ m.keepLow, n ≤ maxCount
  dropHigh : ∀ n ∈ m.dropHigh, n ≤ maxCount
  dropLow : ∀ n ∈ m.dropLow, n ≤ maxCount
  reroll : ∀ rule ∈ m.reroll, rule.bound ≤ maxFace
  success : ∀ rule ∈ m.success, rule.bound ≤ maxFace

instance (m : Modifiers) : Decidable m.Fits :=
  decidable_of_iff ((∀ n ∈ m.keepHigh, n ≤ maxCount) ∧ (∀ n ∈ m.keepLow, n ≤ maxCount) ∧
    (∀ n ∈ m.dropHigh, n ≤ maxCount) ∧ (∀ n ∈ m.dropLow, n ≤ maxCount) ∧
    (∀ rule ∈ m.reroll, rule.bound ≤ maxFace) ∧ ∀ rule ∈ m.success, rule.bound ≤ maxFace)
    ⟨fun ⟨h₁, h₂, h₃, h₄, h₅, h₆⟩ => ⟨h₁, h₂, h₃, h₄, h₅, h₆⟩,
      fun ⟨h₁, h₂, h₃, h₄, h₅, h₆⟩ => ⟨h₁, h₂, h₃, h₄, h₅, h₆⟩⟩

instance (m : Modifiers) : Decidable m.Canonical :=
  decidable_of_iff ((∀ t ∈ m.reroll, t = .atMost t.bound ∨ t = .atLeast t.bound) ∧
    (∀ t ∈ m.success, t = .below t.bound ∨ t = .above t.bound) ∧
    (m.rerollOnce = true → m.reroll.isSome = true))
    ⟨fun ⟨h₁, h₂, h₃⟩ => ⟨h₁, h₂, h₃⟩, fun ⟨h₁, h₂, h₃⟩ => ⟨h₁, h₂, h₃⟩⟩

/-- The numbers of a roll are within their widths; dice are counted as faces are. -/
structure Roll.Fits (r : Roll) : Prop where
  count : r.count ≤ maxFace
  dice : r.dice.Fits
  flat : Amount.InRange r.flat
  modifiers : r.modifiers.Fits

instance (r : Roll) : Decidable r.Fits :=
  decidable_of_iff (r.count ≤ maxFace ∧ r.dice.Fits ∧ Amount.InRange r.flat ∧ r.modifiers.Fits)
    ⟨fun ⟨h₁, h₂, h₃, h₄⟩ => ⟨h₁, h₂, h₃, h₄⟩, fun ⟨h₁, h₂, h₃, h₄⟩ => ⟨h₁, h₂, h₃, h₄⟩⟩

/-- The number compared with is within its width. -/
def Threshold.Fits (rule : Threshold) : Prop := rule.bound ≤ maxFace

/-- The numbers of a notation are within their widths; dice are counted before they are checked. -/
structure Notation.Fits (n : Notation) : Prop where
  count : n.count ≤ maxCount
  dice : n.dice.Fits
  flat : Amount.InRange n.flat
  modifiers : n.modifiers.Fits

/-- The numbers of an outcome are within their widths. -/
structure Outcome.Fits (o : Outcome) : Prop where
  rolls : ∀ face ∈ o.rolls, Amount.InRange face
  total : Amount.InRange o.total
  flat : Amount.InRange o.flat
  modifiedTotal : Amount.InRange o.modifiedTotal
  successCount : ∀ count ∈ o.successCount, Amount.InRange count
  diceRolled : o.diceRolled ≤ maxCount

/-- The numbers of settings are within their widths. -/
structure Settings.Fits (s : Settings) : Prop where
  maxDice : s.maxDice ≤ maxFace
  showIndividual : s.showIndividual ≤ maxCount

end Tabletop
