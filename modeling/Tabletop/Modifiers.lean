import Tabletop.Threshold

/-!
# Modifiers

The gameplay modifiers of a roll, as a record of independent settings, and their canonical written
form. What a modifier does to the dice is said in `Tabletop.Modifiers.Selection` (keep and drop)
and `Tabletop.Modifiers.Faces` (rerolls).
-/

namespace Tabletop

/-- The modifiers that may follow a roll, such as the `dl1!` of `4d6dl1!`. -/
structure Modifiers where
  /-- Roll one more die for every die that shows its highest face. -/
  explode : Bool := false
  /-- Keep only this many of the highest dice. -/
  keepHigh : Option Nat := none
  /-- Keep only this many of the lowest dice. -/
  keepLow : Option Nat := none
  /-- Discard this many of the highest dice. -/
  dropHigh : Option Nat := none
  /-- Discard this many of the lowest dice. -/
  dropLow : Option Nat := none
  /-- Roll a die again while its face matches. -/
  reroll : Option Threshold := none
  /-- Roll a die again at most once. -/
  rerollOnce : Bool := false
  /-- Count the dice that match instead of adding them up. -/
  success : Option Threshold := none
  deriving DecidableEq, Repr, Inhabited

namespace Modifiers

/-- Whether a roll is scored by counting successes. -/
def countsSuccesses (m : Modifiers) : Bool := m.success.isSome

/-- A count setting with its mark in front, nothing if it is not set. -/
def renderCount (mark : String) : Option Nat → String
  | none => ""
  | some n => mark ++ toString n

/-- The written form of the reroll rule. Without a rule, `once` shows nowhere. -/
def renderReroll (once : Bool) : Option Threshold → String
  | none => ""
  | some rule => (if once then "ro" else "r") ++ rule.render

/-- The canonical written form: explosion, drops, keeps, reroll, success. -/
def render (m : Modifiers) : String :=
  (if m.explode then "!" else "")
    ++ renderCount "dl" m.dropLow
    ++ renderCount "dh" m.dropHigh
    ++ renderCount "kl" m.keepLow
    ++ renderCount "kh" m.keepHigh
    ++ renderReroll m.rerollOnce m.reroll
    ++ (m.success.map Threshold.render).getD ""

/-- Modifiers that a suffix can express: rerolls are inclusive, successes are strict, and rerolling
once needs a rule to reroll by. -/
structure Canonical (m : Modifiers) : Prop where
  /-- The reroll rule is inclusive. -/
  reroll : ∀ t, m.reroll = some t → t = .atMost t.bound ∨ t = .atLeast t.bound
  /-- The success rule is strict. -/
  success : ∀ t, m.success = some t → t = .below t.bound ∨ t = .above t.bound
  /-- Rerolling once comes with a rule. -/
  once : m.rerollOnce = true → m.reroll.isSome = true

end Modifiers

end Tabletop
