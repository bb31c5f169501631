import Tabletop.Proofs.Notation.Written

/-!
# Notations that a text can spell

Whatever is read from a text is within its widths, has modifiers that a suffix can express, and has
a flat amount that can be written with either sign (`Notation.Expressible`). So the canonical
notation of its roll is read as the same notation again, whatever the text looked like
(`Notation.Expressible.parse_render`): a number too large for its width has become one that fits,
and what was passed over or replaced is not there any more.
-/

namespace Tabletop

/-- The sides that an admissible layout names are within their width. -/
theorem Layout.Admissible.fits_die {l : Layout} (h : l.Admissible) : l.die.Fits := by
  cases hdie : l.die with
  | standard sides => exact h.sides_le hdie
  | fudge => trivial

/-- The flat amount that an admissible layout names is no larger than the greatest, whatever its
sign: the least amount of all is never named. -/
theorem Layout.Admissible.natAbs_amount_le {l : Layout} (h : l.Admissible) :
    (l.amount.natAbs : Int) ≤ Amount.greatest := by
  unfold amount
  cases hf : l.flat with
  | none => decide
  | some f =>
    obtain ⟨minus, ds⟩ := f
    have hds : (Text.decimal ds : Int) ≤ Amount.greatest := h.flat _ hf
    cases minus with
    | false => exact hds
    | true =>
      show ((-(Text.decimal ds : Int)).natAbs : Int) ≤ Amount.greatest
      rw [Int.natAbs_neg]
      exact hds

namespace Notation

/-- A notation that a text can spell. -/
structure Expressible (n : Notation) : Prop where
  count : n.count ≤ maxCount
  dice : n.dice.Fits
  flat : (n.flat.natAbs : Int) ≤ Amount.greatest
  modifiers : n.modifiers.Expressible

/-- What is read from a text is expressible. -/
theorem expressible_of_parse {input : String} {n : Notation} (h : parse input = .ok n) :
    n.Expressible := by
  obtain ⟨l, -, ha, rfl⟩ := parseWith_eq_ok_iff.1 h
  have hmodifiers := Modifiers.expressible_parse (String.ofList l.suffix)
  rw [Modifiers.parse, String.toList_ofList] at hmodifiers
  exact ⟨Nat.min_le_left .., ha.fits_die, ha.natAbs_amount_le, hmodifiers⟩

/-- An expressible notation is read from the canonical notation of its roll, under that text. -/
theorem Expressible.parse_render {n : Notation} (h : n.Expressible) {r : Roll}
    (hr : r = ⟨n.text, n.count, n.dice, n.flat, n.modifiers⟩) :
    parse r.render = .ok { n with text := r.render } := by
  subst hr
  rw [Roll.parse_render_of_admissible h.count (Roll.admissible_layout h.dice h.flat)]
  dsimp only
  rw [h.modifiers.parse_render]

end Notation

end Tabletop
