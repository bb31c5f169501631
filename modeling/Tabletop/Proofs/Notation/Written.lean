import Tabletop.Proofs.Notation.Grammar
import Tabletop.Proofs.Suffix.Canonical

/-!
# The written form of a roll is a notation

`Roll.layout` is the layout of the notation that `Roll.render` writes, and `Roll.spells_layout` says
that the grammar finds it there: the digits of the sides and of the flat amount end at a sign or at
the mark of a modifier. So a roll is read back (`Roll.parse_render`), but for its modifiers where no
suffix expresses them, and but for the least flat amount, which has no positive counterpart.
-/

namespace Tabletop

open Text (Numeral NoDigit Plain decimal)

/-! ## Flat amounts -/

/-- The digits of a flat amount with its sign, none for 0. -/
def flatLayout (flat : Int) : Option (Bool × List Char) :=
  if flat = 0 then none else some (decide (flat < 0), (toString flat.natAbs).toList)

/-- A negative amount is written with a minus. -/
theorem toString_of_neg {n : Int} (h : n < 0) : toString n = "-" ++ toString n.natAbs := by
  cases n with
  | ofNat n => exact absurd h (by simp)
  | negSucc n => rfl

/-- Any other amount is written without a sign. -/
theorem toString_of_nonneg {n : Int} (h : 0 ≤ n) : toString n = toString n.natAbs := by
  cases n with
  | ofNat n => rfl
  | negSucc n => exact absurd h (by simp)

/-- The flat amount of a roll is written as its layout has it. -/
theorem toList_renderFlat (flat : Int) :
    (renderFlat flat).toList = Layout.flatChars (flatLayout flat) := by
  unfold renderFlat flatLayout Amount.signed
  by_cases hzero : flat = 0
  · rw [if_pos hzero, if_pos hzero]
    rfl
  · rw [if_neg hzero, if_neg hzero]
    by_cases hneg : flat < 0
    · rw [if_pos hneg, toString_of_neg hneg, String.toList_append]
      simp [Layout.flatChars, Layout.signChar, hneg]
    · rw [if_neg hneg, toString_of_nonneg (Int.not_lt.1 hneg), String.toList_append]
      simp [Layout.flatChars, Layout.signChar, hneg]

/-- A flat amount as written is made of plain characters. -/
theorem plain_flatChars (flat : Int) : ∀ c ∈ Layout.flatChars (flatLayout flat), Plain c := by
  unfold flatLayout
  split
  · nofun
  · rw [Layout.flatChars, List.forall_mem_cons]
    refine ⟨?_, Text.plain_toString _⟩
    cases decide (flat < 0) <;> decide

/-! ## The layout of a roll -/

namespace Roll

/-- The layout of the canonical notation of a roll. -/
def layout (r : Roll) : Layout where
  count := (toString r.count).toList
  sides := match r.dice with
    | .standard sides => some (toString sides).toList
    | .fudge => none
  flat := flatLayout r.flat
  suffix := r.modifiers.render.toList

/-- A roll is written part by part as its layout has it. -/
theorem toList_render (r : Roll) : r.render.toList = (toString r.count).toList ++
    'd' :: (r.dice.render.toList ++ (Layout.flatChars r.layout.flat ++ r.layout.suffix)) := by
  unfold render
  simp only [String.toList_append, toList_renderFlat, List.append_assoc]
  rfl

/-- What is written for a roll is ASCII without blanks. -/
theorem ascii_render (r : Roll) : ∀ c ∈ r.render.toList, c.toNat < 128 ∧ Text.isBlank c = false := by
  have hplain {cs : List Char} (h : ∀ c ∈ cs, Plain c) :
      ∀ c ∈ cs, c.toNat < 128 ∧ Text.isBlank c = false := fun c hc => ⟨(h c hc).1, (h c hc).2⟩
  rw [toList_render]
  simp only [List.forall_mem_append, List.forall_mem_cons]
  refine ⟨hplain (Text.plain_toString _), by decide, ?_, hplain (plain_flatChars _),
    hplain r.modifiers.plain_render⟩
  cases r.dice with
  | standard sides => exact hplain (Text.plain_toString sides)
  | fudge => exact List.forall_mem_singleton.2 (by decide)

/-- A written roll has no blanks to be trimmed. -/
theorem trim_render (r : Roll) : Text.trim r.render.toList = r.render.toList :=
  Text.trim_of_notBlank fun c hc => (r.ascii_render c hc).2

/-- In lowercase only the `F` of a Fudge die is different. -/
theorem lower_render (r : Roll) : Text.lower r.render.toList = r.layout.count ++
    'd' :: (r.layout.sides.getD ['f'] ++ (Layout.flatChars r.layout.flat ++ r.layout.suffix)) := by
  have hdice : r.dice.render.toList.map Char.toLower = r.layout.sides.getD ['f'] := by
    unfold layout
    cases r.dice with
    | standard sides => exact Text.map_toLower_of_plain (Text.plain_toString sides)
    | fudge => rfl
  have hflat := Text.map_toLower_of_plain (plain_flatChars r.flat)
  have hsuffix := Text.map_toLower_of_plain r.modifiers.plain_render
  rw [Text.lower_of_ascii fun c hc => (r.ascii_render c hc).1, toList_render, List.map_append,
    List.map_cons, List.map_append, List.map_append, hdice,
    Text.map_toLower_of_plain (Text.plain_toString _)]
  simp only [layout, hflat, hsuffix]
  rfl

/-- Modifiers are written from a mark on, so no number before them runs on into them. -/
theorem noDigit_suffix (r : Roll) : NoDigit r.layout.suffix := by
  have hmarks : ∀ c ∈ ['!', 'd', 'k', 'r', '<', '>'], c.isDigit = false := by
    simp
  exact fun c hc => hmarks c (r.modifiers.head_render c hc)

/-- Modifiers do not begin like a flat amount. -/
theorem not_signedDigit_suffix (r : Roll) : ¬ Layout.SignedDigit r.layout.suffix := by
  rintro ⟨minus, digit, rest, -, hsuffix⟩
  have hmark := r.modifiers.head_render (Layout.signChar minus) (by
    show _ ∈ r.layout.suffix.head?
    rw [hsuffix]
    rfl)
  cases minus <;> exact absurd hmark (by decide)

/-- The grammar finds the layout of a roll in its canonical notation. -/
theorem spells_layout (r : Roll) : r.layout.Spells (Text.lower (Text.trim r.render.toList)) where
  text := by rw [trim_render, lower_render]
  count := Text.numeral_toString _
  sides ds hds := by
    have hnum : Numeral ds := by
      unfold layout at hds
      cases hdice : r.dice with
      | standard sides =>
        rw [hdice] at hds
        exact Option.some.inj hds ▸ Text.numeral_toString sides
      | fudge => rw [hdice] at hds; cases hds
    refine ⟨hnum, ?_⟩
    cases hflat : r.layout.flat with
    | none => exact r.noDigit_suffix
    | some f =>
      obtain ⟨minus, fs⟩ := f
      cases minus <;> exact Text.noDigit_cons.2 (by decide)
  flat f hf := by
    refine ⟨?_, r.noDigit_suffix⟩
    unfold layout flatLayout at hf
    dsimp only at hf
    split at hf
    · cases hf
    · exact Option.some.inj hf ▸ Text.numeral_toString _
  noFlat _ := r.not_signedDigit_suffix

/-! ## Reading it back -/

/-- The layout of a roll has its die. -/
theorem die_layout (r : Roll) : r.layout.die = r.dice := by
  unfold layout Layout.die
  cases r.dice with
  | standard sides => exact congrArg Dice.standard (Text.decimal_toString sides)
  | fudge => rfl

/-- The layout of a roll has its flat amount. -/
theorem amount_layout (r : Roll) : r.layout.amount = r.flat := by
  unfold layout Layout.amount flatLayout
  dsimp only
  split
  · next h => exact h.symm
  · rw [Option.elim_some, Text.decimal_toString]
    by_cases hneg : r.flat < 0
    · rw [if_pos (by simpa using hneg)]
      omega
    · rw [if_neg (by simpa using hneg)]
      omega

/-- The parts of a roll are admissible if its sides are within their width and its flat amount is no
larger than the greatest, whatever its sign. -/
theorem admissible_layout {r : Roll} (hdice : r.dice.Fits)
    (hflat : (r.flat.natAbs : Int) ≤ Amount.greatest) : r.layout.Admissible := by
  refine ⟨fun ds hds => ?_, fun f hf => ?_⟩
  · unfold layout at hds
    cases hd : r.dice with
    | standard sides =>
      rw [hd] at hds hdice
      cases hds
      rw [Text.decimal_toString]
      exact hdice
    | fudge => rw [hd] at hds; cases hds
  · unfold layout flatLayout at hf
    dsimp only at hf
    split at hf
    · cases hf
    · cases hf
      dsimp only
      rw [Text.decimal_toString]
      exact hflat

/-- The parts of a roll within its widths are admissible, unless its flat amount is the least:
the digits of that one make a positive number past the greatest. -/
theorem admissible_layout_iff {r : Roll} (h : r.Fits) :
    r.layout.Admissible ↔ r.flat ≠ Amount.least := by
  have hrange := h.flat
  unfold Amount.InRange Amount.least Amount.greatest at hrange
  constructor
  · intro ha hleast
    unfold Amount.least at hleast
    have hdigits := ha.flat (true, (toString r.flat.natAbs).toList) (by
      unfold layout flatLayout
      dsimp only
      rw [if_neg (by omega), decide_eq_true (by omega)]
      rfl)
    rw [Text.decimal_toString] at hdigits
    unfold Amount.greatest at hdigits
    omega
  · intro hleast
    unfold Amount.least at hleast
    refine admissible_layout h.dice ?_
    unfold Amount.greatest
    omega

/-- A roll whose parts are admissible is read back from its canonical notation, with the modifiers
that its suffix expresses. -/
theorem parse_render_of_admissible {r : Roll} (hcount : r.count ≤ maxCount)
    (h : r.layout.Admissible) :
    Notation.parse r.render =
      .ok ⟨r.render, r.count, r.dice, r.flat, Modifiers.parse r.modifiers.render⟩ := by
  refine Notation.parseWith_eq_ok_iff.2 ⟨r.layout, r.spells_layout, h, ?_⟩
  have hcount : Reading.saturating.count (decimal r.layout.count) = r.count :=
    Suffix.count_written hcount
  rw [trim_render, String.ofList_toList, Layout.value, hcount, die_layout, amount_layout]
  rfl

/-- A roll is read back from its canonical notation, with the modifiers that its suffix
expresses. -/
theorem parse_render {r : Roll} (h : r.Fits) (hflat : r.flat ≠ Amount.least) :
    Notation.parse r.render =
      .ok ⟨r.render, r.count, r.dice, r.flat, Modifiers.parse r.modifiers.render⟩ :=
  parse_render_of_admissible (Nat.le_trans h.count (by decide)) ((admissible_layout_iff h).2 hflat)

/-- The canonical notation of a roll with the least flat amount is refused. -/
theorem parse_render_of_least {r : Roll} (h : r.Fits) (hflat : r.flat = Amount.least) :
    Notation.parse r.render = .error (.invalidNotation r.render) := by
  refine Notation.parseWith_eq_error_iff.2 ⟨?_, ?_⟩
  · rw [trim_render, String.ofList_toList]
  · rintro ⟨n, hn⟩
    obtain ⟨l, hl, ha, -⟩ := Notation.parseWith_eq_ok_iff.1 hn
    exact (admissible_layout_iff h).1 (hl.unique r.spells_layout ▸ ha) hflat

/-- A roll is read back from its canonical notation exactly if its flat amount is not the least and
its modifiers are canonical. With the least flat amount the notation is refused. -/
theorem parse_render_recovers_iff {r : Roll} (h : r.Fits) :
    ((∃ n, Notation.parse r.render = .ok n ∧ n.count = r.count ∧ n.dice = r.dice ∧
        n.flat = r.flat ∧ n.modifiers = r.modifiers) ↔
      r.flat ≠ Amount.least ∧ r.modifiers.Canonical) ∧
    (r.flat = Amount.least →
      Notation.parse r.render = .error (.invalidNotation r.render)) := by
  refine ⟨⟨?_, fun ⟨hflat, hc⟩ => ?_⟩, parse_render_of_least h⟩
  · rintro ⟨n, hn, -, -, -, hm⟩
    have hflat : r.flat ≠ Amount.least := by
      intro hleast
      rw [parse_render_of_least h hleast] at hn
      cases hn
    rw [parse_render h hflat] at hn
    cases hn
    refine ⟨hflat, ?_⟩
    rw [← hm]
    exact (Modifiers.expressible_parse _).canonical
  · refine ⟨_, parse_render h hflat, rfl, rfl, rfl, ?_⟩
    exact Modifiers.Expressible.parse_render ⟨hc, h.modifiers⟩

/-- A roll with the widest numbers of all, read back; and the same roll with the least flat amount,
refused. -/
theorem parse_render_recovers_iff_widest :
    let widest : Roll := ⟨"", maxFace, .standard maxFace, Amount.greatest, ⟨true, some maxCount,
      some maxCount, some maxCount, some maxCount, some (.atMost maxFace), true,
      some (.above maxFace)⟩⟩
    let least : Roll := { widest with flat := Amount.least }
    widest.Fits ∧ (∃ n, Notation.parse widest.render = .ok n ∧ n.count = widest.count ∧
      n.dice = widest.dice ∧ n.flat = widest.flat ∧ n.modifiers = widest.modifiers) ∧
    least.Fits ∧ Notation.parse least.render = .error (.invalidNotation least.render) := by
  intro widest least
  have hwidest : widest.Fits := by decide
  have hleast : least.Fits := by decide
  exact ⟨hwidest, (parse_render_recovers_iff hwidest).1.2 (by decide), hleast,
    (parse_render_recovers_iff hleast).2 rfl⟩

end Roll

end Tabletop
