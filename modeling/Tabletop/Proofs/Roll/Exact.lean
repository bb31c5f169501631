import Tabletop.Proofs.Evaluation.Fudge

/-!
# Totals that are sums

`2 ^ 31` dice are added up exactly whatever they show (`Outcome.exact_sum`), and the products in the
range of their totals stay within the width of an amount as well (`Roll.inRange_kept_mul`). Fudge
dice are added up exactly, as many as can be asked for (`Roll.exact_of_fudge`). One more of the
largest dice is too many: on their highest face the total goes around, while the range stops at the
greatest amount (`Roll.oversized`).
-/

namespace Tabletop

namespace Roll

variable {r : Roll} {sides lo hi : Nat}

/-! ## Fudge dice -/

/-- Fudge dice are as many as are asked for, and each counts for what it is worth. -/
theorem fudge_of_run (hdice : r.dice = .fudge) {σ : Type} [DieSource σ] {s t : σ}
    {log : List Entry} {o : Outcome} (hrun : r.roll.run s = ⟨some o, t, log⟩) :
    (drawn log).length = r.count ∧ o = .fudge r.text ((drawn log).map fudgeWorth) r.flat := by
  rw [run_roll_of_fudge hdice] at hrun
  cases hdraws : (Roller.times r.count (Roller.draw 3)).run s with
  | mk outcome u l =>
    rw [hdraws] at hrun
    cases outcome with
    | none => cases hrun
    | some faces =>
      cases hrun
      obtain ⟨hlen, -⟩ := Roller.series_of_run_times (P := fun _ _ => True) (fun _ => trivial) hdraws
      rw [(Roller.asked_of_run_times_draw hdraws).2]
      exact ⟨hlen, rfl⟩

/-- Fudge dice have their sum for a total, as many as can be asked for on faces of their own, and up
to `2 ^ 31` of them on whatever faces. -/
theorem exact_of_fudge (hdice : r.dice = .fudge) (hcount : r.count ≤ maxFace) {σ : Type}
    [DieSource σ] {s t : σ} {log : List Entry} {o : Outcome}
    (hrun : r.roll.run s = ⟨some o, t, log⟩)
    (hfaces : (∀ e ∈ log, e.Fair) ∨ r.count ≤ 2 ^ 31 ∧ ∀ face ∈ drawn log, face ≤ maxFace) :
    o.Exact := by
  rcases hfaces with hfair | ⟨hfew, hdrawn⟩
  · obtain ⟨faces, hlen, hown, rfl⟩ := CanCome.exists_fudge ⟨σ, _, s, t, log, hrun, hfair⟩ hdice
    refine Outcome.exact_fudge (fun face hface => (hown face hface).2) (hlen ▸ hcount) ?_ _ _
    unfold maxFace UInt32.size at hcount
    unfold Amount.greatest
    omega
  · obtain ⟨hlen, rfl⟩ := fudge_of_run hdice hrun
    refine Outcome.exact_fudge hdrawn (hlen ▸ hcount) ?_ _ _
    unfold maxFace UInt32.size Amount.greatest
    omega

/-! ## The range of totals -/

/-- So many dice on an end of the range of faces have an amount for a total. -/
theorem inRange_kept_mul (hsides : sides ≤ maxFace) (hcount : r.count ≤ 2 ^ 31)
    (hrange : r.modifiers.faceRange sides = (lo, hi)) :
    Amount.InRange (r.modifiers.keptCount r.count * lo) ∧
      Amount.InRange (r.modifiers.keptCount r.count * hi) := by
  have hends := Modifiers.faceRange_le r.modifiers sides
  rw [hrange] at hends
  have hkept : r.modifiers.keptCount r.count ≤ 2 ^ 31 := Nat.le_trans Modifiers.keptCount_le hcount
  have hmax : max sides 1 ≤ maxFace := Nat.max_le.2 ⟨hsides, by decide⟩
  exact ⟨inRange_mul (Nat.mul_le_mul hkept (Nat.le_trans hends.1 hmax)),
    inRange_mul (Nat.mul_le_mul hkept (Nat.le_trans hends.2 hmax))⟩

/-- The range of a roll that is added up and does not explode. -/
theorem bareTotals?_of_sum (hdice : r.dice = .standard sides)
    (hexplode : r.modifiers.explode = false) (hsuccess : r.modifiers.success = none)
    (hrange : r.modifiers.faceRange sides = (lo, hi)) :
    r.bareTotals? = some (Amount.clamp (r.modifiers.keptCount r.count * lo),
      Amount.clamp (r.modifiers.keptCount r.count * hi)) := by
  unfold bareTotals?
  rw [hdice]
  dsimp only
  rw [hexplode, hsuccess, hrange]
  rfl

/-! ## One die too many -/

/-- Dice that all count and all show the same face. -/
theorem score_replicate {n : Nat} (face : Nat) (hsuccess : r.modifiers.success = none)
    (hkept : r.modifiers.keptCount n = n) :
    (r.score (List.replicate n face)).rolls = List.replicate n (face : Int) ∧
      (r.score (List.replicate n face)).total =
        Amount.wrap (r.score (List.replicate n face)).rolls.sum := by
  constructor
  · rw [rolls_score, Modifiers.select_replicate, hkept, List.map_replicate]
    rfl
  · rw [score_of_sum hsuccess]
    rfl

/-- If one more than `2 ^ 31` of the largest dice all show their highest face, their sum is above
every amount, and the total goes around while the range of totals stops at the greatest amount. -/
theorem oversized (hdice : r.dice = .standard maxFace) (hcount : r.count = 2 ^ 31 + 1)
    (hmodifiers : r.modifiers = {}) :
    ∃ o, r.CanCome o ∧ o.rolls = List.replicate (2 ^ 31 + 1) (maxFace : Int) ∧
      Amount.greatest < o.rolls.sum ∧ o.total = o.rolls.sum - UInt64.size ∧
      r.bareTotals? = some (2 ^ 31 + 1, Amount.greatest) := by
  have hstay : r.modifiers.MayStay maxFace maxFace := by
    rw [hmodifiers]
    refine ⟨⟨by decide, Nat.le_refl _⟩, ?_⟩
    rintro rule ⟨⟩
  have hexplode : r.modifiers.explode = false := by rw [hmodifiers]
  have hsuccess : r.modifiers.success = none := by rw [hmodifiers]
  have hkept : r.modifiers.keptCount r.count = r.count := by
    rw [hmodifiers, hcount]
    decide
  have hrange : r.modifiers.faceRange maxFace = (1, maxFace) := by
    rw [hmodifiers]
    decide
  obtain ⟨hrolls, htotal⟩ := score_replicate maxFace hsuccess hkept
  have hsum : (r.score (List.replicate r.count maxFace)).rolls.sum =
      ((2 ^ 31 + 1 : Nat) : Int) * maxFace := by
    rw [hrolls, hcount, List.sum_replicate, nsmul_eq_mul]
  refine ⟨_, canCome_replicate hdice hexplode hstay, ?_, ?_, ?_, ?_⟩
  · rw [hrolls, hcount]
  · rw [hsum]
    decide
  · rw [htotal, hsum]
    decide
  · rw [bareTotals?_of_sum hdice hexplode hsuccess hrange, hkept, hcount]
    decide

end Roll

/-! ## Exactness and its limit -/

/-- Up to `2 ^ 31` dice with whatever faces are added up exactly: no partial sum leaves the width of
an amount, and the total is the sum of the faces. The products in the range of totals of as many
dice stay within the width as well, so the range of dice that do not explode is theirs. Fudge dice
are added up exactly however many are rolled, each for what the face that it drew is worth. One more
of the largest dice, which a draft is allowed to have, is too many: if all show their highest face
the sum is above the greatest amount, where the total is not the sum any more, and the range of
totals stops. -/
theorem pools_exact :
    (∀ (text : String) (faces : List Nat) (flat : Int), (∀ face ∈ faces, face ≤ maxFace) →
      faces.length ≤ 2 ^ 31 → (Outcome.sum text faces flat).rolls = faces.map Int.ofNat ∧
        (Outcome.sum text faces flat).Exact) ∧
    (∀ (r : Roll) (sides lo hi : Nat), r.dice = .standard sides → sides ≤ maxFace →
      r.count ≤ 2 ^ 31 → r.modifiers.faceRange sides = (lo, hi) →
      let kept := r.modifiers.keptCount r.count
      (Amount.InRange (kept * lo) ∧ Amount.InRange (kept * hi)) ∧
        (r.modifiers.explode = false → r.modifiers.success = none →
          r.bareTotals? = some ((kept : Int) * lo, (kept : Int) * hi))) ∧
    (∀ r : Roll, r.dice = .fudge → r.count ≤ maxFace →
      ∀ (σ : Type) [DieSource σ] (s t : σ) (log : List Entry) (o : Outcome),
        r.roll.run s = ⟨some o, t, log⟩ →
        (drawn log).length = r.count ∧ o.rolls = (drawn log).map fudgeWorth ∧
        ((∀ e ∈ log, e.Fair) ∨ r.count ≤ 2 ^ 31 ∧ (∀ face ∈ drawn log, face ≤ maxFace) →
          o.Exact)) ∧
    (∀ d : Draft, d.dice = .standard maxFace → d.count = 2 ^ 31 + 1 → d.modifiers = {} →
      d.count ≤ d.maxDice → ∃ r o, d.build = .ok r ∧ r.CanCome o ∧
        o.rolls = List.replicate (2 ^ 31 + 1) (maxFace : Int) ∧
        Amount.greatest < o.rolls.sum ∧ o.total = o.rolls.sum - UInt64.size ∧
        r.bareTotals? = some (2 ^ 31 + 1, Amount.greatest)) := by
  refine ⟨?_, ?_, ?_, ?_⟩
  · intro text faces flat hfaces hlen
    exact ⟨rfl, Outcome.exact_sum hfaces hlen text flat⟩
  · intro r sides lo hi hdice hsides hcount hrange
    obtain ⟨hlo, hhi⟩ := Roll.inRange_kept_mul hsides hcount hrange
    refine ⟨⟨hlo, hhi⟩, ?_⟩
    intro hexplode hsuccess
    rw [Roll.bareTotals?_of_sum hdice hexplode hsuccess hrange, Amount.clamp_of_inRange hlo,
      Amount.clamp_of_inRange hhi]
  · intro r hdice hcount σ _ s t log o hrun
    obtain ⟨hlen, ho⟩ := Roll.fudge_of_run hdice hrun
    refine ⟨hlen, ?_, Roll.exact_of_fudge hdice hcount hrun⟩
    rw [ho]
    rfl
  · intro d hdice hcount hmodifiers hmax
    have haccepted : 1 ≤ d.count ∧ d.count ≤ d.maxDice ∧
        ∀ sides, d.dice = .standard sides → 2 ≤ sides := by
      refine ⟨by omega, hmax, ?_⟩
      intro sides hsides
      cases hdice.symm.trans hsides
      decide
    obtain ⟨o, hcome⟩ := Roll.oversized (r := ⟨_, d.count, d.dice, d.flat, d.modifiers⟩) hdice
      hcount hmodifiers
    exact ⟨_, o, Draft.build_eq_ok_iff.2 ⟨haccepted, rfl⟩, hcome⟩

/-- The most dice that are added up exactly, all of which show the highest face of all; the range of
as many of the largest dice; three Fudge dice; and the largest dice that are one too many. -/
theorem pools_exact_widest :
    let faces := List.replicate (2 ^ 31) maxFace
    let r : Roll := ⟨"", 2 ^ 31, .standard maxFace, 0, {}⟩
    let f : Roll := ⟨"3dF", 3, .fudge, 0, {}⟩
    let o := Outcome.fudge "3dF" [1, -1, 1] 0
    let log : List Entry := [.drew 3 3, .drew 3 1, .drew 3 3]
    let d : Draft := ⟨.standard maxFace, 2 ^ 31 + 1, 0, {}, maxFace⟩
    (Outcome.sum "" faces 0).Exact ∧ (Outcome.sum "" faces 0).total = (faces.map Int.ofNat).sum ∧
    r.bareTotals? = some (2 ^ 31, 2 ^ 31 * (maxFace : Int)) ∧
    (f.roll.run (⟨[3, 1, 3]⟩ : Script) = ⟨some o, ⟨[]⟩, log⟩ ∧ o.Exact ∧
      o.total = ((drawn log).map fudgeWorth).sum) ∧
    ∃ r o, d.build = .ok r ∧ r.CanCome o ∧ o.total ≠ o.rolls.sum := by
  intro faces r f o log d
  obtain ⟨hsum, hrange, hfudge, hlimit⟩ := pools_exact
  have hfaces : ∀ face ∈ faces, face ≤ maxFace := by
    intro face hface
    exact Nat.le_of_eq (List.eq_of_mem_replicate hface)
  have hends : r.modifiers.faceRange maxFace = (1, maxFace) := by decide
  have hkept : r.modifiers.keptCount r.count = 2 ^ 31 := by decide
  have hbare : r.bareTotals? = some (2 ^ 31, 2 ^ 31 * (maxFace : Int)) := by
    rw [(hrange r maxFace 1 maxFace rfl (Nat.le_refl _) (Nat.le_refl _) hends).2 rfl rfl, hkept]
    decide
  have hrun : f.roll.run (⟨[3, 1, 3]⟩ : Script) = ⟨some o, ⟨[]⟩, log⟩ := rfl
  have hfair : ∀ e ∈ log, e.Fair := by decide
  obtain ⟨r', o', hbuild, hcome, -, -, htotal, -⟩ := hlimit d rfl rfl rfl (by decide)
  obtain ⟨hfaces', hsum⟩ := hsum "" faces 0 hfaces (Nat.le_of_eq List.length_replicate)
  obtain ⟨-, hrolls, hfudge⟩ := hfudge f rfl (by decide) Script _ _ _ _ hrun
  have hexact := hfudge (.inl hfair)
  refine ⟨hsum, hfaces' ▸ hsum.total, hbare, ⟨hrun, hexact, hrolls ▸ hexact.total⟩, r', o', hbuild,
    hcome, ?_⟩
  rw [htotal]
  unfold UInt64.size
  omega

end Tabletop
