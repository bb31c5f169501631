import Tabletop.Proofs.Evaluation.Narration
import Tabletop.Proofs.Notation.Canonical
import Tabletop.Proofs.Widths

/-!
# Outcomes are within their widths

Whatever is evaluated, all numbers of the outcome are within their widths, as long as the draws are
fair and there are not more dice than the greatest amount (`Outcome.fits_of_evaluate`). A text can
ask for no flat amount outside its width, sums are brought back into it, and successes are counted
among the dice.
-/

namespace Tabletop

/-- Faces and the amounts that Fudge dice are worth are within the width of an amount. -/
theorem Amount.inRange_of_le_maxFace {n : Int} (hlo : -1 ≤ n) (hhi : n ≤ maxFace) : InRange n := by
  unfold maxFace UInt32.size at hhi
  unfold InRange least greatest
  omega

/-- What has the size of an amount is one, whatever its sign. -/
theorem Amount.inRange_of_natAbs_le {n : Int} (h : (n.natAbs : Int) ≤ greatest) : InRange n := by
  unfold greatest at h
  unfold InRange least greatest
  omega

/-- The greatest amount is within the width of a count. -/
theorem Amount.le_maxCount {n : Nat} (h : (n : Int) ≤ greatest) : n ≤ maxCount := by
  unfold greatest at h
  unfold maxCount UInt64.size
  omega

/-- Faces within their width score an outcome within its widths. Successes are no more than dice. -/
theorem Roll.fits_score {r : Roll} {settled : List Nat} (hflat : Amount.InRange r.flat)
    (hfaces : ∀ face ∈ settled, face ≤ maxFace)
    (hrolled : (settled.length : Int) ≤ Amount.greatest) : (r.score settled).Fits := by
  have hrange : Amount.InRange (r.score settled).total ∧
      ∀ count ∈ (r.score settled).successCount, Amount.InRange count := by
    cases hsuccess : r.modifiers.success with
    | some rule =>
      obtain ⟨count, htotal, hcount, hle⟩ := exists_tally_score hsuccess settled
      have hle : (count : Int) ≤ settled.length := Int.ofNat_le.2 hle
      have hin : Amount.InRange count := by
        unfold Amount.InRange Amount.least
        omega
      rw [htotal, hcount]
      exact ⟨hin, fun _ h => Option.some.inj h ▸ hin⟩
    | none =>
      rw [score_of_sum hsuccess]
      exact ⟨Amount.inRange_wrap _, nofun⟩
  have hrolls : ∀ face ∈ (r.score settled).rolls, Amount.InRange face := by
    rw [rolls_score, List.forall_mem_map]
    intro face hface
    have hle := hfaces face (Modifiers.mem_of_mem_select hface)
    exact Amount.inRange_of_le_maxFace (Int.le_trans (by decide) (Int.natCast_nonneg face))
      (Int.ofNat_le.2 hle)
  exact {
    rolls := hrolls
    total := hrange.1
    flat := by rwa [flat_score]
    modifiedTotal := by
      rw [modifiedTotal_score]
      exact Amount.inRange_clamp _
    successCount := hrange.2
    diceRolled := Amount.le_maxCount hrolled }

/-- The outcome of Fudge dice on faces of their own is within its widths. -/
theorem Outcome.fits_fudge {faces : List Nat} {text : String} {flat : Int}
    (hflat : Amount.InRange flat) (hfaces : ∀ face ∈ faces, 1 ≤ face ∧ face ≤ 3)
    (hrolled : (faces.length : Int) ≤ Amount.greatest) :
    (Outcome.fudge text (faces.map fudgeWorth) flat).Fits where
  rolls := by
    refine List.forall_mem_map.2 fun face hface => ?_
    have hface := hfaces face hface
    unfold fudgeWorth
    exact Amount.inRange_of_le_maxFace (by omega) (by unfold maxFace UInt32.size; omega)
  total := Amount.inRange_wrap _
  flat := hflat
  modifiedTotal := Amount.inRange_clamp _
  successCount := nofun
  diceRolled := by
    show (faces.map fudgeWorth).length ≤ maxCount
    rw [List.length_map]
    exact Amount.le_maxCount hrolled

/-- The outcome of an evaluation is within its widths, if the draws are fair and there are not more
dice than the greatest amount. -/
theorem Outcome.fits_of_evaluate {σ : Type} [DieSource σ] {s t : σ} {log : List Entry}
    {input : String} {settings : Settings} {o : Outcome}
    (hrun : (evaluate input settings).run s = ⟨some (.ok o), t, log⟩)
    (hfair : ∀ e ∈ log, e.Fair) (hrolled : (o.diceRolled : Int) ≤ Amount.greatest) : o.Fits := by
  obtain ⟨n, r, l, hn, hr, hroll, rfl⟩ := exists_of_evaluateWith hrun
  have hfair' : ∀ e ∈ l, e.Fair := fun e he => hfair e (by simp [he])
  have hexpressible := Notation.expressible_of_parse hn
  obtain ⟨-, rfl⟩ := Roll.ofNotation_eq_ok_iff.1 hr
  have hflat : Amount.InRange n.flat := Amount.inRange_of_natAbs_le hexpressible.flat
  cases hdice : n.dice with
  | standard sides =>
    obtain ⟨settled, hsettles, rfl⟩ := Roll.exists_of_roll_standard hdice hroll
    have hsides : sides ≤ maxFace := by
      have hfits := hexpressible.dice
      rwa [hdice] at hfits
    refine Roll.fits_score hflat (fun face hface => ?_) hrolled
    exact Nat.le_trans (hsettles.mayStay hfair' face hface).1.2 hsides
  | fudge =>
    obtain ⟨faces, -, hfaces, rfl⟩ :=
      Roll.CanCome.exists_fudge ⟨σ, inferInstance, s, t, l, hroll, hfair'⟩ hdice
    refine fits_fudge hflat hfaces ?_
    have hlen : (Outcome.fudge n.text (faces.map fudgeWorth) n.flat).diceRolled =
        faces.length := List.length_map _
    rwa [hlen] at hrolled

end Tabletop
