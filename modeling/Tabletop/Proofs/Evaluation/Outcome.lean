import Mathlib.Algebra.Order.Ring.Int
import Tabletop.Evaluation
import Tabletop.Proofs.Notation.Grammar
import Tabletop.Proofs.Roll.Score
import Tabletop.Proofs.Rolling.Settled
import Tabletop.Source.Script

/-!
# What an outcome says of the dice

An evaluation that gives an outcome has read a notation, checked it, rolled it and scored the faces
on which its dice ended. `evaluate_accounts` says of standard dice how each part of the outcome
follows from the notation and these faces (`Outcome.Accounts`).
-/

namespace Tabletop

/-- An evaluation that gives an outcome has read, checked and rolled a notation, in this order. -/
theorem exists_of_evaluateWith {σ : Type} [DieSource σ] {s t : σ} {log : List Entry}
    {reading : Reading} {input : String} {settings : Settings} {o : Outcome}
    (h : (evaluateWith reading input settings).run s = ⟨some (.ok o), t, log⟩) :
    ∃ n r l, Notation.parseWith reading input = .ok n ∧
      Roll.ofNotation n settings.maxDice = .ok r ∧ r.roll.run s = ⟨some o, t, l⟩ ∧
      log = n.events.map .event ++
        (l ++ [.event (.evaluated o.text o.rolls.length o.total o.modifiedTotal)]) := by
  unfold evaluateWith at h
  split at h
  · obtain ⟨⟨⟩, -⟩ := Roller.run_pure_eq_some_iff.1 h
  · next n hn =>
    obtain ⟨_, _, _, _, hreports, hrest, rfl⟩ := Roller.run_bind_eq_some_iff.1 h
    obtain ⟨rfl, rfl⟩ := Roller.run_reports_eq_some_iff.1 hreports
    split at hrest
    · obtain ⟨⟨⟩, -⟩ := Roller.run_pure_eq_some_iff.1 hrest
    · next r hr =>
      obtain ⟨o', u, l, _, hroll, hend, rfl⟩ := Roller.run_bind_eq_some_iff.1 hrest
      obtain ⟨_, _, _, _, hreport, hpure, rfl⟩ := Roller.run_bind_eq_some_iff.1 hend
      obtain ⟨rfl, rfl⟩ := Roller.run_report_eq_some_iff.1 hreport
      obtain ⟨⟨⟩, rfl, rfl⟩ := Roller.run_pure_eq_some_iff.1 hpure
      exact ⟨n, r, l, hn, hr, hroll, by rw [List.append_nil]⟩

/-- What the outcome of standard dice says of the faces on which they ended. -/
structure Outcome.Accounts (o : Outcome) (n : Notation) (sides : Nat) (settled : List Nat) :
    Prop where
  /-- The dice that count are in ascending order. -/
  ascending : o.rolls.Pairwise (· ≤ ·)
  /-- The dice that count are some of those that were rolled. -/
  chosen : ∃ dropped, (settled.map Int.ofNat).Perm (o.rolls ++ dropped)
  /-- Dice end on faces that the modifiers let them end on. -/
  range : ∀ face ∈ settled,
    (n.modifiers.faceRange sides).1 ≤ face ∧ face ≤ (n.modifiers.faceRange sides).2
  /-- All dice rolled are counted, those of the explosion included. -/
  rolled : o.diceRolled = settled.length
  /-- An explosion adds a die for each highest face, those on dice of the explosion included. -/
  exploded : o.diceRolled =
    if n.modifiers.explode = true ∧ n.modifiers.forcesMaxFace sides = false then
      n.count + settled.count sides else n.count
  /-- As many dice count as the keep and drop counts leave of all that were rolled. -/
  kept : o.rolls.length = n.modifiers.keptCount o.diceRolled
  /-- With a success rule the dice that match it are counted. -/
  counted : ∀ rule, n.modifiers.success = some rule →
    o.total = o.rolls.countP (fun face => rule.holds face.toNat) ∧ o.successCount = some o.total
  /-- Without one the dice are added up. -/
  summed : n.modifiers.success = none →
    (o.rolls.length ≤ 2 ^ 31 → o.total = o.rolls.sum) ∧ o.successCount = none
  /-- The flat amount is that of the notation. -/
  flat : o.flat = n.flat
  /-- The dice are no Fudge dice. -/
  standard : o.isFudge = false

/-- The outcome of standard dice accounts for the faces on which they ended. -/
theorem Roll.accounts_score {n : Notation} {r : Roll} {sides : Nat} {settled : List Nat}
    {log : List Entry} (hr : r = ⟨n.text, n.count, n.dice, n.flat, n.modifiers⟩)
    (hsides : 2 ≤ sides ∧ sides ≤ maxFace) (hs : SettlesAll r sides settled log)
    (hfair : ∀ e ∈ log, e.Fair) : (r.score settled).Accounts n sides settled := by
  subst hr
  have hstay := hs.mayStay hfair
  have hmax : ∀ face ∈ settled, face ≤ maxFace :=
    fun face hface => Nat.le_trans (hstay face hface).1.2 hsides.2
  exact {
    ascending := Roll.pairwise_rolls_score
    chosen := Roll.exists_perm_rolls_score
    range := fun face hface =>
      (Modifiers.mem_faceRange_iff (Nat.le_of_succ_le hsides.1)).2 (hstay face hface)
    rolled := rfl
    exploded := hs.length_eq hsides.1
    kept := Roll.length_rolls_score
    counted := fun rule hrule => Roll.total_score_of_success hrule
    summed := fun hnone =>
      ⟨Roll.total_score_of_sum hnone hmax, Roll.successCount_score_of_sum hnone⟩
    flat := Roll.flat_score
    standard := Roll.isFudge_score }

/-- Whatever is evaluated on whatever source, if the dice are standard dice and their draws were
fair, the outcome accounts for the faces on which the dice ended, and it is reported under the
trimmed text. -/
theorem evaluate_accounts {σ : Type} [DieSource σ] {s t : σ} {log : List Entry} {input : String}
    {settings : Settings} {o : Outcome}
    (hrun : (evaluate input settings).run s = ⟨some (.ok o), t, log⟩)
    (hfair : ∀ e ∈ log, e.Fair) :
    ∃ n, Notation.parse input = .ok n ∧ ∀ sides, n.dice = .standard sides →
      o.Accounts n sides (settledFaces log) ∧
        o.text = String.ofList (Text.trim input.toList) := by
  obtain ⟨n, r, l, hn, hr, hroll, rfl⟩ := exists_of_evaluateWith hrun
  refine ⟨n, hn, fun sides hdice => ?_⟩
  obtain ⟨⟨-, -, hleast⟩, hr⟩ := Roll.ofNotation_eq_ok_iff.1 hr
  obtain ⟨lay, -, hadmissible, hvalue⟩ := Notation.parseWith_eq_ok_iff.1 hn
  have hsides : 2 ≤ sides ∧ sides ≤ maxFace := by
    refine ⟨hleast sides hdice, ?_⟩
    rw [hvalue] at hdice
    exact hadmissible.sides_le hdice
  have hrdice : r.dice = .standard sides := by rw [hr, ← hdice]
  obtain ⟨settled, hsettles, rfl⟩ := Roll.exists_of_roll_standard hrdice hroll
  rw [settledFaces_events, settledFaces_append rfl, hsettles.settledFaces_eq]
  simp only [settledFaces, List.append_nil]
  have hfair : ∀ e ∈ l, e.Fair := fun e he => hfair e (by simp [he])
  refine ⟨Roll.accounts_score hr hsides hsettles hfair, ?_⟩
  rw [Roll.text_score, hr, hvalue, Layout.value]

/-- Three dice with rerolls and an explosion: the second and the third are rolled again, the first
and the first die of the explosion show their highest face. -/
theorem evaluate_accounts_explosion :
    ∃ o t log, (evaluate " 3D6+2!r<2kh3 " {}).run (⟨[6, 1, 5, 2, 4, 6, 3, 1]⟩ : Script) =
      ⟨some (.ok o), t, log⟩ ∧ (∀ e ∈ log, e.Fair) ∧
        ∃ n, Notation.parse " 3D6+2!r<2kh3 " = .ok n ∧ n.dice = .standard 6 ∧
          o.Accounts n 6 [6, 5, 4, 6, 3] ∧ o.text = "3D6+2!r<2kh3" := by
  have hfair : ∀ e ∈ ((evaluate " 3D6+2!r<2kh3 " {}).run
      (⟨[6, 1, 5, 2, 4, 6, 3, 1]⟩ : Script)).log, e.Fair := by decide +kernel
  have hsettled : settledFaces ((evaluate " 3D6+2!r<2kh3 " {}).run
      (⟨[6, 1, 5, 2, 4, 6, 3, 1]⟩ : Script)).log = [6, 5, 4, 6, 3] := by decide +kernel
  obtain ⟨o, hrun⟩ : ∃ o, (evaluate " 3D6+2!r<2kh3 " {}).run
      (⟨[6, 1, 5, 2, 4, 6, 3, 1]⟩ : Script) = ⟨some (.ok o), _, _⟩ :=
    Run.exists_ok (by decide +kernel)
  obtain ⟨n, hn, haccounts⟩ := evaluate_accounts hrun hfair
  have hdice : n.dice = .standard 6 := by
    have hn' : (Notation.parse " 3D6+2!r<2kh3 ").toOption.map Notation.dice =
        some (.standard 6) := by decide +kernel
    rw [hn] at hn'
    exact Option.some.inj hn'
  obtain ⟨ha, htext⟩ := haccounts 6 hdice
  rw [hsettled] at ha
  exact ⟨o, _, _, hrun, hfair, n, hn, hdice, ha, htext.trans (by decide +kernel)⟩

end Tabletop
