import Tabletop.Proofs.Evaluation.Arithmetic
import Tabletop.Proofs.Narration.Listing

/-!
# A narration identifies its outcome

Two evaluations of a text that are told in the same words have come to the same: the same total, the
same number of successes, and the same dice, unless these were too many to be listed
(`evaluateAloud_identifies`). The listed dice are known by their words, and everything else follows
from them and from the roll. Where the dice are summarised, the words say what they came to.
-/

namespace Tabletop

open Narration (dice verdict dice_append_inj tally_append_inj total_append_inj
  signs_append_inj)

/-- The dice are too many to be listed. Fudge dice always are listed. -/
def Outcome.Summarised (o : Outcome) (limit : Nat) : Prop :=
  o.isFudge = false ∧ limit < o.rolls.length

namespace Narration

variable {o : Outcome} {limit : Nat}

/-- What stands in front of the dice. -/
def opening (o : Outcome) : String := "Rolled " ++ o.text ++ ": "

/-- What stands behind the first line. -/
def closing (o : Outcome) : String := if o.flat = 0 then "" else "\n" ++ arithmetic o

/-- The narration of standard dice is made of four parts. -/
theorem narrate_of_standard (h : o.isFudge = false) :
    narrate o limit = opening o ++ (dice limit o.rolls ++ (verdict o limit ++ closing o)) := by
  unfold narrate headline opening closing
  rw [h]
  simp [String.append_assoc]

/-- The narration of Fudge dice lists them all and gives their total. -/
theorem narrate_of_fudge (h : o.isFudge = true) : narrate o limit =
    opening o ++ (", ".intercalate (o.rolls.map sign) ++
      (", for a total of " ++ toString o.total ++ "." ++ closing o)) := by
  unfold narrate headline opening closing
  rw [h]
  simp [String.append_assoc]

/-- With a success rule the verdict is the tally of successes. -/
theorem verdict_of_success {count : Int} (h : o.successCount = some count) :
    verdict o limit = tally o.diceRolled count := by
  unfold verdict
  rw [h]
  rfl

/-- Where there are too many dice to be listed, the verdict gives their total. -/
theorem verdict_of_many (h : o.successCount = none) (hmany : limit < o.rolls.length) :
    verdict o limit = ", for a total of " ++ toString o.total ++ "." := by
  unfold verdict
  rw [h]
  exact if_neg fun hone => Nat.not_le.2 hmany hone.2

/-- What the dice came to does not look like another number of the list. -/
theorem ends_verdict (o : Outcome) (limit : Nat) (rest : List Char) :
    Ends ((verdict o limit).toList ++ rest) := by
  unfold verdict
  split
  · split
    · split
      · exact .comma (by decide)
      · exact .comma (by decide)
    · simp only [String.toList_append, List.append_assoc]
      exact .comma (by decide)
  · split
    · exact .stop
    · simp only [String.toList_append, List.append_assoc]
      exact .comma (by decide)

end Narration

/-! ## Standard dice -/

namespace Roll

variable {r : Roll} {settled settled' : List Nat} {limit : Nat} {rule : Threshold}

/-- The dice that count are all that the rest of a score looks at, but for the number of dice. -/
theorem score_congr (h : r.modifiers.select settled = r.modifiers.select settled') :
    (r.score settled).total = (r.score settled').total ∧
      (r.score settled).successCount = (r.score settled').successCount := by
  unfold score
  rw [h]
  cases r.modifiers.success <;> exact ⟨rfl, rfl⟩

/-- Successes are counted among the dice that count, so there are no more than dice. -/
theorem exists_tally_score (h : r.modifiers.success = some rule) (settled : List Nat) :
    ∃ count : Nat,
    (r.score settled).total = count ∧ (r.score settled).successCount = some (count : Int) ∧
      count ≤ (r.score settled).diceRolled := by
  refine ⟨(r.modifiers.select settled).countP rule.holds, ?_, ?_, ?_⟩
  · rw [score_of_success h]
    rfl
  · rw [score_of_success h]
    rfl
  · calc (r.modifiers.select settled).countP rule.holds
      _ ≤ (r.modifiers.select settled).length := List.countP_le_length
      _ = r.modifiers.keptCount settled.length := Modifiers.length_select
      _ ≤ settled.length := Modifiers.keptCount_le

/-- What is said of dice that are not listed tells their total and their successes. -/
theorem score_of_verdict {v v' : List Char} (hmany : limit < (r.score settled).rolls.length)
    (hmany' : limit < (r.score settled').rolls.length)
    (h : (verdict (r.score settled) limit).toList ++ v =
      (verdict (r.score settled') limit).toList ++ v') :
    (r.score settled).total = (r.score settled').total ∧
      (r.score settled).successCount = (r.score settled').successCount := by
  cases hsuccess : r.modifiers.success with
  | some rule =>
    obtain ⟨count, htotal, hcount, hle⟩ := exists_tally_score hsuccess settled
    obtain ⟨count', htotal', hcount', hle'⟩ := exists_tally_score hsuccess settled'
    rw [Narration.verdict_of_success hcount, Narration.verdict_of_success hcount'] at h
    rw [htotal, htotal', hcount, hcount', tally_append_inj hle hle' h]
    exact ⟨rfl, rfl⟩
  | none =>
    have hcount : (r.score settled).successCount = none := successCount_score_of_sum hsuccess
    have hcount' : (r.score settled').successCount = none := successCount_score_of_sum hsuccess
    rw [Narration.verdict_of_many hcount hmany, Narration.verdict_of_many hcount' hmany'] at h
    simp only [String.toList_append, List.append_assoc, List.append_cancel_left_eq] at h
    refine ⟨total_append_inj ?_ ?_ h, hcount.trans hcount'.symm⟩
    · exact Text.noDigit_cons.2 (by decide)
    · exact Text.noDigit_cons.2 (by decide)

/-- A score is summarised exactly if more of its dice count than are listed. -/
theorem summarised_score_iff :
    (r.score settled).Summarised limit ↔ limit < (r.score settled).rolls.length := by
  unfold Outcome.Summarised
  rw [isFudge_score]
  exact and_iff_right rfl

/-- Scores of a roll that are told in the same words agree. -/
theorem score_of_narrate (h : narrate (r.score settled) limit = narrate (r.score settled') limit) :
    (r.score settled).total = (r.score settled').total ∧
    (r.score settled).successCount = (r.score settled').successCount ∧
    ((r.score settled).Summarised limit ↔ (r.score settled').Summarised limit) ∧
    (¬ (r.score settled).Summarised limit →
      (r.score settled).rolls = (r.score settled').rolls) := by
  have hopening : Narration.opening (r.score settled) = Narration.opening (r.score settled') := by
    rw [Narration.opening, Narration.opening, text_score, text_score]
  rw [Narration.narrate_of_standard isFudge_score, Narration.narrate_of_standard isFudge_score,
    hopening] at h
  have h := congrArg String.toList h
  simp only [String.toList_append, List.append_cancel_left_eq] at h
  rw [rolls_score, rolls_score] at h
  obtain ⟨hmany, hlisted, hverdict⟩ :=
    dice_append_inj (Narration.ends_verdict ..) (Narration.ends_verdict ..) h
  rw [summarised_score_iff, summarised_score_iff]
  rw [← List.length_map Int.ofNat, ← rolls_score, ← List.length_map Int.ofNat, ← rolls_score]
    at hmany
  by_cases hlong : limit < (r.score settled).rolls.length
  · obtain ⟨htotal, hcount⟩ := score_of_verdict hlong (hmany.1 hlong) hverdict
    exact ⟨htotal, hcount, hmany, fun hfew => absurd hlong hfew⟩
  · -- The dice are listed, and the rest follows from them.
    have hsame : r.modifiers.select settled = r.modifiers.select settled' :=
      hlisted (by rwa [rolls_score, List.length_map] at hlong)
    obtain ⟨htotal, hcount⟩ := score_congr hsame
    exact ⟨htotal, hcount, hmany, fun _ => by rw [rolls_score, rolls_score, hsame]⟩

end Roll

/-! ## Fudge dice -/

/-- As many Fudge dice that are told in the same words have shown the same faces. -/
theorem Narration.fudge_of_narrate {text : String} {faces faces' : List Nat} {flat : Int}
    {limit : Nat} (hlen : faces.length = faces'.length)
    (hfaces : ∀ face ∈ faces, 1 ≤ face ∧ face ≤ 3) (hfaces' : ∀ face ∈ faces', 1 ≤ face ∧ face ≤ 3)
    (h : narrate (Outcome.fudge text (faces.map fudgeWorth) flat) limit =
      narrate (Outcome.fudge text (faces'.map fudgeWorth) flat) limit) : faces = faces' := by
  have hopening : opening (Outcome.fudge text (faces.map fudgeWorth) flat) =
      opening (Outcome.fudge text (faces'.map fudgeWorth) flat) := rfl
  rw [narrate_of_fudge rfl, narrate_of_fudge rfl, hopening] at h
  have h := congrArg String.toList h
  simp only [String.toList_append, List.append_cancel_left_eq] at h
  exact signs_append_inj hlen hfaces hfaces' h

/-! ## Evaluations -/

/-- What is told of a pool of a single die, with the word for its success or its failure. -/
def Outcome.told (o : Outcome) (limit : Nat) (words : String) : String :=
  Narration.opening o ++ (dice limit o.rolls ++ (", " ++ words ++ Narration.closing o))

/-- A pool of a single die is told alike only with the same words. -/
theorem Outcome.told_inj {o : Outcome} {limit : Nat} {words words' : String} :
    o.told limit words = o.told limit words' ↔ words = words' := by
  unfold told
  simp only [← String.toList_inj, String.toList_append, List.append_cancel_left_eq,
    List.append_cancel_right_eq]

/-- A pool of a single die has one success or none, and is told accordingly. -/
theorem Roll.narrate_single {r : Roll} {settled : List Nat} {limit : Nat} {count : Int}
    (hcount : (r.score settled).successCount = some count)
    (hsingle : (r.score settled).diceRolled = 1) :
    let o := r.score settled
    (count = 0 ∨ count = 1) ∧
      (narrate o limit = o.told limit "a success!" ↔ count = 1) ∧
      (narrate o limit = o.told limit "no success." ↔ count = 0) := by
  intro o
  cases hsuccess : r.modifiers.success with
  | none =>
    rw [successCount_score_of_sum hsuccess] at hcount
    cases hcount
  | some rule =>
    obtain ⟨n, -, hn, hle⟩ := exists_tally_score hsuccess settled
    cases hn.symm.trans hcount
    have htold : narrate o limit =
        o.told limit (if n = 1 then "a success!" else "no success.") := by
      rw [Narration.narrate_of_standard isFudge_score, Narration.verdict_of_success hn, hsingle,
        Narration.tally, if_pos rfl, Outcome.told]
      simp only [Nat.cast_eq_one]
      split <;> rfl
    rw [htold, Outcome.told_inj, Outcome.told_inj]
    obtain rfl | rfl : n = 0 ∨ n = 1 := by omega
    all_goals decide

/-- Whatever text is evaluated twice, on whatever sources, with fair draws: if both outcomes are told
in the same words, they agree in their totals and their successes, and in their dice too, unless
these are too many to be listed. A single die that is scored by successes is told to be one exactly
if it is one. -/
theorem evaluateAloud_identifies {σ σ' : Type} [DieSource σ] [DieSource σ'] {s t : σ} {s' t' : σ'}
    {log log' : List Entry} {input words : String} {settings : Settings} {o o' : Outcome}
    (hrun : (evaluateAloud input settings).run s = ⟨some (.ok (o, words)), t, log⟩)
    (hrun' : (evaluateAloud input settings).run s' = ⟨some (.ok (o', words)), t', log'⟩)
    (hfair : ∀ e ∈ log, e.Fair) (hfair' : ∀ e ∈ log', e.Fair) :
    o.total = o'.total ∧ o.modifiedTotal = o'.modifiedTotal ∧ o.successCount = o'.successCount ∧
    (o.Summarised settings.showIndividual ↔ o'.Summarised settings.showIndividual) ∧
    (¬ o.Summarised settings.showIndividual → o.rolls = o'.rolls) ∧
    ∀ count, o.successCount = some count → o.diceRolled = 1 →
      (count = 0 ∨ count = 1) ∧
      (words = o.told settings.showIndividual "a success!" ↔ count = 1) ∧
      (words = o.told settings.showIndividual "no success." ↔ count = 0) := by
  obtain ⟨heval, rfl⟩ := exists_of_evaluateAloud hrun
  obtain ⟨heval', hwords⟩ := exists_of_evaluateAloud hrun'
  obtain ⟨n, r, l, hn, hr, hroll, rfl⟩ := exists_of_evaluateWith heval
  obtain ⟨n', r', l', hn', hr', hroll', rfl⟩ := exists_of_evaluateWith heval'
  cases hn.symm.trans hn'
  cases hr.symm.trans hr'
  have hfair : ∀ e ∈ l, e.Fair := fun e he => hfair e (by simp [he])
  have hfair' : ∀ e ∈ l', e.Fair := fun e he => hfair' e (by simp [he])
  have hmodified : o.total = o'.total → o.modifiedTotal = o'.modifiedTotal := fun htotal => by
    rw [(Roll.modifiedTotal_of_run hroll).2, (Roll.modifiedTotal_of_run hroll').2, htotal]
  cases hdice : r.dice with
  | standard sides =>
    obtain ⟨settled, -, rfl⟩ := Roll.exists_of_roll_standard hdice hroll
    obtain ⟨settled', -, rfl⟩ := Roll.exists_of_roll_standard hdice hroll'
    obtain ⟨htotal, hcount, hsummarised, hrolls⟩ := Roll.score_of_narrate hwords
    exact ⟨htotal, hmodified htotal, hcount, hsummarised, hrolls,
      fun count hc hsingle => Roll.narrate_single hc hsingle⟩
  | fudge =>
    obtain ⟨faces, hlen, hfaces, rfl⟩ :=
      Roll.CanCome.exists_fudge ⟨σ, inferInstance, s, t, l, hroll, hfair⟩ hdice
    obtain ⟨faces', hlen', hfaces', rfl⟩ :=
      Roll.CanCome.exists_fudge ⟨σ', inferInstance, s', t', l', hroll', hfair'⟩ hdice
    cases Narration.fudge_of_narrate (hlen.trans hlen'.symm) hfaces hfaces' hwords
    exact ⟨rfl, rfl, rfl, Iff.rfl, fun _ => rfl, nofun⟩

/-- Two rolls of a die that is not listed, one of them with a reroll: told in the same words, they
have different dice and one success each. -/
theorem evaluateAloud_identifies_unlisted :
    let settings : Settings := ⟨100, 0⟩
    let words := "Rolled 1d6+2ro<3>4: a whole bunch of dice, a success!\n1 + 2 = 3"
    ∃ o o' t t' log log',
      (evaluateAloud "1d6+2ro<3>4" settings).run (⟨[2, 5]⟩ : Script) =
        ⟨some (.ok (o, words)), t, log⟩ ∧
      (evaluateAloud "1d6+2ro<3>4" settings).run (⟨[6]⟩ : Script) =
        ⟨some (.ok (o', words)), t', log'⟩ ∧
      (∀ e ∈ log, e.Fair) ∧ (∀ e ∈ log', e.Fair) ∧ o.rolls = [5] ∧ o'.rolls = [6] ∧
      o.total = o'.total ∧ o.modifiedTotal = o'.modifiedTotal ∧ o.successCount = o'.successCount ∧
      (words = o.told 0 "a success!" ↔ (1 : Int) = 1) := by
  intro settings words
  let run := (evaluateAloud "1d6+2ro<3>4" settings).run (⟨[2, 5]⟩ : Script)
  let run' := (evaluateAloud "1d6+2ro<3>4" settings).run (⟨[6]⟩ : Script)
  let o : Outcome := ⟨[5], 1, 2, 3, "1d6+2ro<3>4", false, some 1, 1⟩
  have hrun : run = ⟨some (.ok (o, words)), run.rest, run.log⟩ :=
    Run.eq_of_toOption (by decide +kernel)
  have hrun' : run' = ⟨some (.ok ({ o with rolls := [6] }, words)), run'.rest, run'.log⟩ :=
    Run.eq_of_toOption (by decide +kernel)
  have hfair : ∀ e ∈ run.log, e.Fair := by decide +kernel
  have hfair' : ∀ e ∈ run'.log, e.Fair := by decide +kernel
  obtain ⟨htotal, hmodified, hcount, -, -, htold⟩ :=
    evaluateAloud_identifies hrun hrun' hfair hfair'
  exact ⟨_, _, _, _, _, _, hrun, hrun', hfair, hfair', rfl, rfl, htotal, hmodified, hcount,
    (htold 1 rfl rfl).2.1⟩

end Tabletop
