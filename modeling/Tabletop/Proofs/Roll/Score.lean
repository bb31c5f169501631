import Mathlib.Algebra.Order.BigOperators.Group.List
import Mathlib.Algebra.Order.Ring.Int
import Tabletop.Proofs.Modifiers.Selection
import Tabletop.Proofs.Rolling.Course

/-!
# Rolling and scoring

A draft or a notation becomes a roll exactly if its dice can be rolled (`Draft.build_eq_ok_iff`,
`Roll.ofNotation_eq_ok_iff`). The outcome of standard dice is the score of the faces on which they
end, and each part of it follows from these faces and the modifiers.

Dice are added up one after the other within the width of an amount, and an addition that leaves it
goes around. All that went around is brought back once in `Outcome.addUp`
(`Outcome.addUp_eq_foldl`). With dice between two bounds the partial sums lie between multiples of
these, of which the one for all dice is the farthest (`inRange_sum_take`), so `2 ^ 31` dice never
leave the width on the way and have their sum for a total (`Outcome.exact_sum`).
-/

namespace Tabletop

/-- A draft becomes a roll exactly if it asks for some dice, no more than allowed, and for sides
that a die can have. The roll takes over its parts and is reported under its canonical notation. -/
theorem Draft.build_eq_ok_iff {d : Draft} {r : Roll} :
    d.build = .ok r ↔
      (1 ≤ d.count ∧ d.count ≤ d.maxDice ∧ ∀ sides, d.dice = .standard sides → 2 ≤ sides) ∧
        r = ⟨(⟨"", d.count, d.dice, d.flat, d.modifiers⟩ : Roll).render, d.count, d.dice, d.flat,
          d.modifiers⟩ := by
  unfold build
  dsimp only
  split
  · next hmax => exact ⟨nofun, fun h => absurd h.1.2.1 (Nat.not_le.2 hmax)⟩
  · next hmax =>
    split
    · next hzero => exact ⟨nofun, fun h => absurd h.1.1 (by omega)⟩
    · next hzero =>
      have hcount : 1 ≤ d.count ∧ d.count ≤ d.maxDice := by omega
      cases d.dice with
      | fudge => simp [hcount, eq_comm (a := r)]
      | standard sides =>
        dsimp only
        split
        · next hsides => exact ⟨nofun, fun h => absurd (h.1.2.2 sides rfl) (Nat.not_le.2 hsides)⟩
        · next hsides => simp [hcount, Nat.not_lt.1 hsides, eq_comm (a := r)]

/-- A notation is accepted exactly if it asks for some dice, no more than allowed, and for sides
that a die can have. The roll takes over its parts. -/
theorem Roll.ofNotation_eq_ok_iff {n : Notation} {maxDice : Nat} {r : Roll} :
    Roll.ofNotation n maxDice = .ok r ↔
      (1 ≤ n.count ∧ n.count ≤ maxDice ∧ ∀ sides, n.dice = .standard sides → 2 ≤ sides) ∧
        r = ⟨n.text, n.count, n.dice, n.flat, n.modifiers⟩ := by
  unfold ofNotation
  cases hbuild : Draft.build ⟨n.dice, n.count, n.flat, n.modifiers, maxDice⟩ with
  | error e =>
    refine ⟨nofun, fun h => ?_⟩
    rw [Draft.build_eq_ok_iff.2 ⟨h.1, rfl⟩] at hbuild
    cases hbuild
  | ok b =>
    obtain ⟨haccept, rfl⟩ := Draft.build_eq_ok_iff.1 hbuild
    simp only [Except.map, Except.ok.injEq, eq_comm (a := r)]
    exact ⟨fun h => ⟨haccept, h⟩, And.right⟩

/-- A roll of standard dice scores the faces on which they end. -/
theorem Roll.exists_run_settleAll {σ : Type} [DieSource σ] {s t : σ} {log : List Entry}
    {r : Roll} {sides : Nat} {o : Outcome} (hdice : r.dice = .standard sides)
    (h : r.roll.run s = ⟨some o, t, log⟩) :
    ∃ settled, (r.settleAll sides).run s = ⟨some settled, t, log⟩ ∧ o = r.score settled := by
  unfold roll at h
  rw [hdice] at h
  obtain ⟨settled, u, l, _, hsettle, hpure, rfl⟩ := Roller.run_bind_eq_some_iff.1 h
  obtain ⟨rfl, rfl, rfl⟩ := Roller.run_pure_eq_some_iff.1 hpure
  rw [List.append_nil]
  exact ⟨settled, hsettle, rfl⟩

/-- What standard dice end on comes of a course that they go. -/
theorem Roll.exists_of_roll_standard {σ : Type} [DieSource σ] {s t : σ} {log : List Entry}
    {r : Roll} {sides : Nat} {o : Outcome} (hdice : r.dice = .standard sides)
    (h : r.roll.run s = ⟨some o, t, log⟩) :
    ∃ settled, SettlesAll r sides settled log ∧ o = r.score settled := by
  obtain ⟨settled, hsettle, rfl⟩ := exists_run_settleAll hdice h
  exact ⟨settled, settlesAll_of_run hsettle, rfl⟩

/-! ## Totals -/

/-- Additions that go around one by one come to what the sum does that goes around once. -/
theorem Amount.foldl_wrap (rolls : List Int) (start : Int) :
    rolls.foldl (fun n roll => wrap (n + roll)) (wrap start) = wrap (start + rolls.sum) := by
  induction rolls generalizing start with
  | nil => simp
  | cons roll rolls ih =>
    have hstep : wrap (wrap start + roll) = wrap (start + roll) := Int.bmod_add_bmod
    rw [List.foldl_cons, hstep, ih, List.sum_cons, Int.add_assoc]

/-- A total comes of adding one die after the other. -/
theorem Outcome.addUp_eq_foldl (rolls : List Int) :
    addUp rolls = rolls.foldl (fun n roll => Amount.wrap (n + roll)) 0 := by
  have hzero : Amount.wrap 0 = 0 := by decide
  have hfold := Amount.foldl_wrap rolls 0
  rw [hzero, Int.zero_add] at hfold
  exact hfold.symm

/-- A sum lies between so many times the least and so many times the greatest of what is summed. -/
theorem sum_map_between {f : Nat → Int} {a b : Int} {faces : List Nat}
    (h : ∀ face ∈ faces, a ≤ f face ∧ f face ≤ b) :
    faces.length * a ≤ (faces.map f).sum ∧ (faces.map f).sum ≤ faces.length * b := by
  have hlo := List.card_nsmul_le_sum (faces.map f) a
    (List.forall_mem_map.2 fun face hface => (h face hface).1)
  have hhi := List.sum_le_card_nsmul (faces.map f) b
    (List.forall_mem_map.2 fun face hface => (h face hface).2)
  rw [List.length_map, nsmul_eq_mul] at hlo hhi
  exact ⟨hlo, hhi⟩

/-- Between bounds on both sides of 0 no partial sum is farther from it than all dice can be. -/
theorem inRange_sum_take {f : Nat → Int} {a b : Int} {faces : List Nat}
    (hfaces : ∀ face ∈ faces, a ≤ f face ∧ f face ≤ b) (ha : a ≤ 0) (hb : 0 ≤ b)
    (hlo : Amount.least ≤ faces.length * a) (hhi : faces.length * b ≤ Amount.greatest) :
    ∀ i, Amount.InRange ((faces.map f).take i).sum := by
  intro i
  have htaken : ∀ face ∈ faces.take i, a ≤ f face ∧ f face ≤ b := by
    intro face hface
    exact hfaces face (List.mem_of_mem_take hface)
  obtain ⟨hleast, hgreatest⟩ := sum_map_between htaken
  have hlen : ((faces.take i).length : Int) ≤ faces.length :=
    Int.ofNat_le.2 (List.length_take_le' ..)
  have hlow := Int.mul_le_mul_of_nonpos_right hlen ha
  have hhigh := Int.mul_le_mul_of_nonneg_right hlen hb
  rw [← List.map_take]
  exact ⟨by omega, by omega⟩

/-- The total of an outcome is the sum of its dice, and adding them up never left the width of an
amount. -/
structure Outcome.Exact (o : Outcome) : Prop where
  /-- Every partial sum is within the width. -/
  within : ∀ i, Amount.InRange (o.rolls.take i).sum
  /-- The total comes of adding one die after the other. -/
  stepped : o.total = o.rolls.foldl (fun n roll => Amount.wrap (n + roll)) 0
  /-- The total is the sum. -/
  total : o.total = o.rolls.sum

/-- Dice that are added up have their sum for a total if no partial sum leaves the width. -/
theorem Outcome.exact_of_within {o : Outcome} (htotal : o.total = addUp o.rolls)
    (hwithin : ∀ i, Amount.InRange (o.rolls.take i).sum) : o.Exact where
  within := hwithin
  stepped := htotal.trans (addUp_eq_foldl o.rolls)
  total := by
    have hall := hwithin o.rolls.length
    rw [List.take_length] at hall
    exact htotal.trans (Amount.wrap_of_inRange hall)

/-- As many dice as `2 ^ 31` have their sum for a total, whatever they show. -/
theorem Outcome.exact_sum {faces : List Nat} (hfaces : ∀ face ∈ faces, face ≤ maxFace)
    (hlen : faces.length ≤ 2 ^ 31) (text : String) (flat : Int) :
    (Outcome.sum text faces flat).Exact := by
  refine exact_of_within rfl (inRange_sum_take (a := 0) (b := maxFace) ?_ ?_ ?_ ?_ ?_)
  · exact fun face hface => ⟨Int.natCast_nonneg face, Int.ofNat_le.2 (hfaces face hface)⟩
  · exact Int.le_refl 0
  · exact Int.natCast_nonneg maxFace
  · unfold Amount.least
    omega
  · unfold maxFace UInt32.size Amount.greatest
    omega

/-- The total of dice that are added up, if there are not too many of them. -/
theorem Outcome.total_sum {faces : List Nat} (hfaces : ∀ face ∈ faces, face ≤ maxFace)
    (hlen : faces.length ≤ 2 ^ 31) (text : String) (flat : Int) :
    (Outcome.sum text faces flat).total = (faces.map Int.ofNat).sum :=
  (exact_sum hfaces hlen text flat).total

/-! ## The parts of a score -/

namespace Roll

variable {r : Roll} {settled : List Nat} {rule : Threshold}

/-- With a success rule the dice that are selected are counted. -/
theorem score_of_success (h : r.modifiers.success = some rule) :
    r.score settled = (Outcome.successes r.text (r.modifiers.select settled) rule
      r.flat).withDiceRolled settled.length := by
  unfold score
  rw [h]

/-- Without a success rule the dice that are selected are added up. -/
theorem score_of_sum (h : r.modifiers.success = none) :
    r.score settled = (Outcome.sum r.text (r.modifiers.select settled)
      r.flat).withDiceRolled settled.length := by
  unfold score
  rw [h]

/-- The dice that count are those that are selected. -/
theorem rolls_score : (r.score settled).rolls = (r.modifiers.select settled).map Int.ofNat := by
  unfold score
  cases r.modifiers.success <;> rfl

/-- A score is reported under the text of the roll. -/
theorem text_score : (r.score settled).text = r.text := by
  unfold score
  cases r.modifiers.success <;> rfl

/-- A score has the flat amount of the roll. -/
theorem flat_score : (r.score settled).flat = r.flat := by
  unfold score
  cases r.modifiers.success <;> rfl

/-- A score adds the flat amount as far as the width of an amount goes. -/
theorem modifiedTotal_score :
    (r.score settled).modifiedTotal = Amount.clamp ((r.score settled).total + r.flat) := by
  unfold score
  cases r.modifiers.success <;> rfl

/-- A score is about standard dice. -/
theorem isFudge_score : (r.score settled).isFudge = false := by
  unfold score
  cases r.modifiers.success <;> rfl

/-- The dice that count are in ascending order. -/
theorem pairwise_rolls_score : (r.score settled).rolls.Pairwise (· ≤ ·) := by
  rw [rolls_score, List.pairwise_map]
  exact Modifiers.pairwise_select.imp Int.ofNat_le.2

/-- The dice that count are some of those that were rolled. -/
theorem exists_perm_rolls_score :
    ∃ dropped, (settled.map Int.ofNat).Perm ((r.score settled).rolls ++ dropped) := by
  obtain ⟨dropped, hperm⟩ : ∃ dropped, settled.Perm (r.modifiers.select settled ++ dropped) :=
    Modifiers.exists_perm_select_append
  refine ⟨dropped.map Int.ofNat, ?_⟩
  rw [rolls_score, ← List.map_append]
  exact hperm.map Int.ofNat

/-- As many dice count as the modifiers keep of those that were rolled. -/
theorem length_rolls_score :
    (r.score settled).rolls.length = r.modifiers.keptCount settled.length := by
  rw [rolls_score, List.length_map, Modifiers.length_select]

/-- With a success rule the dice that match it are counted. -/
theorem total_score_of_success (h : r.modifiers.success = some rule) :
    (r.score settled).total =
      (r.score settled).rolls.countP (fun face => rule.holds face.toNat) ∧
      (r.score settled).successCount = some (r.score settled).total := by
  rw [rolls_score, List.countP_map, score_of_success h]
  exact ⟨rfl, rfl⟩

/-- Without a success rule the dice that count are added up. -/
theorem total_score_of_sum (h : r.modifiers.success = none)
    (hfaces : ∀ face ∈ settled, face ≤ maxFace) (hlen : (r.score settled).rolls.length ≤ 2 ^ 31) :
    (r.score settled).total = (r.score settled).rolls.sum := by
  have hkept : ∀ face ∈ r.modifiers.select settled, face ≤ maxFace :=
    fun face hface => hfaces face (Modifiers.mem_of_mem_select hface)
  rw [rolls_score, List.length_map] at hlen
  rw [rolls_score, score_of_sum h]
  exact Outcome.total_sum hkept hlen r.text r.flat

/-- Without a success rule no successes are reported. -/
theorem successCount_score_of_sum (h : r.modifiers.success = none) :
    (r.score settled).successCount = none := by
  rw [score_of_sum h]
  rfl

/-- Whatever is rolled, the flat amount is added to the total as far as the width of an amount
goes. -/
theorem modifiedTotal_of_run {σ : Type} [DieSource σ] {s t : σ} {log : List Entry} {o : Outcome}
    (h : r.roll.run s = ⟨some o, t, log⟩) :
    o.flat = r.flat ∧ o.modifiedTotal = Amount.clamp (o.total + r.flat) := by
  cases hdice : r.dice with
  | standard sides =>
    obtain ⟨settled, -, rfl⟩ := exists_of_roll_standard hdice h
    exact ⟨flat_score, modifiedTotal_score⟩
  | fudge =>
    unfold roll at h
    rw [hdice] at h
    obtain ⟨rolls, u, l, _, -, hpure, rfl⟩ := Roller.run_bind_eq_some_iff.1 h
    obtain ⟨rfl, rfl, rfl⟩ := Roller.run_pure_eq_some_iff.1 hpure
    exact ⟨rfl, rfl⟩

end Roll

end Tabletop
