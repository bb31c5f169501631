import Tabletop.Interchange
import Tabletop.Json.Reader
import Tabletop.Proofs.Roll.Score
import Tabletop.Proofs.Rolling.Steady

/-!
# Rolls that can finish

A die that a rule rolls again and again ends once it shows a face that the rule does not match, so
every rule that is followed needs such a face (`Roll.HasExits`). For dice with sides there is one:
a rule that is followed spares the lowest face or the highest. A die without sides is another
matter. It shows a 1, but whether the rule covers its faces is asked of 1 and 0; a rule that matches
1 and spares 0 is followed for ever (`Roll.Stuck`). No draft and no notation becomes such a roll,
since both check the sides, but a stored roll is read without that check (`Roll.stored_stuck`). All
other rolls have exits and can finish (`Roll.canFinish_iff`).
-/

namespace Tabletop

open Roller (outcome_bind_of_some outcome_bind_of_none outcome_bind_pure)

/-- A source can give this face to this kind of die. A die without sides has one face, and a Fudge
die is a die with three. -/
def Dice.HasFace : Dice → Nat → Prop
  | .standard sides, face => 1 ≤ face ∧ face ≤ max sides 1
  | .fudge, face => 1 ≤ face ∧ face ≤ 3

/-- Every die has a face 1, also one without sides. -/
theorem Dice.hasFace_one (d : Dice) : d.HasFace 1 := by
  cases d with
  | standard sides => exact ⟨Nat.le_refl 1, Nat.le_max_right ..⟩
  | fudge => exact ⟨Nat.le_refl 1, by decide⟩

/-- A standard die has the faces up to its sides. -/
theorem Dice.hasFace_of_le {d : Dice} {sides face : Nat} (hdice : d = .standard sides)
    (hface : 1 ≤ face ∧ face ≤ sides) : d.HasFace face := by
  rw [hdice]
  exact ⟨hface.1, Nat.le_trans hface.2 (Nat.le_max_left ..)⟩

/-- A rule that matches 1 and spares 0 has one of two forms. -/
theorem Threshold.eq_of_holds_one {rule : Threshold} (h₁ : rule.holds 1 = true)
    (h₀ : rule.holds 0 = false) : rule = .atLeast 1 ∨ rule = .above 0 := by
  cases rule <;> simp [holds] at * <;> omega

namespace Roll

/-- A die of this roll is rolled again for as long as the rule matches. -/
structure Follows (r : Roll) (sides : Nat) (rule : Threshold) : Prop where
  /-- There are dice. -/
  count : 0 < r.count
  /-- They have so many sides. -/
  dice : r.dice = .standard sides
  /-- The rule is not followed once only. -/
  repeats : r.modifiers.repeating? = some rule
  /-- The rule is taken to leave a face. -/
  spares : rule.coversFaces sides = false

/-- Whatever rule the dice of this roll follow, they have a face that it does not match. -/
def HasExits (r : Roll) : Prop :=
  ∀ sides rule, r.Follows sides rule → ∃ face, r.dice.HasFace face ∧ rule.holds face = false

/-- The dice of this roll have no sides, and they follow a rule that matches 1, which is all they
show, but not 0. -/
structure Stuck (r : Roll) : Prop where
  /-- There are dice. -/
  count : 0 < r.count
  /-- They have no sides. -/
  dice : r.dice = .standard 0
  /-- The rule is not followed once only, and it matches 1 but not 0. -/
  repeats : r.modifiers.repeating? = some (.atLeast 1) ∨ r.modifiers.repeating? = some (.above 0)

variable {r : Roll} {sides face : Nat}

/-! ## Exits -/

/-- A stuck roll follows a rule that matches its only face. -/
theorem Stuck.exists_follows (h : r.Stuck) : ∃ rule, r.Follows 0 rule ∧ rule.holds 1 = true := by
  obtain ⟨hcount, hdice, hrule | hrule⟩ := h
  · exact ⟨.atLeast 1, ⟨hcount, hdice, hrule, rfl⟩, rfl⟩
  · exact ⟨.above 0, ⟨hcount, hdice, hrule, rfl⟩, rfl⟩

/-- Dice have exits unless they are stuck: a rule that is followed spares the lowest face or the
highest, and only dice without sides do not show the latter. -/
theorem hasExits_iff : r.HasExits ↔ ¬ r.Stuck := by
  constructor
  · intro hexits hstuck
    obtain ⟨rule, hfollows, hholds⟩ := hstuck.exists_follows
    obtain ⟨face, hface, hspared⟩ := hexits 0 rule hfollows
    rw [hfollows.dice] at hface
    cases Nat.le_antisymm hface.1 hface.2
    rw [hholds] at hspared
    cases hspared
  · rintro hstuck sides rule ⟨hcount, hdice, hrule, hc⟩
    cases hlow : rule.holds 1 with
    | false => exact ⟨1, r.dice.hasFace_one, hlow⟩
    | true =>
      have hhigh : rule.holds sides = false := by
        simpa [Threshold.coversFaces, hlow] using hc
      cases sides with
      | zero =>
        rcases Threshold.eq_of_holds_one hlow hhigh with rfl | rfl
        · exact absurd ⟨hcount, hdice, .inl hrule⟩ hstuck
        · exact absurd ⟨hcount, hdice, .inr hrule⟩ hstuck
      | succ n =>
        have hface : r.dice.HasFace (n + 1) :=
          Dice.hasFace_of_le hdice ⟨Nat.succ_pos n, Nat.le_refl _⟩
        exact ⟨n + 1, hface, hhigh⟩

/-! ## Rolls that finish -/

/-- A roll without dice finishes on any source. -/
theorem isSome_settleAll_of_count_eq_zero (hcount : r.count = 0) (sides : Nat) (s : Script) :
    ((r.settleAll sides).run s).outcome.isSome = true := by
  have hextra : ∃ log, (explode [] sides r.modifiers).run s = ⟨some [], s, log⟩ := by
    unfold explode
    split
    · exact ⟨_, rfl⟩
    · split
      · exact ⟨_, rfl⟩
      · rw [List.count_nil, passes_eq, if_neg (Nat.lt_irrefl 0)]
        exact ⟨_, rfl⟩
  obtain ⟨log, hextra⟩ := hextra
  unfold settleAll
  rw [hcount, Roller.times_zero, outcome_bind_of_some (Roller.run_pure ..)]
  cases r.modifiers.explode with
  | false => rfl
  | true =>
    rw [if_pos rfl, outcome_bind_of_some hextra]
    rfl

/-- Dice that keep a face finish once nothing else comes, unless it is the highest face and they
explode. -/
theorem isSome_settleAll (hkeeps : r.modifiers.Keeps sides face)
    (hface : 2 ≤ sides → r.modifiers.forcesMaxFace sides = false → face ≠ sides)
    (first : List Nat) : ∃ k,
      ((r.settleAll sides).run (Script.steady first face k)).outcome.isSome = true := by
  -- A base die takes the face twice at most, and so does an extra die, of which there are no more
  -- than base dice on their highest face and faces that came first.
  obtain ⟨base, left, k', log, hbase, hleft, -, hk', -⟩ := (rollOne_ends hkeeps).times r.count first
    (r.count * 2 + 2 * (r.count + first.length)) (by omega)
  have hlen := (Roller.series_of_run_times rolls_of_run hbase).1
  have hcount : base.count sides ≤ base.length := List.count_le_length
  have hleft := hleft.length_le
  obtain ⟨extra, t, log', hextra⟩ := exists_run_explode hkeeps hface base left
    (k := k') (by omega)
  refine ⟨r.count * 2 + 2 * (r.count + first.length), ?_⟩
  unfold settleAll
  rw [outcome_bind_of_some hbase]
  cases r.modifiers.explode with
  | false => rfl
  | true =>
    rw [if_pos rfl, outcome_bind_of_some hextra]
    rfl

/-- Dice with exits have a face that lets them finish. -/
theorem HasExits.exists_keeps (h : r.HasExits) (hcount : 0 < r.count)
    (hdice : r.dice = .standard sides) : ∃ face, r.dice.HasFace face ∧
      r.modifiers.Keeps sides face ∧
        (2 ≤ sides → r.modifiers.forcesMaxFace sides = false → face ≠ sides) := by
  -- Dice that may explode need a face below the highest; for all others any exit will do.
  by_cases hfree : 2 ≤ sides ∧ r.modifiers.forcesMaxFace sides = false
  · obtain ⟨face, ⟨hface, hkeeps⟩, hne⟩ := Modifiers.exists_mayStay_ne hfree.1 hfree.2
    exact ⟨face, Dice.hasFace_of_le hdice hface, hkeeps, fun _ _ => hne⟩
  · suffices hkeep : ∃ face, r.dice.HasFace face ∧ r.modifiers.Keeps sides face by
      obtain ⟨face, hface, hkeeps⟩ := hkeep
      exact ⟨face, hface, hkeeps, fun hsides hforce => absurd ⟨hsides, hforce⟩ hfree⟩
    by_cases hfollows : ∃ rule, r.Follows sides rule
    · obtain ⟨rule, hrule⟩ := hfollows
      obtain ⟨face, hface, hholds⟩ := h sides rule hrule
      refine ⟨face, hface, fun rule' hrule' _ => ?_⟩
      cases hrule.repeats.symm.trans hrule'
      exact hholds
    · exact ⟨1, r.dice.hasFace_one,
        fun rule hrule hc => absurd ⟨rule, hcount, hdice, hrule, hc⟩ hfollows⟩

/-- A roll whose dice have exits can finish, whatever was drawn. -/
theorem HasExits.canFinish (h : r.HasExits) : r.roll.CanFinish r.dice.HasFace := by
  unfold roll
  cases hdice : r.dice with
  | fudge =>
    refine Roller.canFinish_of_steady (Dice.hasFace_one _) fun first => ⟨r.count * 1, ?_⟩
    obtain ⟨faces, left, k', log, hrun, -⟩ :=
      (Roller.ends_draw 3 1).times r.count first _ (Nat.le_refl _)
    rw [outcome_bind_pure, rollFudge, outcome_bind_pure, hrun]
    rfl
  | standard sides =>
    simp only [Roller.CanFinish, outcome_bind_pure, Option.isSome_map]
    rcases Nat.eq_zero_or_pos r.count with hcount | hcount
    · exact fun drawn => ⟨[], nofun, isSome_settleAll_of_count_eq_zero hcount sides _⟩
    · obtain ⟨face, hface, hkeeps, hne⟩ := h.exists_keeps hcount hdice
      rw [hdice] at hface
      exact Roller.canFinish_of_steady hface (isSome_settleAll hkeeps hne)

/-! ## Rolls that do not finish -/

/-- If nothing comes but a face that is rolled again, the rerolls go on until the source is dry. -/
theorem outcome_settle_of_holds {rule : Threshold} (hface : rule.holds face = true) (k : Nat) :
    ((settle rule false sides face).run (Script.steady [] face k)).outcome = none := by
  induction k with
  | zero =>
    rw [settle_eq, if_pos hface, outcome_bind_of_some (Roller.run_report ..)]
    exact outcome_bind_of_none rfl
  | succ k ih =>
    rw [settle_eq, if_pos hface, outcome_bind_of_some (Roller.run_report ..),
      outcome_bind_of_some (Roller.run_draw_steady_nil ..)]
    exact ih

/-- On a source that shows nothing else, a die is rolled again until the source is dry. -/
theorem Follows.outcome_rollOne {rule : Threshold} (h : r.Follows sides rule)
    (hface : rule.holds face = true) (k : Nat) :
    ((rollOne sides r.modifiers).run (Script.steady [] face k)).outcome = none := by
  obtain ⟨-, -, hrule, hc⟩ := h
  obtain ⟨honce, hrule⟩ := Modifiers.repeating?_eq_some_iff.1 hrule
  unfold rollOne
  cases k with
  | zero => exact outcome_bind_of_none rfl
  | succ k =>
    rw [outcome_bind_of_some (Roller.run_draw_steady_nil ..), hrule]
    dsimp only
    rw [if_neg (Bool.eq_false_iff.1 hc), honce]
    exact outcome_settle_of_holds hface k

/-- The dice of a stuck roll are rolled again until the source is dry. -/
theorem Stuck.outcome_roll (h : r.Stuck) (k : Nat) :
    (r.roll.run (Script.steady [] 1 k)).outcome = none := by
  obtain ⟨rule, hfollows, hholds⟩ := h.exists_follows
  -- The first die uses up the source.
  obtain ⟨n, hcount⟩ := Nat.exists_eq_add_of_lt h.count
  unfold roll
  rw [h.dice, outcome_bind_pure, settleAll, hcount, Nat.zero_add, Roller.times_succ]
  rw [outcome_bind_of_none (outcome_bind_of_none (hfollows.outcome_rollOne hholds k))]
  rfl

/-- A stuck roll finishes on no faces that its dice have: they are all rolled again. -/
theorem Stuck.outcome_roll_of_hasFace (h : r.Stuck) {drawn : List Nat}
    (hdrawn : ∀ face ∈ drawn, r.dice.HasFace face) :
    (r.roll.run (⟨drawn⟩ : Script)).outcome = none := by
  rw [h.dice] at hdrawn
  have hones : drawn = List.replicate drawn.length 1 :=
    List.eq_replicate_of_mem fun face hface =>
      Nat.le_antisymm (hdrawn face hface).2 (hdrawn face hface).1
  rw [hones]
  exact h.outcome_roll drawn.length

/-- A roll can be brought to an end at any time exactly if its dice are not stuck. -/
theorem canFinish_iff : r.roll.CanFinish r.dice.HasFace ↔ ¬ r.Stuck := by
  refine ⟨fun hfinish hstuck => ?_, fun h => (hasExits_iff.2 h).canFinish⟩
  obtain ⟨more, hmore, hrun⟩ := hfinish []
  rw [List.nil_append, hstuck.outcome_roll_of_hasFace hmore] at hrun
  cases hrun

/-- A roll that was checked is not stuck. -/
theorem not_stuck_of_build {d : Draft} (h : d.build = .ok r) : ¬ r.Stuck := by
  obtain ⟨⟨-, -, hsides⟩, rfl⟩ := Draft.build_eq_ok_iff.1 h
  intro hstuck
  exact absurd (hsides 0 hstuck.dice) (by decide)

/-- No roll of a notation is stuck, since its dice have two sides at least. -/
theorem not_stuck_of_ofNotation {n : Notation} {maxDice : Nat}
    (h : Roll.ofNotation n maxDice = .ok r) : ¬ r.Stuck := by
  obtain ⟨⟨-, -, hsides⟩, rfl⟩ := Roll.ofNotation_eq_ok_iff.1 h
  intro hstuck
  exact absurd (hsides 0 hstuck.dice) (by decide)

/-- The dice of a roll have exits from their rerolls, and the roll can be brought to an end at any
time, exactly if it is not stuck. Rolls that come from a draft or a notation never are; a roll that
was stored can be. -/
theorem finishes_unless_stuck (r : Roll) :
    (r.HasExits ↔ ¬ r.Stuck) ∧ (r.roll.CanFinish r.dice.HasFace ↔ ¬ r.Stuck) ∧
      (∀ d : Draft, d.build = .ok r → ¬ r.Stuck) ∧
      ∀ n maxDice, Roll.ofNotation n maxDice = .ok r → ¬ r.Stuck :=
  ⟨hasExits_iff, canFinish_iff, fun _ => not_stuck_of_build, fun _ _ => not_stuck_of_ofNotation⟩

/-- A stored roll of one die without sides, to be rolled again from 1 on. It is read, its rule
matches all that the die can show and is followed, and the roll finishes on nothing that the die can
show. -/
theorem stored_stuck :
    let text := "\x7b\"notation\":\"1d0r>1\",\"count\":1,\"dice\":\x7b\"Standard\":0\x7d," ++
      "\"modifier\":0,\"modifiers\":\x7b\"explode\":false,\"reroll\":\x7b\"AtLeast\":1\x7d," ++
      "\"reroll_once\":false\x7d\x7d"
    ∃ r, (Json.read? text).bind Roll.ofJson? = some r ∧ r.Follows 0 (.atLeast 1) ∧
      (∀ face, r.dice.HasFace face → (Threshold.atLeast 1).holds face = true) ∧
      ∀ drawn : List Nat, (∀ face ∈ drawn, r.dice.HasFace face) →
        (r.roll.run (⟨drawn⟩ : Script)).outcome = none := by
  intro text
  let r : Roll := ⟨"1d0r>1", 1, .standard 0, 0, { reroll := some (.atLeast 1) }⟩
  have hread : (Json.read? text).bind Roll.ofJson? = some r := by decide +kernel
  have hstuck : r.Stuck := ⟨Nat.succ_pos 0, rfl, .inl rfl⟩
  refine ⟨r, hread, ⟨Nat.succ_pos 0, rfl, rfl, rfl⟩, fun face hface => ?_, fun drawn hdrawn => ?_⟩
  · exact decide_eq_true hface.1
  · exact hstuck.outcome_roll_of_hasFace hdrawn

end Roll

end Tabletop
