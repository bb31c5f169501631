import Tabletop.Proofs.Evaluation.Refusal
import Tabletop.Proofs.Rolling.InStep
import Tabletop.Proofs.Suffix.Reading

/-!
# Saturated numbers do not show

Rolls read numbers of any length, and cut those too large for their width. Below the largest die
this cannot be seen: an evaluation that leaves every count and threshold as it is written refuses
the same texts with the same errors, takes the same draws and comes to the same outcome. The largest
die is the first one where the two come apart (`evaluate_same_as_exact`).
-/

namespace Tabletop

open Roller (InStep)
open Text (decimal)

/-! ## Rolls -/

namespace Roll

variable {r : Roll} {sides : Nat} {settled : List Nat}

/-- The roll with the numbers of its modifiers read once more. -/
def under (reading : Reading) (r : Roll) : Roll :=
  { r with modifiers := r.modifiers.under reading }

/-- If there are no more dice than can be counted, and none on the largest face, saturated modifiers
score them like the exact ones. -/
theorem score_under (hlen : settled.length ≤ maxCount) (hfaces : ∀ face ∈ settled, face < maxFace) :
    (r.under .saturating).score settled = r.score settled := by
  have hsuccess : (r.under .saturating).modifiers.success =
      r.modifiers.success.map (Threshold.mapBound (min maxFace)) := rfl
  have hselect : (r.under .saturating).modifiers.select settled = r.modifiers.select settled :=
    Modifiers.select_under hlen
  unfold score
  rw [hsuccess, hselect]
  cases r.modifiers.success with
  | none => rfl
  | some rule =>
    have hcount : (r.modifiers.select settled).countP (rule.mapBound (min maxFace)).holds =
        (r.modifiers.select settled).countP rule.holds :=
      List.countP_congr fun face hface => by
        rw [Threshold.holds_mapBound (hfaces face (Modifiers.mem_of_mem_select hface))]
    simp only [Option.map_some, Outcome.successes, hcount]
    rfl

variable {σ : Type} [DieSource σ]

/-- All dice are rolled in step with the saturated and with the exact modifiers. -/
theorem settleAll_inStep (hsides : sides < maxFace) (s : σ) :
    InStep s ((r.under .saturating).settleAll sides) (r.settleAll sides) := by
  refine (InStep.times (rollOne_inStep hsides) r.count s).bind fun _ _ => ?_
  have hexplode : (r.under .saturating).modifiers.explode = r.modifiers.explode := rfl
  rw [hexplode]
  split
  · exact (explode_inStep hsides _ _).bind fun _ _ => .refl
  · exact .refl

/-- A roll goes in step with the roll whose numbers are not saturated, if its die has fewer sides
than the largest face and its dice can be counted. -/
theorem roll_inStep (hdice : ∀ sides, r.dice = .standard sides → sides < maxFace) {s : σ}
    (hpool : ∀ o, ((r.under .saturating).roll.run s).outcome = some o →
      o.diceRolled ≤ maxCount) :
    InStep s (r.under .saturating).roll r.roll := by
  have hdice' : (r.under .saturating).dice = r.dice := rfl
  unfold roll at hpool ⊢
  rw [hdice'] at hpool ⊢
  cases hd : r.dice with
  | fudge => exact .refl
  | standard sides =>
    rw [hd] at hpool
    dsimp only at hpool ⊢
    -- The dice end on the same faces; these are scored alike if none is the largest face and if
    -- there are no more of them than can be counted.
    refine (settleAll_inStep (hdice sides hd) s).bind fun {settled} _ _ hsettle hfair => ?_
    have hlen : settled.length ≤ maxCount :=
      hpool _ (by rw [Roller.outcome_bind_of_some hsettle]; rfl)
    have hfaces (face : Nat) (hface : face ∈ settled) : face < maxFace :=
      Nat.lt_of_le_of_lt ((settlesAll_of_run hsettle).mayStay hfair face hface).1.2 (hdice sides hd)
    rw [score_under hlen hfaces]
    exact .refl

end Roll

/-- What is accepted is the same roll but for the numbers of its modifiers, and the same is refused
with the same error. -/
theorem Roll.ofText_under {input : String} {maxDice : Nat} (hmax : maxDice ≤ maxFace) :
    Roll.ofText .saturating input maxDice =
      (Roll.ofText .exact input maxDice).map (Roll.under .saturating) := by
  have hcounts := Reading.saturating_countsTo hmax
  have hcounts' : Reading.exact.CountsTo maxDice := Reading.exact_countsTo
  by_cases hfault : ∃ e, Fault input maxDice e
  · obtain ⟨e, he⟩ := hfault
    rw [(ofText_eq_error_iff hcounts).2 he, (ofText_eq_error_iff hcounts').2 he]
    rfl
  · have hno (e : RollError) : ¬ Fault input maxDice e := fun he => hfault ⟨e, he⟩
    obtain ⟨l, hl, -, hr⟩ := exists_ofText hcounts hno
    obtain ⟨l', hl', -, hr'⟩ := exists_ofText hcounts' hno
    cases hl'.unique hl
    rw [hr, hr', Modifiers.ofSuffix_under]
    rfl

/-- Below the largest die, an evaluation cannot be told from one that leaves counts and thresholds
as they are written. -/
theorem evaluate_same {input : String} {settings : Settings} (hmax : settings.maxDice ≤ maxFace)
    (hsides : ∀ n sides, Notation.parse input = .ok n → n.dice = .standard sides → sides < maxFace)
    {σ : Type} [DieSource σ] {s : σ}
    (hfair : ∀ e ∈ ((evaluate input settings).run s).log, e.Fair)
    (hpool : ∀ o, ((evaluate input settings).run s).outcome = some (.ok o) →
      o.diceRolled ≤ maxCount) :
    ((evaluate input settings).run s).Same ((evaluateWith .exact input settings).run s) := by
  have hunder : Roll.ofText .saturating input settings.maxDice =
      (Roll.ofText .exact input settings.maxDice).map (Roll.under .saturating) :=
    Roll.ofText_under hmax
  unfold evaluate at hfair hpool ⊢
  cases hr : Roll.ofText .exact input settings.maxDice with
  | error e =>
    rw [hr] at hunder
    obtain ⟨es, hrun⟩ := run_evaluateWith_of_error hunder s
    obtain ⟨es', hrun'⟩ := run_evaluateWith_of_error hr s
    rw [hrun, hrun']
    exact ⟨rfl, rfl, by rw [draws_events, draws_events]⟩
  | ok r =>
    rw [hr] at hunder
    have hdice (sides : Nat) (hd : r.dice = .standard sides) : sides < maxFace := by
      obtain ⟨n, hn, hofNotation⟩ := Roll.exists_notation_of_ofText hunder
      obtain ⟨-, hparts⟩ := Roll.ofNotation_eq_ok_iff.1 hofNotation
      refine hsides n sides hn ?_
      rw [← hd]
      exact (congrArg Roll.dice hparts).symm
    obtain ⟨before, behind, hrun⟩ := run_evaluateWith_of_ofText hunder s
    obtain ⟨before', behind', hrun'⟩ := run_evaluateWith_of_ofText hr s
    rw [hrun] at hfair hpool ⊢
    rw [hrun']
    have hroll := Roll.roll_inStep hdice
      (fun o ho => hpool o (by rw [ho]; rfl))
      (List.forall_mem_append.1 (List.forall_mem_append.1 hfair).2).1
    refine ⟨by rw [hroll.outcome], hroll.rest, ?_⟩
    simp only [draws_append, draws_events, hroll.draws]

/-! ## The largest die -/

section
variable {σ : Type} [DieSource σ] {s t : σ} {reading : Reading} {settings : Settings}
  {m m' : Modifiers} {rule : Threshold} {sides face : Nat}

/-- A die whose first face is left alone ends on it. -/
theorem run_rollOne_of_kept
    (hkept : ∀ rule ∈ m.reroll, rule.coversFaces sides = false ∧ rule.holds face = false)
    (hdraw : DieSource.draw sides s = (some face, t)) :
    (rollOne sides m).run s = ⟨some face, t, [.drew sides face]⟩ := by
  unfold rollOne
  rw [Roller.run_bind, Roller.run_draw_of_some hdraw]
  cases hrule : m.reroll with
  | none => rfl
  | some rule =>
    obtain ⟨hcovers, hholds⟩ := hkept rule hrule
    simp [hcovers, settle_eq, hholds, Run.after]

/-- A die whose first face is not left alone is rolled twice at least. -/
theorem asked_rollOne_of_again (hrule : m.reroll = some rule)
    (hcovers : rule.coversFaces sides = false) (hholds : rule.holds face = true)
    (hdraw : DieSource.draw sides s = (some face, t)) :
    [sides, sides] <+: asked ((rollOne sides m).run s).log := by
  have hagain : [sides] <+: asked ((settle rule m.rerollOnce sides face).run t).log := by
    rw [settle_eq, if_pos hholds, Roller.run_bind, Roller.run_report]
    dsimp only [Run.after]
    have hask : asked ((Roller.draw sides).run t).log = [sides] := by
      unfold Roller.draw
      dsimp only
      split <;> rfl
    rw [asked_append, ← hask]
    exact (Roller.log_prefix_bind _ _).filterMap _
  unfold rollOne
  rw [Roller.run_bind, Roller.run_draw_of_some hdraw]
  dsimp only [Run.after]
  rw [hrule, asked_append]
  simp only [hcovers]
  exact (List.prefix_append_right_inj [sides]).2 hagain

/-- A single die of the largest kind, with the modifiers of a suffix. -/
def Roll.largest (suffix : String) (m : Modifiers) : Roll :=
  ⟨"1d4294967295" ++ suffix, 1, .standard maxFace, 0, m⟩

/-- Such a die is read from its text. -/
theorem Roll.ofText_largest (h : reading.CountsTo settings.maxDice) (hmax : 1 ≤ settings.maxDice)
    (m : Modifiers) :
    ofText reading ("1d4294967295" ++ m.render) settings.maxDice =
      .ok (largest m.render (.ofSuffix reading m.render.toList)) := by
  let r : Roll := ⟨"", 1, .standard maxFace, 0, m⟩
  have hrender : r.render = "1d4294967295" ++ m.render :=
    congrArg (· ++ m.render) (by decide : toString 1 ++ "d" ++ toString maxFace ++ "" = _)
  have hflat : ((0 : Int).natAbs : Int) ≤ Amount.greatest := by decide
  have hadm : r.layout.Admissible := admissible_layout (Nat.le_refl maxFace) hflat
  have hcount : reading.count (decimal r.layout.count) = 1 := by
    have hone := h 1
    have hdecimal : decimal r.layout.count = 1 := Text.decimal_toString r.count
    rw [hdecimal]
    omega
  unfold largest
  rw [← hrender, ofText_of_admissible r.spells_layout hadm, ofNotation_eq_ok_iff, Layout.value,
    hcount, die_layout, amount_layout, trim_render, String.ofList_toList]
  refine ⟨⟨Nat.le_refl 1, hmax, fun sides hsides => ?_⟩, rfl⟩
  cases hsides
  decide

/-- If its first face is left alone, it is the only one. -/
theorem Roll.run_largest {suffix : String} {log : List Entry} (hexplode : m.explode = false)
    (h : (rollOne maxFace m).run s = ⟨some face, t, log⟩) :
    (largest suffix m).roll.run s = ⟨some ((largest suffix m).score [face]), t, log⟩ := by
  have htimes : (Roller.times 1 (rollOne maxFace m)).run s = ⟨some [face], t, log⟩ := by
    rw [Roller.times_succ 0]
    simp [Roller.run_bind, h, Run.after]
  unfold roll settleAll largest
  simp [hexplode, Roller.run_bind, htimes, Run.after]

/-- The log of the largest die begins with what its only die does. -/
theorem Roll.log_prefix_largest (suffix : String) (m : Modifiers) :
    ((rollOne maxFace m).run s).log <+: ((largest suffix m).roll.run s).log := by
  unfold roll settleAll largest
  dsimp only
  rw [Roller.times_succ 0]
  exact (Roller.log_prefix_bind _ _).trans <| (Roller.log_prefix_bind _ _).trans <|
    Roller.log_prefix_bind _ _

/-- What such a die does when its text is evaluated, `m` being the modifiers that the suffix is
written for and `m'` those that are read from it. -/
theorem exists_run_largest {suffix : String} (hwritten : m.render = suffix)
    (hread : Modifiers.ofSuffix reading suffix.toList = m')
    (h : reading.CountsTo settings.maxDice) (hmax : 1 ≤ settings.maxDice) (s : σ) :
    ∃ before behind : List Event,
      (evaluateWith reading ("1d4294967295" ++ suffix) settings).run s =
        ⟨((Roll.largest suffix m').roll.run s).outcome.map .ok,
          ((Roll.largest suffix m').roll.run s).rest, before.map .event ++
            (((Roll.largest suffix m').roll.run s).log ++ behind.map .event)⟩ := by
  subst hwritten hread
  exact run_evaluateWith_of_ofText (Roll.ofText_largest h hmax m) s

/-- Under a success rule for fewer than `n`, the highest face of the largest die counts if the
number that is read is larger. -/
theorem evaluate_largest_below (n : Nat) (h : reading.CountsTo settings.maxDice)
    (hmax : 1 ≤ settings.maxDice) (hdraw : DieSource.draw maxFace s = (some maxFace, t)) :
    ∃ o, ((evaluateWith reading ("1d4294967295" ++ ("<" ++ toString n)) settings).run s).outcome =
      some (.ok o) ∧ o.successCount = some (if maxFace < reading.face n then 1 else 0) := by
  let m : Modifiers := { success := some (.below n) }
  let m' : Modifiers := { success := some (.below (reading.face n)) }
  have hwritten : m.render = "<" ++ toString n := String.empty_append
  have hread : Modifiers.ofSuffix reading ("<" ++ toString n).toList = m' := by
    have hspells : Suffix.Modifier.Spelling reading _ _ :=
      .success .less (Text.numeral_toString n)
    rw [Text.decimal_toString] at hspells
    rw [String.toList_append]
    exact Modifiers.ofSuffix_of_spelling hspells
      (List.forall_mem_cons.2 ⟨by decide, Text.plain_toString n⟩)
  have hdie : (rollOne maxFace m').run s = ⟨some maxFace, t, [.drew maxFace maxFace]⟩ :=
    run_rollOne_of_kept (fun rule hrule => by cases hrule) hdraw
  obtain ⟨before, behind, hrun⟩ := exists_run_largest hwritten hread h hmax s
  rw [hrun, Roll.run_largest rfl hdie]
  refine ⟨_, rfl, ?_⟩
  have hselect : m'.select [maxFace] = [maxFace] := m'.select_replicate 1 maxFace
  unfold Roll.score Roll.largest
  dsimp only
  rw [hselect]
  simp [m', Outcome.successes, Outcome.ofTotal, Outcome.withDiceRolled, Threshold.holds,
    List.countP_cons]

/-- Under a rule to roll again from `n` on, the highest face of the largest die stays if the number
that is read is larger, and otherwise the die is rolled again. -/
theorem evaluate_largest_again (n : Nat) (h : reading.CountsTo settings.maxDice)
    (hmax : 1 ≤ settings.maxDice) (hdraw : DieSource.draw maxFace s = (some maxFace, t))
    (hone : 1 < reading.face n) :
    let run := (evaluateWith reading ("1d4294967295" ++ ("r>" ++ toString n)) settings).run s
    (maxFace < reading.face n → ∃ o, run.outcome = some (.ok o) ∧ o.rolls = [(maxFace : Int)] ∧
      asked run.log = [maxFace]) ∧
    (reading.face n ≤ maxFace → [maxFace, maxFace] <+: asked run.log) := by
  let m : Modifiers := { reroll := some (.atLeast n) }
  let m' : Modifiers := { reroll := some (.atLeast (reading.face n)) }
  have hwritten : m.render = "r>" ++ toString n := by
    simp [m, Modifiers.render, Modifiers.renderCount, Modifiers.renderReroll, Threshold.render,
      ← String.append_assoc]
  have hread : Modifiers.ofSuffix reading ("r>" ++ toString n).toList = m' := by
    have hspells : Suffix.Modifier.Spelling reading _ _ :=
      .reroll .more (Text.numeral_toString n)
    rw [Text.decimal_toString] at hspells
    rw [String.toList_append]
    exact Modifiers.ofSuffix_of_spelling hspells (List.forall_mem_cons.2 ⟨by decide,
      List.forall_mem_cons.2 ⟨by decide, Text.plain_toString n⟩⟩)
  have hcovers : (Threshold.atLeast (reading.face n)).coversFaces maxFace = false := by
    simp [Threshold.coversFaces, Threshold.holds, hone]
  obtain ⟨before, behind, hrun⟩ := exists_run_largest hwritten hread h hmax s
  rw [hrun]
  simp only [asked_append, asked_events, List.nil_append, List.append_nil]
  constructor
  · intro hlarge
    have hdie : (rollOne maxFace m').run s = ⟨some maxFace, t, [.drew maxFace maxFace]⟩ := by
      refine run_rollOne_of_kept (fun rule hrule => ?_) hdraw
      cases hrule
      exact ⟨hcovers, by simpa [Threshold.holds] using hlarge⟩
    rw [Roll.run_largest rfl hdie]
    refine ⟨_, rfl, ?_, rfl⟩
    rw [Roll.rolls_score]
    exact congrArg (List.map Int.ofNat) (m'.select_replicate 1 maxFace)
  · intro hsmall
    have hholds : (Threshold.atLeast (reading.face n)).holds maxFace = true := by
      simpa [Threshold.holds] using hsmall
    exact (asked_rollOne_of_again rfl hcovers hholds hdraw).trans
      ((Roll.log_prefix_largest _ m').filterMap _)

end

/-- Saturating numbers does not show below the largest die: on a die with fewer sides than that, or
on Fudge dice, an evaluation that leaves counts and thresholds as they are written ends in the same
error or outcome and takes the same draws, as long as the faces drawn are faces of the die and the
dice can be counted. On the largest die it shows: a success rule for fewer than a number that no
face reaches misses the highest face, and a rule to roll again from such a number on hits it. -/
theorem evaluate_same_as_exact {settings : Settings} (hmax : settings.maxDice ≤ maxFace)
    {σ : Type} [DieSource σ] (s : σ) :
    (∀ input : String,
      (∀ n sides, Notation.parse input = .ok n → n.dice = .standard sides → sides < maxFace) →
      (∀ e ∈ ((evaluate input settings).run s).log, e.Fair) →
      (∀ o, ((evaluate input settings).run s).outcome = some (.ok o) → o.diceRolled ≤ maxCount) →
      ((evaluate input settings).run s).Same ((evaluateWith .exact input settings).run s)) ∧
    ∀ (n : Nat) (t : σ), 1 ≤ settings.maxDice → maxFace < n →
      DieSource.draw maxFace s = (some maxFace, t) →
      (let run := (evaluate ("1d4294967295<" ++ toString n) settings).run s
        let exact := (evaluateWith .exact ("1d4294967295<" ++ toString n) settings).run s
        ∃ o o', run.outcome = some (.ok o) ∧ o.successCount = some 0 ∧
          exact.outcome = some (.ok o') ∧ o'.successCount = some 1) ∧
      (let run := (evaluate ("1d4294967295r>" ++ toString n) settings).run s
        let exact := (evaluateWith .exact ("1d4294967295r>" ++ toString n) settings).run s
        [maxFace, maxFace] <+: asked run.log ∧
          ∃ o, exact.outcome = some (.ok o) ∧ o.rolls = [(maxFace : Int)] ∧
            asked exact.log = [maxFace]) := by
  have hcounts := Reading.saturating_countsTo hmax
  have hcounts' : Reading.exact.CountsTo settings.maxDice := Reading.exact_countsTo
  refine ⟨fun _ hsides => evaluate_same hmax hsides, fun n t hpos hn hdraw => ?_⟩
  have hcut : Reading.saturating.face n = maxFace := Nat.min_eq_left (Nat.le_of_lt hn)
  have hbelow : "1d4294967295<" ++ toString n = "1d4294967295" ++ ("<" ++ toString n) := by
    rw [← String.append_assoc]
    rfl
  have hagain : "1d4294967295r>" ++ toString n = "1d4294967295" ++ ("r>" ++ toString n) := by
    rw [← String.append_assoc]
    rfl
  have hwide : 1 < maxFace := by decide
  rw [hbelow, hagain]
  dsimp only [evaluate]
  constructor
  · obtain ⟨o, hrun, hcount⟩ := evaluate_largest_below n hcounts hpos hdraw
    obtain ⟨o', hrun', hcount'⟩ := evaluate_largest_below n hcounts' hpos hdraw
    rw [hcut, if_neg (Nat.lt_irrefl _)] at hcount
    rw [if_pos (show maxFace < Reading.exact.face n from hn)] at hcount'
    exact ⟨o, o', hrun, hcount, hrun', hcount'⟩
  · obtain ⟨-, hhit⟩ := evaluate_largest_again n hcounts hpos hdraw (hcut ▸ hwide)
    obtain ⟨hmiss, -⟩ := evaluate_largest_again n hcounts' hpos hdraw (Nat.lt_trans hwide hn)
    exact ⟨hhit (Nat.le_of_eq hcut), hmiss hn⟩

/-- Three dice under oversized numbers of every kind, and the largest die under the least number
that its highest face does not reach. -/
theorem evaluate_same_as_exact_six :
    let input := "2d6!kh36893488147419103232r>8589934592<4294967296"
    let dice : Script := ⟨[6, 2, 5]⟩
    let largest : Script := ⟨[maxFace, 7]⟩
    ((evaluate input {}).run dice).Same ((evaluateWith .exact input {}).run dice) ∧
    (∃ o o', ((evaluate "1d4294967295<4294967296" {}).run largest).outcome = some (.ok o) ∧
      o.successCount = some 0 ∧
      ((evaluateWith .exact "1d4294967295<4294967296" {}).run largest).outcome = some (.ok o') ∧
      o'.successCount = some 1) ∧
    [maxFace, maxFace] <+: asked ((evaluate "1d4294967295r>4294967296" {}).run largest).log := by
  intro input dice largest
  have hmax : ({} : Settings).maxDice ≤ maxFace := by decide
  have hsides (n : Notation) (sides : Nat) (hn : Notation.parse input = .ok n)
      (hdice : n.dice = .standard sides) : sides < maxFace := by
    have hsix : n.dice = .standard 6 := Notation.eq_of_parse Notation.dice hn (by decide +kernel)
    cases hdice.symm.trans hsix
    decide
  have hfair : ∀ e ∈ ((evaluate input {}).run dice).log, e.Fair := by decide +kernel
  have hpool (o : Outcome) (ho : ((evaluate input {}).run dice).outcome = some (.ok o)) :
      o.diceRolled ≤ maxCount := by
    have hrolled : (((evaluate input {}).run dice).outcome.bind Except.toOption).map
        Outcome.diceRolled = some 3 := by decide +kernel
    rw [ho] at hrolled
    have hthree : o.diceRolled = 3 := Option.some.inj hrolled
    rw [hthree]
    decide
  have hsame := (evaluate_same_as_exact hmax dice).1 input hsides hfair hpool
  obtain ⟨hbelow, hagain, -⟩ := (evaluate_same_as_exact hmax largest).2 4294967296 ⟨[7]⟩
    (by decide) (by decide) (by decide)
  have hless : "1d4294967295<" ++ toString 4294967296 = "1d4294967295<4294967296" := by decide
  have hmore : "1d4294967295r>" ++ toString 4294967296 = "1d4294967295r>4294967296" := by decide
  rw [hless] at hbelow
  rw [hmore] at hagain
  exact ⟨hsame, hbelow, hagain⟩

end Tabletop
