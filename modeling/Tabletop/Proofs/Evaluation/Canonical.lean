import Tabletop.Evaluation
import Tabletop.Proofs.Notation.Canonical
import Tabletop.Proofs.Roll.Score
import Tabletop.Source.Script

/-!
# A roll and its canonical notation

Two texts that ask for the same dice are rolled alike. The text of a roll goes into its outcome and
nowhere else (`Roll.run_roll_text`), and what an evaluation of an accepted text does beyond its roll
takes no draw (`run_evaluateWith_of_ok`). Since the canonical notation of a roll is read as this
roll, both are evaluated alike, whatever text was accepted (`evaluate_render_alike`).
-/

namespace Tabletop

variable {σ : Type} [DieSource σ]

/-! ## The text of a roll -/

namespace Roll

variable {r : Roll}

/-- The text of a roll is passed on to its score and changes nothing else there. -/
theorem score_text (text : String) (settled : List Nat) :
    ({ r with text } : Roll).score settled = { r.score settled with text } := by
  unfold score
  dsimp only
  cases r.modifiers.success <;> rfl

/-- A roll under another text is the same roll, reported under that text. -/
theorem run_roll_text (text : String) (s : σ) : ({ r with text } : Roll).roll.run s =
    { r.roll.run s with outcome := (r.roll.run s).outcome.map ({ · with text }) } := by
  obtain ⟨old, count, dice, flat, modifiers⟩ := r
  cases dice with
  | fudge =>
    simp only [roll, Roller.run_bind]
    cases ((rollFudge count).run s).outcome <;> rfl
  | standard sides =>
    -- Where the dice end does not depend on the text, only the score does.
    have hsettle : settleAll (σ := σ) ⟨text, count, .standard sides, flat, modifiers⟩ sides =
        settleAll ⟨old, count, .standard sides, flat, modifiers⟩ sides := rfl
    have hscore := score_text (r := ⟨old, count, .standard sides, flat, modifiers⟩) text
    dsimp only at hscore
    simp only [roll, hsettle, hscore, Roller.run_bind, Roller.run_pure]
    cases ((settleAll ⟨old, count, .standard sides, flat, modifiers⟩ sides).run s).outcome <;> rfl

end Roll

/-! ## The run of an accepted text -/

/-- The last report of an evaluation. -/
def Outcome.report (o : Outcome) : Event :=
  .evaluated o.text o.rolls.length o.total o.modifiedTotal

/-- An accepted text is rolled between two reports. -/
theorem run_evaluateWith_of_ok {reading : Reading} {input : String} {settings : Settings}
    {n : Notation} {r : Roll} (hn : Notation.parseWith reading input = .ok n)
    (hr : Roll.ofNotation n settings.maxDice = .ok r) (s : σ) :
    (evaluateWith reading input settings).run s =
      ⟨(r.roll.run s).outcome.map .ok, (r.roll.run s).rest, n.events.map .event ++
        ((r.roll.run s).log ++ ((r.roll.run s).outcome.toList.map Outcome.report).map .event)⟩ := by
  unfold evaluateWith
  simp only [hn, hr, Roller.run_bind, Roller.run_reports, Roller.run_report, Roller.run_pure]
  cases (r.roll.run s).outcome with
  | none => simp [Run.after]
  | some o => simp [Run.after, Outcome.report]

/-- An evaluation takes the same draws as another one and comes to the same outcome, which it
reports under `text`. -/
structure Run.Alike (text : String) (again typed : Run σ (Except RollError Outcome)) : Prop where
  /-- The source is asked for the same sides, as many times. -/
  asked : asked again.log = asked typed.log
  /-- It gives the same faces. -/
  drawn : drawn again.log = drawn typed.log
  /-- The same is left of it. -/
  rest : again.rest = typed.rest
  /-- It runs dry in both, or the outcomes agree but for their text. -/
  outcome : typed.outcome = none ∧ again.outcome = none ∨
    ∃ o, typed.outcome = some (.ok o) ∧ again.outcome = some (.ok { o with text })

/-- Texts that are accepted as the same roll are evaluated alike. -/
theorem evaluate_alike {input again : String} {settings : Settings} {n n' : Notation} {r : Roll}
    {text : String} (hn : Notation.parse input = .ok n)
    (hr : Roll.ofNotation n settings.maxDice = .ok r) (hn' : Notation.parse again = .ok n')
    (hr' : Roll.ofNotation n' settings.maxDice = .ok { r with text }) (s : σ) :
    Run.Alike text ((evaluate again settings).run s) ((evaluate input settings).run s) := by
  unfold evaluate
  rw [run_evaluateWith_of_ok hn hr, run_evaluateWith_of_ok hn' hr', Roll.run_roll_text]
  refine ⟨?_, ?_, rfl, ?_⟩
  · simp only [asked_append, asked_events]
  · simp only [drawn_append, drawn_events]
  · cases (r.roll.run s).outcome with
    | none => exact .inl ⟨rfl, rfl⟩
    | some o => exact .inr ⟨o, rfl, rfl⟩

/-- Whatever text is accepted, the canonical notation of its roll is accepted as the same roll,
written in the same way, and on every source it is evaluated alike. -/
theorem evaluate_render_alike {input : String} {settings : Settings} {n : Notation} {r : Roll}
    (hn : Notation.parse input = .ok n) (hr : Roll.ofNotation n settings.maxDice = .ok r) :
    let canonical : Roll := { r with text := r.render }
    (∃ n', Notation.parse r.render = .ok n' ∧
      Roll.ofNotation n' settings.maxDice = .ok canonical) ∧
    canonical.render = r.render ∧
    ∀ (σ : Type) [DieSource σ] (s : σ),
      Run.Alike r.render ((evaluate r.render settings).run s)
        ((evaluate input settings).run s) := by
  intro canonical
  obtain ⟨haccept, hparts⟩ := Roll.ofNotation_eq_ok_iff.1 hr
  have hn' : Notation.parse r.render = .ok { n with text := r.render } :=
    (Notation.expressible_of_parse hn).parse_render hparts
  have hr' : Roll.ofNotation { n with text := r.render } settings.maxDice = .ok canonical := by
    refine Roll.ofNotation_eq_ok_iff.2 ⟨haccept, ?_⟩
    subst hparts
    rfl
  exact ⟨⟨_, hn', hr'⟩, rfl, fun _ _ s => evaluate_alike hn hr hn' hr' s⟩

/-- Blanks, capitals, zeros in front, a count and a reroll that are replaced, a number too large for
its width and characters that mean nothing. -/
theorem evaluate_render_alike_garbled :
    let text := "\t 004D6-007x!kh9kh3ro<1r<2>99999999999k "
    let canonical := "4d6-7!kh3r<2>4294967295"
    ∃ n r, Notation.parse text = .ok n ∧ Roll.ofNotation n ({} : Settings).maxDice = .ok r ∧
      r.render = canonical ∧
      (∃ n', Notation.parse canonical = .ok n' ∧
        Roll.ofNotation n' ({} : Settings).maxDice = .ok { r with text := canonical }) ∧
      ∀ (σ : Type) [DieSource σ] (s : σ),
        Run.Alike canonical ((evaluate canonical {}).run s) ((evaluate text {}).run s) := by
  intro text canonical
  let modifiers : Modifiers :=
    { explode := true
      keepHigh := some 3
      reroll := some (.atMost 2)
      success := some (.above maxFace) }
  let n : Notation := ⟨"004D6-007x!kh9kh3ro<1r<2>99999999999k", 4, .standard 6, -7, modifiers⟩
  let r : Roll := ⟨n.text, n.count, n.dice, n.flat, n.modifiers⟩
  have hn : Notation.parse text = .ok n := by decide +kernel
  have hr : Roll.ofNotation n ({} : Settings).maxDice = .ok r := by decide +kernel
  have hrender : r.render = canonical := by decide +kernel
  obtain ⟨hread, -, halike⟩ := evaluate_render_alike hn hr
  rw [hrender] at hread halike
  exact ⟨n, r, hn, hr, hrender, hread, halike⟩

end Tabletop
