import Tabletop.Modifiers.Faces
import Tabletop.Source.Basic

/-!
# Rolling dice

One die with its reroll rule (`rollOne`), the extra dice of an explosion (`explode`) and Fudge dice
(`rollFudge`), as computations over any source. Both loops end because every turn takes a face from
the source: rerolling one, an explosion pass at least as many as it has dice (`spends_rollOne`).
They carry what came of their earlier turns with them; `settle_eq` and `passes_eq` say what a turn
does and what is left to do after it.
-/

namespace Tabletop

variable {σ : Type} [DieSource σ]

/-! ## One die -/

/-- Rolls a die that shows `face` again while the rule matches, or once if asked. `past` is what
happened before, latest first. -/
def settleFrom (rule : Threshold) (once : Bool) (sides : Nat) (past : List Entry) (face : Nat)
    (s : σ) : Run σ Nat :=
  if rule.holds face then
    match _ : DieSource.draw sides s with
    | (none, t) => ⟨none, t, (.starved sides :: .event (.rerolling face rule) :: past).reverse⟩
    | (some next, t) =>
      let past := .drew sides next :: .event (.rerolling face rule) :: past
      if once then ⟨some next, t, past.reverse⟩ else settleFrom rule once sides past next t
  else ⟨some face, s, past.reverse⟩
termination_by DieSource.budget s
decreasing_by exact DieSource.budget_lt (by assumption)

/-- Rolls a die that shows `face` again while the rule matches, or once if asked. -/
def settle (rule : Threshold) (once : Bool) (sides face : Nat) : Roller σ Nat :=
  ⟨settleFrom rule once sides [] face⟩

/-- Rolls one die. A reroll rule that covers every face would never end and is not followed. -/
def rollOne (sides : Nat) (m : Modifiers) : Roller σ Nat := do
  let face ← Roller.draw sides
  match m.reroll with
  | none => pure face
  | some rule =>
    if rule.coversFaces sides then do
      Roller.report (.rerollCovers sides rule)
      pure face
    else settle rule m.rerollOnce sides face

/-- What happened before stands in front of the log. -/
theorem settleFrom_eq (rule : Threshold) (once : Bool) (sides : Nat) (past : List Entry)
    (face : Nat) (s : σ) : settleFrom rule once sides past face s =
      (settleFrom rule once sides [] face s).after past.reverse := by
  induction hn : DieSource.budget s using Nat.strongRecOn generalizing past face s with
  | _ n ih =>
    subst hn
    unfold settleFrom
    split
    · split
      · simp [Run.after]
      · next hd =>
        split
        · simp [Run.after]
        · have hlt := DieSource.budget_lt hd
          rw [ih _ hlt (_ :: _ :: past) _ _ rfl, ih _ hlt [_, _] _ _ rfl]
          simp [Run.after]
    · simp [Run.after]

/-- A die that the rule matches is rolled again, and if not once only, looked at again. -/
theorem settle_eq (rule : Threshold) (once : Bool) (sides face : Nat) :
    settle (σ := σ) rule once sides face =
      if rule.holds face then do
        Roller.report (.rerolling face rule)
        let next ← Roller.draw sides
        if once then pure next else settle rule once sides next
      else pure face := by
  ext1
  funext s
  change settleFrom rule once sides [] face s = _
  unfold settleFrom
  split
  · rw [Roller.run_bind, Roller.run_report]
    dsimp only
    rw [Roller.run_bind]
    split
    · next hd => rw [Roller.run_draw_of_none hd]; rfl
    · next next t hd =>
      rw [Roller.run_draw_of_some hd]
      dsimp only
      split
      · rfl
      · rw [settleFrom_eq]
        simp [Run.after, settle]
  · rfl

/-- Rolling a die again does not add to the budget of the source. -/
theorem spends_settle (rule : Threshold) (once : Bool) (sides face : Nat) :
    Roller.Spends (σ := σ) (settle rule once sides face) 0 := by
  suffices h : ∀ (past : List Entry) (face : Nat) (s : σ) (a : Nat),
      (settleFrom rule once sides past face s).outcome = some a →
        DieSource.budget (settleFrom rule once sides past face s).rest ≤ DieSource.budget s from
    fun s a ha => h [] face s a ha
  intro past face s a ha
  induction hn : DieSource.budget s using Nat.strongRecOn generalizing past face s with
  | _ n ih =>
    subst hn
    unfold settleFrom at ha ⊢
    by_cases hr : rule.holds face = true
    · rw [if_pos hr] at ha ⊢
      split at ha
      · simp at ha
      · next hd =>
        have hlt := DieSource.budget_lt hd
        cases once with
        | true => exact Nat.le_of_lt hlt
        | false => exact Nat.le_trans (ih _ hlt _ _ _ ha rfl) (Nat.le_of_lt hlt)
    · exact Nat.le_of_eq (by rw [if_neg hr])

/-- Rolling a die takes something from the budget of the source. -/
theorem spends_rollOne (sides : Nat) (m : Modifiers) :
    Roller.Spends (σ := σ) (rollOne sides m) 1 := by
  refine (Roller.spends_draw sides).bind (n := 0) fun face => ?_
  split
  · exact Roller.spends_pure face
  · next rule _ =>
    by_cases hc : rule.coversFaces sides = true
    · rw [if_pos hc]
      exact (Roller.spends_report _).bind fun _ => Roller.spends_pure face
    · rw [if_neg hc]
      exact spends_settle _ _ _ _

/-! ## Explosions -/

/-- A pass takes at least one face. -/
theorem budget_lt_of_pass {sides pending : Nat} {m : Modifiers} {s t : σ} {faces : List Nat}
    {log : List Entry} (hp : 0 < pending)
    (h : (Roller.times pending (rollOne sides m)).run s = ⟨some faces, t, log⟩) :
    DieSource.budget t < DieSource.budget s := by
  have := (spends_rollOne (σ := σ) sides m).times pending s faces (by rw [h])
  rw [h] at this
  dsimp only at this
  omega

/-- The passes of an explosion from number `pass` on, where `pending` dice are to be rolled in the
first of them and every die on its highest face adds one to the next. Of the passes before, `found`
are the dice and `past` is the log, both latest first. -/
def passesFrom (sides : Nat) (m : Modifiers) (found : List Nat) (past : List Entry)
    (pass pending : Nat) (s : σ) : Run σ (List Nat) :=
  if _ : 0 < pending then
    match _ : (Roller.times pending (rollOne sides m)).run s with
    | ⟨none, t, log⟩ => ⟨none, t, past.reverse ++ .event (.exploding pass pending) :: log⟩
    | ⟨some faces, t, log⟩ =>
      passesFrom sides m (faces.reverse ++ found)
        (log.reverse ++ .event (.exploding pass pending) :: past) (pass + 1) (faces.count sides) t
  else ⟨some found.reverse, s, past.reverse⟩
termination_by DieSource.budget s
decreasing_by exact budget_lt_of_pass (by assumption) (by assumption)

/-- The passes of an explosion from number `pass` on, where `pending` dice are to be rolled in the
first of them and every die on its highest face adds one to the next. -/
def passes (sides : Nat) (m : Modifiers) (pass pending : Nat) : Roller σ (List Nat) :=
  ⟨passesFrom sides m [] [] pass pending⟩

/-- The dice and the log of earlier passes stand in front of what is to come. -/
theorem passesFrom_eq (sides : Nat) (m : Modifiers) (found : List Nat) (past : List Entry)
    (pass pending : Nat) (s : σ) : passesFrom sides m found past pass pending s =
      let later := passesFrom sides m [] [] pass pending s
      { later with outcome := later.outcome.map (found.reverse ++ ·) }.after past.reverse := by
  induction hn : DieSource.budget s using Nat.strongRecOn
    generalizing found past pass pending s with
  | _ n ih =>
    subst hn
    unfold passesFrom
    split
    · next hp =>
      split
      · simp [Run.after]
      · next hrun =>
        have hlt := budget_lt_of_pass hp hrun
        rw [ih _ hlt (_ ++ found) (_ ++ _ :: past) _ _ _ rfl, ih _ hlt _ (_ ++ [_]) _ _ _ rfl]
        simp [Run.after, Function.comp_def]
    · simp [Run.after]

/-- A pass rolls the dice that are pending, and those on their highest face are pending next. -/
theorem passes_eq (sides : Nat) (m : Modifiers) (pass pending : Nat) :
    passes (σ := σ) sides m pass pending =
      if 0 < pending then do
        Roller.report (.exploding pass pending)
        let faces ← Roller.times pending (rollOne sides m)
        let more ← passes sides m (pass + 1) (faces.count sides)
        pure (faces ++ more)
      else pure [] := by
  ext1
  funext s
  change passesFrom sides m [] [] pass pending s = _
  unfold passesFrom
  split
  · rw [Roller.run_bind, Roller.run_report]
    dsimp only
    rw [Roller.run_bind]
    split
    · next hrun => rw [hrun]; rfl
    · next faces t log hrun =>
      have hlater : (passes sides m (pass + 1) (faces.count sides)).run t =
        passesFrom sides m [] [] (pass + 1) (faces.count sides) t := rfl
      rw [hrun, passesFrom_eq]
      dsimp only
      rw [Roller.run_bind, hlater]
      cases (passesFrom sides m [] [] (pass + 1) (faces.count sides) t).outcome <;>
        simp [Run.after]
  · rfl

/-- The extra dice that the dice on their highest face bring about. Dice with fewer than two sides
do not explode, nor do dice that a reroll rule forces to their highest face. -/
def explode (faces : List Nat) (sides : Nat) (m : Modifiers) : Roller σ (List Nat) :=
  if sides < 2 then pure []
  else if m.forcesMaxFace sides then do
    Roller.report (.explosionRefused sides)
    pure []
  else passes sides m 1 (faces.count sides)

/-! ## Fudge dice -/

/-- Rolls Fudge dice, which are dice with three sides that count from -1. -/
def rollFudge (count : Nat) : Roller σ (List Int) := do
  let faces ← Roller.times count (Roller.draw 3)
  pure (faces.map fun (face : Nat) => (face : Int) - 2)

end Tabletop
