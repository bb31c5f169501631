import Tabletop.Proofs.Rolling.Steady

/-!
# Explosions that never end

Dice that can end on no face but the highest would explode for ever, and an explosion of such dice
is refused. This module shows that no explosion is refused without need and none is let through
that cannot end: the faces on which a die can end are those that may stay (`canEndOn_iff`), an
explosion that is not refused can be brought to an end at any time (`canFinish_passesFrom`), and one
that is refused would give no value on any fair source (`outcome_passes_of_forced`).
-/

namespace Tabletop

variable {sides face : Nat} {m : Modifiers}

/-- A die can end on a face: it does so on some source, with fair draws. -/
def CanEndOn (m : Modifiers) (sides face : Nat) : Prop :=
  ∃ (σ : Type) (_ : DieSource σ) (s t : σ) (log : List Entry),
    (rollOne sides m).run s = ⟨some face, t, log⟩ ∧ ∀ e ∈ log, e.Fair

/-- A die can end on exactly the faces that may stay. -/
theorem canEndOn_iff : CanEndOn m sides face ↔ m.MayStay sides face := by
  constructor
  · rintro ⟨σ, _, s, t, log, hrun, hfair⟩
    exact (rolls_of_run hrun).mayStay hfair
  · rintro ⟨hface, hkeeps⟩
    -- On a source that shows nothing but this face there is no other to end on.
    obtain ⟨x, t, log, hrun, hprice, hlog⟩ := (rollOne_ends hkeeps).exists_run
    cases Roller.price_eq_zero_iff.1 hprice
    exact ⟨Script, inferInstance, _, t, log, hrun, fun e he => (hlog e he).fair hface⟩

/-- An explosion that is not refused can be brought to an end, whatever dice it has found and
however many are pending. -/
theorem canFinish_passesFrom (hsides : 2 ≤ sides) (h : m.forcesMaxFace sides = false)
    (found : List Nat) (past : List Entry) (pass pending : Nat) :
    Roller.CanFinish (fun x => 1 ≤ x ∧ x ≤ sides) ⟨passesFrom sides m found past pass pending⟩ := by
  obtain ⟨face, ⟨hface, hkeeps⟩, hne⟩ := Modifiers.exists_mayStay_ne hsides h
  refine Roller.canFinish_of_steady hface fun first => ?_
  have ⟨extra, t, log, hrun⟩ := exists_run_passes hkeeps hne first pass
    (Nat.le_refl (2 * (pending + first.length)))
  have hrun' : passesFrom sides m [] [] pass pending (Script.steady first face _) =
      ⟨some extra, t, log⟩ := hrun
  refine ⟨2 * (pending + first.length), ?_⟩
  show (passesFrom sides m found past pass pending (Script.steady first face _)).outcome.isSome = _
  rw [passesFrom_eq, hrun']
  rfl

/-- Dice that can end on no other face than the highest explode for ever: each pass is followed by
one with as many dice. -/
theorem outcome_passes_of_forced (hsides : 2 ≤ sides) (h : m.forcesMaxFace sides = true)
    {σ : Type} [DieSource σ] {s : σ} {pass pending : Nat} (hpending : 0 < pending)
    (hfair : ∀ e ∈ ((passes sides m pass pending).run s).log, e.Fair) :
    ((passes sides m pass pending).run s).outcome = none := by
  cases hrun : (passes sides m pass pending).run s with
  | mk outcome t log =>
    cases outcome with
    | none => rfl
    | some extra =>
      rw [hrun] at hfair
      have hpasses := passes_of_run hrun
      have hmax : ∀ face ∈ extra, sides = face := fun face hface =>
        (((Modifiers.forcesMaxFace_iff hsides).1 h).2 face).1 (hpasses.mayStay hfair face hface)
          |>.symm
      have hlen := hpasses.length_eq
      rw [List.count_eq_length.2 hmax] at hlen
      omega

/-- The guard against endless explosions is exact. It refuses the explosion of dice that a rule
rolls again and again until they show their highest face, and of no others. What it lets through
comes to an end from any point, whatever was drawn up to there; what it refuses would come to an
end on no fair draws, from any dice with a highest face among them. -/
theorem explosion_guard_exact (hsides : 2 ≤ sides) (m : Modifiers) :
    (m.forcesMaxFace sides = true ↔
      (∃ rule, m.repeating? = some rule ∧ rule.coversFaces sides = false) ∧
        ∀ face, CanEndOn m sides face ↔ face = sides) ∧
    (m.forcesMaxFace sides = false →
      (∀ found past pass pending, Roller.CanFinish (fun x => 1 ≤ x ∧ x ≤ sides)
        ⟨passesFrom sides m found past pass pending⟩) ∧
      ∀ faces, Roller.CanFinish (fun x => 1 ≤ x ∧ x ≤ sides) (explode faces sides m)) ∧
    (m.forcesMaxFace sides = true → ∀ faces : List Nat, sides ∈ faces →
      ∀ (σ : Type) [DieSource σ] (s : σ),
        (∀ e ∈ ((passes sides m 1 (faces.count sides)).run s).log, e.Fair) →
          ((passes sides m 1 (faces.count sides)).run s).outcome = none) := by
  refine ⟨?_, fun h => ⟨canFinish_passesFrom hsides h, fun faces => ?_⟩, ?_⟩
  · simp only [canEndOn_iff]
    exact Modifiers.forcesMaxFace_iff hsides
  · unfold explode
    rw [if_neg (Nat.not_lt.2 hsides), h]
    exact canFinish_passesFrom hsides h [] [] 1 _
  · intro h faces hmem σ _ s hfair
    exact outcome_passes_of_forced hsides h (List.count_pos_iff.2 hmem) hfair

/-- On a die with six sides, rolling again up to 5 forces a 6 and rolling again up to 4 does not. -/
theorem explosion_guard_exact_six :
    let forced : Modifiers := { reroll := some (.atMost 5) }
    let free : Modifiers := { reroll := some (.atMost 4) }
    2 ≤ 6 ∧ forced.forcesMaxFace 6 = true ∧ (∀ face, CanEndOn forced 6 face ↔ face = 6) ∧
      (∀ (σ : Type) [DieSource σ] (s : σ),
        (∀ e ∈ ((passes 6 forced 1 2).run s).log, e.Fair) →
          ((passes 6 forced 1 2).run s).outcome = none) ∧
      free.forcesMaxFace 6 = false ∧
      Roller.CanFinish (fun x => 1 ≤ x ∧ x ≤ 6) (explode [6, 3, 6] 6 free) := by
  intro forced free
  have hsides : 2 ≤ 6 := by decide
  have hforced : forced.forcesMaxFace 6 = true := by decide
  have hfree : free.forcesMaxFace 6 = false := by decide
  obtain ⟨honly, -, hnever⟩ := explosion_guard_exact hsides forced
  obtain ⟨-, hends, -⟩ := explosion_guard_exact hsides free
  exact ⟨hsides, hforced, (honly.1 hforced).2, hnever hforced [6, 3, 6] (by decide), hfree,
    (hends hfree).2 [6, 3, 6]⟩

end Tabletop
