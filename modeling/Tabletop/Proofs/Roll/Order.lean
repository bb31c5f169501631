import Tabletop.Proofs.Modifiers.Slice
import Tabletop.Proofs.Rolling.Parallel
import Tabletop.Roll
import Tabletop.Source.Script

/-!
# The order of dice

What comes of a roll does not depend on the order in which the base dice came, nor on how many
rerolls each of them took. After the base dice the roll looks at them through what all orders have
in common: how many show the highest face, how many there are, and which of them count. So it goes
the same way on any source that has the same faces to offer from there on (`Alike`).
-/

namespace Tabletop

/-! ## Sources that answer alike -/

/-- What a source answers to dice with these sides, one after the other. -/
def answers {σ : Type} [DieSource σ] : List Nat → σ → List (Option Nat)
  | [], _ => []
  | sides :: later, s => (DieSource.draw sides s).1 :: answers later (DieSource.draw sides s).2

/-- The sources answer alike, whatever dice ask. -/
def Alike {σ τ : Type} [DieSource σ] [DieSource τ] (s : σ) (t : τ) : Prop :=
  ∀ asked, answers asked s = answers asked t

section
variable {σ τ : Type} [DieSource σ] [DieSource τ]

/-- Sources that answer alike go on to do so after a draw. -/
theorem Alike.draw {s : σ} {t : τ} (h : Alike s t) (sides : Nat) :
    (DieSource.draw sides s).1 = (DieSource.draw sides t).1 ∧
      Alike (DieSource.draw sides s).2 (DieSource.draw sides t).2 := by
  have hcons := fun later => List.cons.inj (h (sides :: later))
  exact ⟨(hcons []).1, fun later => (hcons later).2⟩

/-- A draw comes to the same on sources that answer alike. -/
theorem draw_match (sides : Nat) :
    Roller.Match (Alike (σ := σ) (τ := τ)) (fun _ => True) (Roller.draw sides)
      (Roller.draw sides) := by
  intro s t h
  obtain ⟨hface, hrest⟩ := h.draw sides
  cases hs : DieSource.draw sides s with
  | mk face? u =>
    cases ht : DieSource.draw sides t with
    | mk face?' v =>
      rw [hs, ht] at hface hrest
      cases hface
      cases face? with
      | none =>
        rw [Roller.run_draw_of_none hs, Roller.run_draw_of_none ht]
        exact ⟨rfl, hrest, rfl, fun _ _ => trivial⟩
      | some face =>
        rw [Roller.run_draw_of_some hs, Roller.run_draw_of_some ht]
        exact ⟨rfl, hrest, rfl, fun _ _ => trivial⟩

end

/-! ## What all orders have in common -/

section
variable {base base' : List Nat}

/-- An explosion does not depend on the order of the dice that explode. -/
theorem explode_perm {σ : Type} [DieSource σ] (h : base.Perm base') (sides : Nat)
    (m : Modifiers) : explode (σ := σ) base sides m = explode base' sides m := by
  unfold explode
  rw [h.count_eq]

/-- A score does not depend on the order in which dice were rolled. -/
theorem Roll.score_perm (r : Roll) (h : base.Perm base') : r.score base = r.score base' := by
  unfold score
  rw [Modifiers.select_perm h, h.length_eq]

/-- What follows the base dice does not depend on their order. -/
theorem Roll.finish_perm {σ : Type} [DieSource σ] (r : Roll) (sides : Nat)
    (h : base.Perm base') : r.finish (σ := σ) sides base = r.finish sides base' := by
  have hscore := fun extra => r.score_perm (h.append_right extra)
  unfold finish
  simp only [explode_perm h, r.score_perm h, hscore]

end

namespace Roll

/-- If on two sources the base dice come on the same faces in any order, and the sources answer
alike from there on, the roll comes to the same outcome on both, or runs dry on both. After the base
dice the logs are the same, draw by draw. -/
theorem roll_perm {r : Roll} {sides : Nat} (hdice : r.dice = .standard sides) {σ τ : Type}
    [DieSource σ] [DieSource τ] {s u : σ} {t v : τ} {base base' : List Nat}
    {log log' : List Entry}
    (hbase : (Roller.times r.count (rollOne sides r.modifiers)).run s = ⟨some base, u, log⟩)
    (hbase' : (Roller.times r.count (rollOne sides r.modifiers)).run t = ⟨some base', v, log'⟩)
    (hperm : base.Perm base') (halike : Alike u v) :
    (r.roll.run s).outcome = (r.roll.run t).outcome ∧
      Alike (r.roll.run s).rest (r.roll.run t).rest ∧
      ∃ later, (r.roll.run s).log = log ++ later ∧ (r.roll.run t).log = log' ++ later := by
  have hfinish : ((r.finish sides base).run u).Matches Alike (fun _ => True)
      ((r.finish sides base').run v) := by
    rw [r.finish_perm sides hperm]
    exact finish_match (fun _ => trivial) (draw_match sides) base' u v halike
  rw [roll_eq_finish hdice, roll_eq_finish hdice, Roller.run_bind, Roller.run_bind, hbase, hbase']
  exact ⟨hfinish.outcome, hfinish.rest, _, rfl, congrArg (log' ++ ·) hfinish.log.symm⟩

/-- Two dice that explode. On one source the second takes a reroll to end where the first ends on
the other. -/
theorem roll_perm_rerolled :
    let r : Roll := ⟨"2d6!r<1", 2, .standard 6, 0, { explode := true, reroll := some (.atMost 1) }⟩
    let s : Script := ⟨[6, 1, 2, 4, 3]⟩
    let t : Script := ⟨[2, 6, 4, 3]⟩
    ((Roller.times r.count (rollOne 6 r.modifiers)).run s).outcome = some [6, 2] ∧
      ((Roller.times r.count (rollOne 6 r.modifiers)).run t).outcome = some [2, 6] ∧
      [6, 2].Perm [2, 6] ∧ (r.roll.run s).outcome = (r.roll.run t).outcome ∧
      (r.roll.run t).outcome.isSome = true := by
  intro r s t
  have hbase : ((Roller.times r.count (rollOne 6 r.modifiers)).run s).outcome = some [6, 2] := by
    decide +kernel
  have hbase' : ((Roller.times r.count (rollOne 6 r.modifiers)).run t).outcome = some [2, 6] := by
    decide +kernel
  have hperm : [6, 2].Perm [2, 6] := List.Perm.swap 2 6 []
  have hrest : ((Roller.times r.count (rollOne 6 r.modifiers)).run s).rest =
      ((Roller.times r.count (rollOne 6 r.modifiers)).run t).rest := by
    decide +kernel
  have halike : Alike ((Roller.times r.count (rollOne 6 r.modifiers)).run s).rest
      ((Roller.times r.count (rollOne 6 r.modifiers)).run t).rest := by
    rw [hrest]
    exact fun _ => rfl
  have hsame := roll_perm rfl (Run.eq_of_outcome hbase) (Run.eq_of_outcome hbase') hperm halike
  exact ⟨hbase, hbase', hperm, hsame.1, by decide +kernel⟩

end Roll

end Tabletop
