import Tabletop.Proofs.Rolling.Parallel
import Tabletop.Proofs.Rolling.Settled
import Tabletop.Source.Words

/-!
# Faces made of words are fair

Whatever words come, the faces made of them are faces of their dice (`face_fair`): the carry of a
second word never leads past the last face. So all that is drawn in a roll on words is fair
(`Roll.fair_of_run`).
-/

namespace Tabletop

section
variable {ω : Type} [WordSource ω]

/-- A scaled word lies below the number of sides, and so far below that the remainder of the
greatest leaves no room for a carry. -/
theorem scale_bounds {sides : Nat} (hsides : 1 ≤ sides) (word : UInt32) :
    (scale sides word).1 < sides ∧
      ((scale sides word).1 + 1 = sides → (scale sides word).2 + sides ≤ UInt32.size) := by
  have hword : word.toNat * sides ≤ (UInt32.size - 1) * sides :=
    Nat.mul_le_mul_right sides (Nat.le_pred_of_lt word.toNat_lt)
  unfold scale
  unfold UInt32.size at hword ⊢
  dsimp only
  omega

/-- A face that comes of words is one that the die has. -/
theorem face_fair {sides face : Nat} {w t : ω} (hsides : 1 ≤ sides)
    (h : WordSource.face sides w = (some face, t)) : 1 ≤ face ∧ face ≤ sides := by
  unfold WordSource.face at h
  rw [Nat.max_eq_left hsides] at h
  dsimp only at h
  split at h
  · cases h
  · next word u _ =>
    obtain ⟨hupper, hlast⟩ := scale_bounds hsides word
    split at h
    · split at h
      · cases h
      · next word' _ _ =>
        obtain ⟨hupper', -⟩ := scale_bounds hsides word'
        obtain ⟨hface, -⟩ := Prod.mk.inj h
        have hface := Option.some.inj hface
        split at hface <;> omega
    · obtain ⟨hface, -⟩ := Prod.mk.inj h
      have hface := Option.some.inj hface
      omega

/-- A draw on words is fair. -/
theorem draw_fair {sides : Nat} (hsides : 1 ≤ sides) :
    Roller.Match (σ := Uniform ω) Eq Entry.Fair (Roller.draw sides) (Roller.draw sides) := by
  rintro s _ rfl
  refine ⟨rfl, rfl, rfl, ?_⟩
  cases hs : DieSource.draw sides s with
  | mk face? t =>
    cases face? with
    | none =>
      rw [Roller.run_draw_of_none hs]
      exact List.forall_mem_singleton.2 trivial
    | some face =>
      rw [Roller.run_draw_of_some hs]
      have hface : WordSource.face sides s.words = (some face, t.words) := by
        obtain ⟨hsome, rfl⟩ := Prod.mk.inj hs
        exact Prod.ext hsome rfl
      exact List.forall_mem_singleton.2 (face_fair hsides hface)

/-- Whatever is rolled on words, all draws are fair. -/
theorem Roll.fair_of_run {r : Roll} (hdice : ∀ sides, r.dice = .standard sides → 1 ≤ sides)
    (s : Uniform ω) : ∀ e ∈ (r.roll.run s).log, e.Fair :=
  (roll_match (fun _ => trivial) (fun _ => draw_fair) hdice s s rfl).kind

end

end Tabletop
