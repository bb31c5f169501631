import Tabletop.Proofs.Rolling.Explosion

/-!
# The faces on which a die ends

The range of faces is read off the reroll rule, and whether the rule is followed depends on two
faces only. Rolling looks at each face as it comes. Both say the same of every die that has sides
(`faceRange_exact`): a die can end on the faces of the range and on no others. A rule that is
followed for as long as it matches lets none of its faces through, whatever the source shows
(`Rolls.holds_eq_false`); a rule that is not followed so, or that covers every face, lets all of
them through.
-/

namespace Tabletop

variable {sides face : Nat} {m : Modifiers} {rule : Threshold}

/-- A die that is rolled again for as long as the rule matches ends on a face that the rule does
not match. -/
theorem Settles.holds_eq_false {first last : Nat} {log : List Entry}
    (h : Settles rule false sides first last log) : rule.holds last = false := by
  induction h with
  | kept hface => exact hface
  | once _ honce => cases honce
  | again _ _ _ ih => exact ih

/-- No face that the rule matches comes of a die that is rolled again for as long as it does. -/
theorem Rolls.holds_eq_false {log : List Entry} (h : Rolls sides m face log)
    (hrule : m.repeating? = some rule) (hspares : rule.coversFaces sides = false) :
    rule.holds face = false := by
  obtain ⟨honce, hreroll⟩ := Modifiers.repeating?_eq_some_iff.1 hrule
  cases h with
  | free hm => cases hm.symm.trans hreroll
  | covered hm hcovers =>
    cases hm.symm.trans hreroll
    rw [hspares] at hcovers
    cases hcovers
  | ruled hm _ hsettles =>
    cases hm.symm.trans hreroll
    rw [honce] at hsettles
    exact hsettles.holds_eq_false

/-- Under a rule that is followed for as long as it matches, and that leaves some face, the range
holds the faces that the rule does not match. -/
theorem Modifiers.mem_faceRange_iff_of_repeating (hsides : 1 ≤ sides)
    (hrule : m.repeating? = some rule) (hspares : rule.coversFaces sides = false) :
    (m.faceRange sides).1 ≤ face ∧ face ≤ (m.faceRange sides).2 ↔
      (1 ≤ face ∧ face ≤ sides) ∧ rule.holds face = false := by
  rw [mem_faceRange_iff hsides]
  refine and_congr_right fun _ => ⟨fun h => h rule hrule hspares, fun h rule' hrule' _ => ?_⟩
  cases hrule.symm.trans hrule'
  exact h

/-- The range of faces is exact. It lies within the faces of the die, and it holds the faces on
which the die can end on fair draws. If a rule is followed for as long as it matches and does not
match every face, these are the faces that it does not match, and no other face comes of any source.
If a rule is followed once only or matches every face, or there is none, these are all faces. -/
theorem faceRange_exact (hsides : 1 ≤ sides) {lo hi : Nat} (hrange : m.faceRange sides = (lo, hi)) :
    (1 ≤ lo ∧ lo ≤ hi ∧ hi ≤ max sides 1) ∧
    (∀ face, CanEndOn m sides face ↔ lo ≤ face ∧ face ≤ hi) ∧
    (∀ rule, m.reroll = some rule → m.rerollOnce = false →
      (∃ face, (1 ≤ face ∧ face ≤ sides) ∧ rule.holds face = false) →
        (∀ face, lo ≤ face ∧ face ≤ hi ↔ (1 ≤ face ∧ face ≤ sides) ∧ rule.holds face = false) ∧
        ∀ (σ : Type) [DieSource σ] (s t : σ) (face : Nat) (log : List Entry),
          (rollOne sides m).run s = ⟨some face, t, log⟩ → rule.holds face = false) ∧
    (m.rerollOnce = true ∨ (∀ rule, m.reroll = some rule →
        ∀ face, 1 ≤ face ∧ face ≤ sides → rule.holds face = true) →
      ∀ face, lo ≤ face ∧ face ≤ hi ↔ 1 ≤ face ∧ face ≤ sides) := by
  have hlo : (m.faceRange sides).1 = lo := congrArg Prod.fst hrange
  have hhi : (m.faceRange sides).2 = hi := congrArg Prod.snd hrange
  rw [← hlo, ← hhi]
  refine ⟨?_, fun face => ?_, fun rule hrule honce hspared => ?_, fun hfree face => ?_⟩
  · obtain ⟨hstayLow, hstayHigh⟩ := Modifiers.mayStay_faceRange (m := m) hsides
    exact ⟨hstayLow.1.1, ((Modifiers.mem_faceRange_iff hsides).2 hstayLow).2,
      Nat.le_trans hstayHigh.1.2 (Nat.le_max_left ..)⟩
  · rw [canEndOn_iff, Modifiers.mem_faceRange_iff hsides]
  · obtain ⟨face, hface, hspared⟩ := hspared
    have hrepeating := Modifiers.repeating?_eq_some_iff.2 ⟨honce, hrule⟩
    have hspares : rule.coversFaces sides = false := by
      refine Bool.eq_false_iff.2 fun hcovers => ?_
      rw [(Threshold.coversFaces_iff hsides).1 hcovers face hface] at hspared
      cases hspared
    exact ⟨fun face => Modifiers.mem_faceRange_iff_of_repeating hsides hrepeating hspares,
      fun σ _ s t face log hrun => (rolls_of_run hrun).holds_eq_false hrepeating hspares⟩
  · have hcovers : ∀ rule, m.repeating? = some rule → rule.coversFaces sides = true := by
      intro rule hrule
      obtain ⟨honce, hreroll⟩ := Modifiers.repeating?_eq_some_iff.1 hrule
      rcases hfree with hfree | hfree
      · rw [honce] at hfree
        cases hfree
      · exact (Threshold.coversFaces_iff hsides).2 (hfree rule hreroll)
    rw [Modifiers.faceRange_of_free hcovers, Nat.max_eq_left hsides]

/-- On the largest die, rolling the highest face again leaves all others, rolling it again once
leaves all faces. -/
theorem faceRange_exact_largest :
    let rule := Threshold.above (maxFace - 1)
    let m : Modifiers := { reroll := some rule }
    let once : Modifiers := { m with rerollOnce := true }
    1 ≤ maxFace ∧ m.faceRange maxFace = (1, maxFace - 1) ∧ once.faceRange maxFace = (1, maxFace) ∧
      CanEndOn m maxFace (maxFace - 1) ∧ ¬ CanEndOn m maxFace maxFace ∧
      CanEndOn once maxFace maxFace ∧
      ∀ (σ : Type) [DieSource σ] (s t : σ) (face : Nat) (log : List Entry),
        (rollOne maxFace m).run s = ⟨some face, t, log⟩ → rule.holds face = false := by
  intro rule m once
  have hsides : 1 ≤ maxFace := by decide
  have hrange : m.faceRange maxFace = (1, maxFace - 1) := rfl
  have honce : once.faceRange maxFace = (1, maxFace) := rfl
  obtain ⟨-, hends, hrepeated, -⟩ := faceRange_exact hsides hrange
  obtain ⟨-, hends', -, hall⟩ := faceRange_exact hsides honce
  have hspared : ∃ face, (1 ≤ face ∧ face ≤ maxFace) ∧ rule.holds face = false :=
    ⟨1, ⟨Nat.le_refl 1, hsides⟩, by decide⟩
  refine ⟨hsides, hrange, honce, (hends _).2 (by decide), fun h => ?_, ?_,
    (hrepeated rule rfl rfl hspared).2⟩
  · exact absurd ((hends _).1 h).2 (by decide)
  · exact (hends' _).2 ((hall (.inl rfl) _).2 ⟨hsides, Nat.le_refl _⟩)

end Tabletop
