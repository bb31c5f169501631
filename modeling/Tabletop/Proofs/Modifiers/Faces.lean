import Tabletop.Modifiers.Faces

/-!
# The range of faces

What `Modifiers.faceRange` is meant to be: the faces of a die that no rule that keeps rolling
matches, unless the rule covers every face. Some face always stays (`exists_mayStay`), and one below
the highest stays unless the highest is forced (`exists_mayStay_ne`); `forcesMaxFace`, which looks
at two faces only, says exactly when no other face than the highest stays.
-/

namespace Tabletop

/-- A rule that matches the face below the highest but not the highest matches every face below the
highest: of the rules that spare a face, only those that match low faces do this. -/
theorem Threshold.holds_of_holds_pred {rule : Threshold} {sides face : Nat}
    (hpred : rule.holds (sides - 1) = true) (hmax : rule.holds sides = false)
    (hface : face < sides) : rule.holds face = true := by
  cases rule <;> simp [holds] at * <;> omega

/-- Looking at the lowest and the highest face is enough to see whether a rule covers all faces. -/
theorem Threshold.coversFaces_iff {rule : Threshold} {sides : Nat} (hsides : 1 ≤ sides) :
    rule.coversFaces sides = true ↔ ∀ face, 1 ≤ face ∧ face ≤ sides → rule.holds face = true := by
  rw [coversFaces, Bool.and_eq_true]
  constructor
  · rintro ⟨hlow, hhigh⟩ face hface
    cases rule <;> simp only [holds, decide_eq_true_eq] at * <;> omega
  · intro h
    exact ⟨h 1 ⟨Nat.le_refl 1, hsides⟩, h sides ⟨hsides, Nat.le_refl sides⟩⟩

namespace Modifiers

/-- A face may stay on a die: it is one of its faces, and no rule that is followed for as long as it
matches, and that leaves some face, matches it. -/
def MayStay (m : Modifiers) (sides face : Nat) : Prop :=
  (1 ≤ face ∧ face ≤ sides) ∧
    ∀ rule, m.repeating? = some rule → rule.coversFaces sides = false → rule.holds face = false

/-- No rule that is followed for as long as it matches, and that leaves some face, matches the
face. -/
def Keeps (m : Modifiers) (sides face : Nat) : Prop :=
  ∀ rule, m.repeating? = some rule → rule.coversFaces sides = false → rule.holds face = false

/-- A rule repeats if there is one and it is not for one time only. -/
theorem repeating?_eq_some_iff {m : Modifiers} {rule : Threshold} :
    m.repeating? = some rule ↔ m.rerollOnce = false ∧ m.reroll = some rule := by
  unfold repeating?
  cases m.rerollOnce <;> simp

/-- The range of faces holds exactly the faces that may stay. -/
theorem mem_faceRange_iff {m : Modifiers} {sides face : Nat} (hsides : 1 ≤ sides) :
    (m.faceRange sides).1 ≤ face ∧ face ≤ (m.faceRange sides).2 ↔ m.MayStay sides face := by
  have hmax : max sides 1 = sides := Nat.max_eq_left hsides
  unfold faceRange MayStay
  simp only [hmax]
  cases m.repeating? with
  | none => simp
  | some rule =>
    cases hc : rule.coversFaces sides with
    | true => simp [hc]
    | false =>
      cases rule <;> simp [hc, Threshold.holds] <;> omega

/-- A rule that is not followed for as long as it matches, or that covers all faces, leaves the
range of faces as it is without a rule. -/
theorem faceRange_of_free {m : Modifiers} {sides : Nat}
    (h : ∀ rule, m.repeating? = some rule → rule.coversFaces sides = true) :
    m.faceRange sides = (1, max sides 1) := by
  unfold faceRange
  cases hrule : m.repeating? with
  | none => rfl
  | some rule =>
    dsimp only
    rw [if_pos (h rule hrule)]

/-- Neither end of the range of faces is above the highest face, on a die without sides either. -/
theorem faceRange_le (m : Modifiers) (sides : Nat) :
    (m.faceRange sides).1 ≤ max sides 1 ∧ (m.faceRange sides).2 ≤ max sides 1 := by
  unfold faceRange
  dsimp only
  split
  · exact ⟨Nat.le_max_right .., Nat.le_refl _⟩
  · next rule _ =>
    split
    · exact ⟨Nat.le_max_right .., Nat.le_refl _⟩
    · next hspares =>
      -- Only a rule that spares the highest face raises the lower end.
      cases rule <;>
        simp only [Threshold.coversFaces, Threshold.holds, Bool.and_eq_true, decide_eq_true_eq]
          at hspares ⊢ <;> omega

/-! ## Some face stays -/

section
variable {m : Modifiers} {sides : Nat}

/-- A die ends on some face: a rule that leaves any face leaves the lowest or the highest. -/
theorem exists_mayStay (hsides : 1 ≤ sides) : ∃ face, m.MayStay sides face := by
  by_cases hlow : ∃ rule, m.repeating? = some rule ∧ rule.holds 1 = true
  · obtain ⟨rule, hrule, hlow⟩ := hlow
    refine ⟨sides, ⟨hsides, Nat.le_refl _⟩, fun rule' hrule' hc => ?_⟩
    cases hrule.symm.trans hrule'
    simpa [Threshold.coversFaces, hlow] using hc
  · refine ⟨1, ⟨Nat.le_refl _, hsides⟩, fun rule hrule _ => ?_⟩
    exact Bool.eq_false_iff.2 fun h => hlow ⟨rule, hrule, h⟩

/-- Both ends of the range of faces may stay. -/
theorem mayStay_faceRange (hsides : 1 ≤ sides) :
    m.MayStay sides (m.faceRange sides).1 ∧ m.MayStay sides (m.faceRange sides).2 := by
  obtain ⟨face, hface⟩ := exists_mayStay (m := m) hsides
  obtain ⟨hlo, hhi⟩ := (mem_faceRange_iff hsides).2 hface
  have hle := Nat.le_trans hlo hhi
  exact ⟨(mem_faceRange_iff hsides).1 ⟨Nat.le_refl _, hle⟩,
    (mem_faceRange_iff hsides).1 ⟨hle, Nat.le_refl _⟩⟩

/-- If the highest face is not forced, a die can end on a lower one. -/
theorem exists_mayStay_ne (hsides : 2 ≤ sides) (h : m.forcesMaxFace sides = false) :
    ∃ face, m.MayStay sides face ∧ face ≠ sides := by
  unfold forcesMaxFace at h
  cases hrule : m.repeating? with
  | none =>
    refine ⟨1, ⟨⟨Nat.le_refl _, by omega⟩, fun rule hrule' => ?_⟩, by omega⟩
    rw [hrule] at hrule'
    cases hrule'
  | some rule =>
    rw [hrule] at h
    have hkeep (face : Nat) (hface : 1 ≤ face ∧ face < sides)
        (hk : rule.coversFaces sides = false → rule.holds face = false) :
        ∃ face, m.MayStay sides face ∧ face ≠ sides := by
      refine ⟨face, ⟨⟨hface.1, by omega⟩, fun rule' hrule' hc => ?_⟩, by omega⟩
      cases hrule.symm.trans hrule'
      exact hk hc
    cases hmax : rule.holds sides with
    | true =>
      -- The rule matches the highest face, so it leaves the lowest or none at all.
      refine hkeep 1 ⟨Nat.le_refl _, by omega⟩ fun hc => ?_
      simpa [Threshold.coversFaces, hmax] using hc
    | false =>
      refine hkeep (sides - 1) ⟨by omega, by omega⟩ fun _ => ?_
      simpa [hsides, hmax] using h

/-- The highest face is forced exactly if some rule is followed for as long as it matches, leaves a
face, and leaves none but the highest. -/
theorem forcesMaxFace_iff (hsides : 2 ≤ sides) :
    m.forcesMaxFace sides = true ↔
      (∃ rule, m.repeating? = some rule ∧ rule.coversFaces sides = false) ∧
        ∀ face, m.MayStay sides face ↔ face = sides := by
  constructor
  · intro h
    unfold forcesMaxFace at h
    split at h
    · next rule hrule =>
      simp only [Bool.and_eq_true, decide_eq_true_eq, Bool.not_eq_true'] at h
      obtain ⟨⟨-, hpred⟩, hmax⟩ := h
      have hc : rule.coversFaces sides = false := by simp [Threshold.coversFaces, hmax]
      refine ⟨⟨rule, hrule, hc⟩, fun face => ⟨fun hstay => ?_, ?_⟩⟩
      · rcases Nat.lt_or_eq_of_le hstay.1.2 with hlt | heq
        · have hholds := Threshold.holds_of_holds_pred hpred hmax hlt
          rw [hstay.2 rule hrule hc] at hholds
          cases hholds
        · exact heq
      · rintro rfl
        refine ⟨⟨by omega, Nat.le_refl _⟩, fun rule' hrule' _ => ?_⟩
        cases hrule.symm.trans hrule'
        exact hmax
    · cases h
  · rintro ⟨-, honly⟩
    cases h : m.forcesMaxFace sides with
    | true => rfl
    | false =>
      obtain ⟨face, hstay, hne⟩ := exists_mayStay_ne hsides h
      exact absurd ((honly face).1 hstay) hne

end

end Modifiers

end Tabletop
