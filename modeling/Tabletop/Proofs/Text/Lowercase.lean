import Tabletop.Text.Lowercase

/-!
# What lowercasing does not make

No character has a digit or a sign as its lowercase, but for this digit or sign: all that is changed
becomes a letter. So what lowercasing makes of a text begins with a digit or a sign only where the
text itself does (`eq_cons_of_lowerFrom`), whatever the text.
-/

namespace Tabletop.Text

/-- The characters of ASCII before its letters. The digits and the signs are among them. -/
def BeforeLetters (c : Char) : Prop := 0 < c.toNat ∧ c.toNat < 65

/-- The case table leads to letters and nothing before them. -/
theorem letters_of_mem_caseRuns : ∀ r ∈ caseRuns, 65 ≤ r.first + r.shift := by
  decide +kernel

/-- A code point that is none leads to the character 0. -/
theorem toNat_ofNat_cases (n : Nat) : (Char.ofNat n).toNat = n ∨ (Char.ofNat n).toNat = 0 := by
  by_cases h : n.isValidChar
  · exact .inl (by rw [Char.ofNat, dif_pos h]; rfl)
  · exact .inr (by rw [Char.ofNat, dif_neg h]; rfl)

/-- A letter of ASCII has a letter as its lowercase. -/
theorem toLower_of_beforeLetters {c : Char} (h : BeforeLetters c.toLower) : c.toLower = c := by
  unfold Char.toLower at h ⊢
  split
  · next hupper =>
    rw [dif_pos hupper] at h
    have hlo : 65 ≤ c.toNat := hupper.1
    have hhi : c.toNat ≤ 90 := hupper.2
    obtain ⟨-, hlt⟩ := h
    have hval : (c.val + ('a'.val - 'A'.val)).toNat = c.toNat + 32 := by
      rw [UInt32.toNat_add]
      exact Nat.mod_eq_of_lt (by show c.toNat + 32 < _; omega)
    have : c.toNat + 32 < 65 := hval ▸ hlt
    omega
  · rfl

/-- Only the character itself has a character before the letters as its lowercase. -/
theorem eq_of_lowerChar {c d : Char} {rest : List Char} (h : lowerChar c = d :: rest)
    (hd : BeforeLetters d) : c = d ∧ rest = [] := by
  unfold lowerChar at h
  split at h
  · obtain ⟨rfl, rfl⟩ := List.cons.inj h
    exact ⟨(toLower_of_beforeLetters hd).symm, rfl⟩
  · split at h
    · obtain ⟨rfl, -⟩ := List.cons.inj h
      exact absurd hd (by unfold BeforeLetters; decide)
    · split at h
      · obtain ⟨rfl, rfl⟩ := List.cons.inj h
        exact ⟨rfl, rfl⟩
      · next r hfind =>
        obtain ⟨rfl, -⟩ := List.cons.inj h
        have hholds := List.find?_some hfind
        have hletters := letters_of_mem_caseRuns r (List.mem_of_find?_eq_some hfind)
        simp only [CaseRun.holds, Bool.and_eq_true, decide_eq_true_eq] at hholds
        obtain ⟨hpos, hlt⟩ := hd
        rcases toNat_ofNat_cases (c.toNat + r.shift).toNat with heq | heq
        · omega
        · omega

/-- No character vanishes in lowercase. -/
theorem lowerChar_ne_nil (c : Char) : lowerChar c ≠ [] := by
  unfold lowerChar
  split
  · simp
  · split
    · simp
    · split <;> simp

/-- Where lowercasing leads to a text that begins before the letters, there the text begins with the
same character. -/
theorem eq_cons_of_lowerFrom {before cs rest : List Char} {d : Char}
    (h : lowerFrom before cs = d :: rest) (hd : BeforeLetters d) :
    ∃ tail, cs = d :: tail ∧ rest = lowerFrom (d :: before) tail := by
  cases cs with
  | nil => cases h
  | cons c tail =>
    unfold lowerFrom at h
    dsimp only at h
    split at h
    · -- Neither form of a small sigma comes before the letters.
      split at h
      · obtain ⟨rfl, -⟩ := List.cons.inj h
        exact absurd hd (by unfold BeforeLetters; decide)
      · obtain ⟨rfl, -⟩ := List.cons.inj h
        exact absurd hd (by unfold BeforeLetters; decide)
    · cases hlower : lowerChar c with
      | nil => exact absurd hlower (lowerChar_ne_nil c)
      | cons e es =>
        rw [hlower, List.cons_append] at h
        obtain ⟨rfl, rfl⟩ := List.cons.inj h
        obtain ⟨rfl, rfl⟩ := eq_of_lowerChar hlower hd
        exact ⟨tail, rfl, rfl⟩

end Tabletop.Text
