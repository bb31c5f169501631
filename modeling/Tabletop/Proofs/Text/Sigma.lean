import Tabletop.Text.Lowercase

/-!
# Lowercasing in parts

The lowercase of a text is not the lowercase of its parts side by side: the form of a small sigma at
the seam depends on both. This is all that depends on it (`medial_lower_append`).
-/

namespace Tabletop.Text

/-- The character with a small sigma in its medial form, whatever its place. -/
def medial (c : Char) : Char := if c = 'ς' then 'σ' else c

/-- ASCII has no final sigma. -/
theorem medial_of_ascii {c : Char} (h : c.toNat < 128) : medial c = c := by
  have hne : c ≠ 'ς' := by
    rintro rfl
    exact absurd h (by decide)
  exact if_neg hne

/-- So ASCII texts stay as they are. -/
theorem map_medial_of_ascii {cs : List Char} (h : ∀ c ∈ cs, c.toNat < 128) :
    cs.map medial = cs := by
  rw [List.map_congr_left fun c hc => medial_of_ascii (h c hc), List.map_id']

/-- What becomes ASCII was so before: only a sigma becomes another character, and that is a sigma
again. -/
theorem eq_of_map_medial {cs ds : List Char} (h : cs.map medial = ds)
    (hds : ∀ d ∈ ds, d.toNat < 128) : cs = ds := by
  have hsame : ∀ c ∈ cs, medial c = c := by
    intro c hc
    by_cases hsigma : c = 'ς'
    · have hlt := hds (medial c) (h ▸ List.mem_map_of_mem hc)
      rw [hsigma] at hlt
      exact absurd hlt (by decide)
    · exact if_neg hsigma
  rw [← h, List.map_congr_left hsame, List.map_id']

/-- Neither form of a sigma is a digit. -/
@[simp] theorem isDigit_medial (c : Char) : (medial c).isDigit = c.isDigit := by
  unfold medial
  split
  · next h => rw [h]; decide
  · rfl

/-- The lowercase of a character by itself, with a sigma in its medial form. -/
def medialLower (c : Char) : List Char := if c = 'Σ' then ['σ'] else (lowerChar c).map medial

/-- But for the form of a sigma, each character of a text has its own lowercase. -/
theorem medial_lowerFrom (before cs : List Char) :
    (lowerFrom before cs).map medial = cs.flatMap medialLower := by
  induction cs generalizing before with
  | nil => rfl
  | cons c cs ih =>
    have hhere : (if c = 'Σ' then if startsCased before && !startsCased cs then ['ς'] else ['σ']
        else lowerChar c).map medial = medialLower c := by
      unfold medialLower
      split
      · split <;> rfl
      · rfl
    rw [lowerFrom, List.map_append, hhere, ih, List.flatMap_cons]

/-- But for the form of a sigma, a text has the lowercase of its parts. -/
theorem medial_lower_append (as bs : List Char) :
    (lower (as ++ bs)).map medial = (lower as).map medial ++ (lower bs).map medial := by
  simp only [lower, medial_lowerFrom, List.flatMap_append]

end Tabletop.Text
