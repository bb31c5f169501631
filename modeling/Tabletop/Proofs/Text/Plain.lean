import Mathlib.Data.List.DropRight
import Tabletop.Proofs.Text.Digits
import Tabletop.Text.Blank
import Tabletop.Text.Lowercase

/-!
# Plain characters

What is printed consists of ASCII characters without blanks, in lowercase but for the `F` of a Fudge
die. Trimming leaves such a text as it is, and lowercasing it looks at each character by itself.
-/

namespace Tabletop.Text

/-- A character that neither trimming nor lowercasing changes: ASCII, in lowercase, not a blank. -/
structure Plain (c : Char) : Prop where
  ascii : c.toNat < 128
  notBlank : isBlank c = false
  lower : c.toLower = c

instance (c : Char) : Decidable (Plain c) :=
  decidable_of_iff (c.toNat < 128 ∧ isBlank c = false ∧ c.toLower = c)
    ⟨fun ⟨h₁, h₂, h₃⟩ => ⟨h₁, h₂, h₃⟩, fun ⟨h₁, h₂, h₃⟩ => ⟨h₁, h₂, h₃⟩⟩

/-- A digit lies between `0` and `9`. -/
theorem toNat_of_isDigit {c : Char} (h : c.isDigit = true) : 48 ≤ c.toNat ∧ c.toNat ≤ 57 := by
  simp only [Char.isDigit, ge_iff_le, Bool.and_eq_true, decide_eq_true_eq] at h
  exact h

/-- Digits are plain. -/
theorem plain_of_isDigit {c : Char} (h : c.isDigit = true) : Plain c := by
  obtain ⟨hlo, hhi⟩ := toNat_of_isDigit h
  refine ⟨by omega, ?_, ?_⟩
  · simp only [isBlank, Bool.or_eq_false_iff, Bool.and_eq_false_iff, decide_eq_false_iff_not,
      beq_eq_false_iff_ne]
    omega
  · have hupper : ¬ (65 ≤ c.toNat ∧ c.toNat ≤ 90) := by omega
    exact dif_neg hupper

/-- Numerals are made of plain characters. -/
theorem Numeral.plain {ds : List Char} (h : Numeral ds) : ∀ c ∈ ds, Plain c :=
  fun c hc => plain_of_isDigit (h.digits c hc)

/-- The characters of a printed number are plain. -/
theorem plain_toString (n : Nat) : ∀ c ∈ (toString n).toList, Plain c := (numeral_toString n).plain

/-- ASCII is lowercased character by character, whatever follows. -/
theorem lowerFrom_append_of_ascii {cs : List Char} (h : ∀ c ∈ cs, c.toNat < 128)
    (before after : List Char) :
    lowerFrom before (cs ++ after) = cs.map Char.toLower ++ lowerFrom (cs.reverse ++ before) after := by
  induction cs generalizing before with
  | nil => rfl
  | cons c cs ih =>
    have hc := h c (.head _)
    have hsigma : c ≠ 'Σ' := by
      rintro rfl
      exact absurd hc (by decide)
    rw [List.cons_append, lowerFrom, if_neg hsigma, ih fun d hd => h d (.tail _ hd)]
    simp [lowerChar, hc]

/-- ASCII is lowercased character by character, whatever stands before it. -/
theorem lowerFrom_of_ascii {cs : List Char} (h : ∀ c ∈ cs, c.toNat < 128) (before : List Char) :
    lowerFrom before cs = cs.map Char.toLower := by
  have happend := lowerFrom_append_of_ascii h before []
  rwa [List.append_nil, lowerFrom, List.append_nil] at happend

/-- ASCII text is lowercased one character at a time. -/
theorem lower_of_ascii {cs : List Char} (h : ∀ c ∈ cs, c.toNat < 128) :
    lower cs = cs.map Char.toLower := lowerFrom_of_ascii h []

/-- Plain characters are in lowercase. -/
theorem map_toLower_of_plain {cs : List Char} (h : ∀ c ∈ cs, Plain c) :
    cs.map Char.toLower = cs := by
  rw [List.map_congr_left fun c hc => (h c hc).lower]
  exact List.map_id' cs

/-- Lowercasing leaves plain text as it is. -/
theorem lower_of_plain {cs : List Char} (h : ∀ c ∈ cs, Plain c) : lower cs = cs := by
  rw [lower_of_ascii fun c hc => (h c hc).ascii, map_toLower_of_plain h]

/-- Trimming leaves text without blanks as it is. -/
theorem trim_of_notBlank {cs : List Char} (h : ∀ c ∈ cs, isBlank c = false) : trim cs = cs :=
  trim_eq_self (fun c hc => h c (List.mem_of_mem_head? hc))
    fun c hc => h c (List.mem_of_mem_getLast? hc)


/-- Trimming a text that begins without blanks takes away what is blank at the end of the rest. -/
theorem trim_append {cs : List Char} (hne : cs ≠ []) (h : ∀ c ∈ cs, isBlank c = false)
    (after : List Char) : trim (cs ++ after) = cs ++ after.rdropWhile isBlank := by
  have hdrop {ds : List Char} (hds : ds ≠ []) (hmem : ∀ c ∈ ds, isBlank c = false)
      (rest : List Char) : (ds ++ rest).dropWhile isBlank = ds ++ rest := by
    cases ds with
    | nil => exact absurd rfl hds
    | cons d ds => simp [hmem d (.head _)]
  have hback := hdrop (List.reverse_ne_nil_iff.2 hne)
    (fun c hc => h c (List.mem_reverse.1 hc)) []
  rw [List.append_nil] at hback
  unfold trim List.rdropWhile
  rw [hdrop hne h, List.reverse_append, List.dropWhile_append]
  split
  · next hblank =>
    rw [hback, List.isEmpty_iff.1 hblank]
    simp
  · simp

end Tabletop.Text
