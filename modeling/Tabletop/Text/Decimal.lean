/-!
# Decimal numbers

Numbers written with the ASCII digits. `digits?` takes a number from the head of a text, with as
many digits as there are and at least one; `unsigned?` reads a whole text as one number.
-/

namespace Tabletop.Text

/-- The number that a run of digits stands for. -/
def decimal (digits : List Char) : Nat := Nat.ofDigitChars 10 digits 0

/-- The digits at the head of a text and what follows them, if there is a digit. -/
def digits? (cs : List Char) : Option (List Char × List Char) :=
  match cs.takeWhile Char.isDigit with
  | [] => none
  | d :: ds => some (d :: ds, cs.dropWhile Char.isDigit)

/-- The number that a whole text spells, if it is nothing but digits and the number is within a
limit. -/
def unsigned? (limit : Nat) (cs : List Char) : Option Nat :=
  if cs.isEmpty || !cs.all Char.isDigit || limit < decimal cs then none else some (decimal cs)

/-- The sign at the head of a text, empty if there is none, and what follows. -/
def sign : List Char → List Char × List Char
  | '+' :: rest => (['+'], rest)
  | '-' :: rest => (['-'], rest)
  | cs => ([], cs)

/-- A sign may be absent. -/
theorem length_sign_le (cs : List Char) : (sign cs).2.length ≤ cs.length := by
  unfold sign
  split <;> simp

/-- Digits are read off the front, one at least. -/
theorem eq_append_of_digits? {cs ds rest : List Char} (h : digits? cs = some (ds, rest)) :
    cs = ds ++ rest ∧ ds ≠ [] := by
  unfold digits? at h
  split at h
  · simp at h
  · next d ds' heq =>
    obtain ⟨rfl, rfl⟩ := Prod.mk.inj (Option.some.inj h)
    exact ⟨by rw [← heq, List.takeWhile_append_dropWhile], by simp⟩

/-- Digits take a character at least. -/
theorem length_lt_of_digits? {cs ds rest : List Char} (h : digits? cs = some (ds, rest)) :
    rest.length < cs.length := by
  obtain ⟨rfl, hne⟩ := eq_append_of_digits? h
  have := List.length_pos_iff.2 hne
  simp only [List.length_append]
  omega

end Tabletop.Text
