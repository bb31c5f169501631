import Tabletop.Text.Decimal

/-!
# Runs of digits

What `Text.digits?` finds, said without it: the text is a run of digits (`Numeral`) and a rest that
does not go on with a digit (`NoDigit`). A text splits like this in at most one way. The digits
of a printed number are such a run, and they stand for this number (`decimal_toString`).
-/

namespace Tabletop.Text

/-- A run of digits, with at least one. -/
structure Numeral (ds : List Char) : Prop where
  ne_nil : ds ≠ []
  digits : ∀ c ∈ ds, c.isDigit = true

/-- The text does not begin with a digit. -/
def NoDigit (cs : List Char) : Prop := ∀ c ∈ cs.head?, c.isDigit = false

/-- At the end there is no digit. -/
@[simp] theorem noDigit_nil : NoDigit [] := fun _ h => nomatch h

/-- Whether a digit comes next is told by the next character. -/
@[simp] theorem noDigit_cons {c : Char} {cs : List Char} :
    NoDigit (c :: cs) ↔ c.isDigit = false := by simp [NoDigit]

/-- A run of digits begins with a digit. -/
theorem Numeral.exists_cons {ds : List Char} (h : Numeral ds) :
    ∃ d rest, d.isDigit = true ∧ ds = d :: rest := by
  obtain ⟨hne, hds⟩ := h
  cases ds with
  | nil => exact absurd rfl hne
  | cons d ds => exact ⟨d, ds, hds d (.head _), rfl⟩

/-- A numeral begins with a digit. -/
theorem Numeral.not_noDigit {ds : List Char} (h : Numeral ds) (rest : List Char) :
    ¬ NoDigit (ds ++ rest) := by
  obtain ⟨d, ds, hd, rfl⟩ := h.exists_cons
  simp [hd]

/-- The digits at the head of a text are all of a run that stands in front of something else. -/
theorem digits?_append {ds rest : List Char} (hds : Numeral ds) (hrest : NoDigit rest) :
    digits? (ds ++ rest) = some (ds, rest) := by
  have htake : rest.takeWhile Char.isDigit = [] := by
    cases rest with
    | nil => rfl
    | cons c cs => simp_all
  have hdrop : rest.dropWhile Char.isDigit = rest := by
    cases rest with
    | nil => rfl
    | cons c cs => simp_all
  unfold digits?
  rw [List.takeWhile_append_of_pos hds.digits, List.dropWhile_append_of_pos hds.digits, htake,
    hdrop, List.append_nil]
  cases ds with
  | nil => exact absurd rfl hds.ne_nil
  | cons d ds => rfl

/-- Where two runs of digits end, each before something else, does not have to be marked. -/
theorem Numeral.append_inj {ds ds' rest rest' : List Char} (hds : Numeral ds) (hds' : Numeral ds')
    (hrest : NoDigit rest) (hrest' : NoDigit rest') (h : ds ++ rest = ds' ++ rest') :
    ds = ds' ∧ rest = rest' := by
  have hdigits := digits?_append hds hrest
  rw [h, digits?_append hds' hrest', Option.some.injEq, Prod.mk.injEq] at hdigits
  exact ⟨hdigits.1.symm, hdigits.2.symm⟩

/-- What is found at the head of a text is a run of digits, and no digit follows it. -/
theorem numeral_of_digits? {cs ds rest : List Char} (h : digits? cs = some (ds, rest)) :
    Numeral ds ∧ NoDigit rest := by
  have hne := (eq_append_of_digits? h).2
  unfold digits? at h
  split at h
  · cases h
  · next d ds' heq =>
    obtain ⟨rfl, rfl⟩ := Prod.mk.inj (Option.some.inj h)
    refine ⟨⟨hne, fun c hc => ?_⟩, fun c hc => ?_⟩
    · rw [← heq] at hc
      exact List.all_eq_true.1 List.all_takeWhile c hc
    · have := List.head?_dropWhile_not Char.isDigit cs
      rw [Option.mem_def.1 hc] at this
      simpa using this

/-- A text has digits at its head in exactly one way. -/
theorem digits?_eq_some_iff {cs ds rest : List Char} :
    digits? cs = some (ds, rest) ↔ cs = ds ++ rest ∧ Numeral ds ∧ NoDigit rest := by
  constructor
  · intro h
    exact ⟨(eq_append_of_digits? h).1, numeral_of_digits? h⟩
  · rintro ⟨rfl, hds, hrest⟩
    exact digits?_append hds hrest

/-- No number is found exactly where the text does not begin with a digit. -/
theorem digits?_eq_none_iff {cs : List Char} : digits? cs = none ↔ NoDigit cs := by
  cases cs with
  | nil => simp [digits?]
  | cons c cs => cases hc : c.isDigit <;> simp [digits?, hc]

/-- A run of digits can be made longer until no digit follows. -/
theorem Numeral.exists_maximal {ds : List Char} (h : Numeral ds) (rest : List Char) :
    ∃ more after, Numeral (ds ++ more) ∧ NoDigit after ∧ rest = more ++ after := by
  have hmore : ∀ c ∈ rest.takeWhile Char.isDigit, c.isDigit = true :=
    List.all_eq_true.1 List.all_takeWhile
  refine ⟨rest.takeWhile Char.isDigit, rest.dropWhile Char.isDigit, ⟨?_, ?_⟩, ?_, ?_⟩
  · simp [h.ne_nil]
  · intro c hc
    rcases List.mem_append.1 hc with hc | hc
    · exact h.digits c hc
    · exact hmore c hc
  · intro c hc
    have hstop := List.head?_dropWhile_not Char.isDigit rest
    rw [Option.mem_def.1 hc] at hstop
    simpa using hstop
  · exact List.takeWhile_append_dropWhile.symm

/-- The digits of a printed number. -/
theorem numeral_toString (n : Nat) : Numeral (toString n).toList := by
  refine ⟨?_, fun c hc => ?_⟩
  · simp
  · rw [Nat.toString_eq_repr, Nat.toList_repr] at hc
    exact Nat.isDigit_of_mem_toDigits (by decide) (by decide) hc

/-- A printed number is read as itself. -/
@[simp] theorem decimal_toString (n : Nat) : decimal (toString n).toList = n := by
  rw [Nat.toString_eq_repr, Nat.toList_repr]
  exact Nat.ofDigitChars_ten_toDigits

/-- A printed number is known by its digits, if no other digit follows. -/
theorem toString_append_inj {n n' : Nat} {rest rest' : List Char} (hrest : NoDigit rest)
    (hrest' : NoDigit rest') (h : (toString n).toList ++ rest = (toString n').toList ++ rest') :
    n = n' ∧ rest = rest' := by
  obtain ⟨hdigits, hsame⟩ :=
    (numeral_toString n).append_inj (numeral_toString n') hrest hrest' h
  refine ⟨?_, hsame⟩
  rw [← decimal_toString n, hdigits, decimal_toString]

end Tabletop.Text
