import Tabletop.Source.Basic

/-!
# Faces from random words

A `WordSource` yields 32-bit words. `WordSource.face` makes a uniform face of them: the word,
scaled to the number of sides, gives the face in the upper half of the product and a remainder in
the lower half. If the remainder is so large that a longer word could have carried into the face, a
second word decides.
-/

namespace Tabletop

/-- Something that yields 32-bit words. -/
class WordSource (ω : Type) where
  /-- The next word, none if there is no more, and the source after it. -/
  next : ω → Option UInt32 × ω
  /-- A bound on the number of words left. -/
  budget : ω → Nat
  /-- A word lowers the bound. -/
  budget_lt : ∀ {w t : ω} {word : UInt32}, next w = (some word, t) → budget t < budget w

/-- Faces made of the words of `ω`. -/
structure Uniform (ω : Type) where
  /-- The words. -/
  words : ω
  deriving DecidableEq, Repr

/-- The product of a word and a number of sides, as upper and lower half. -/
def scale (sides : Nat) (word : UInt32) : Nat × Nat :=
  (word.toNat * sides / UInt32.size, word.toNat * sides % UInt32.size)

/-- Whether a remainder leaves the face undecided. -/
def undecided (sides lower : Nat) : Bool := (UInt32.size - sides) % UInt32.size < lower

/-- The face that the words at hand give a die. A die without sides has one face. -/
def WordSource.face {ω : Type} [WordSource ω] (sides : Nat) (w : ω) : Option Nat × ω :=
  let sides := max sides 1
  match WordSource.next w with
  | (none, t) => (none, t)
  | (some word, t) =>
    let (upper, lower) := scale sides word
    if undecided sides lower then
      match WordSource.next t with
      | (none, u) => (none, u)
      | (some word, u) =>
        let carry := if UInt32.size ≤ lower + (scale sides word).1 then 1 else 0
        (some (1 + upper + carry), u)
    else (some (1 + upper), t)

/-- A face takes a word at least. -/
theorem WordSource.budget_face_lt {ω : Type} [WordSource ω] {sides face : Nat} {w t : ω}
    (h : WordSource.face sides w = (some face, t)) :
    WordSource.budget t < WordSource.budget w := by
  unfold WordSource.face at h
  dsimp only at h
  split at h
  · simp at h
  · next hw =>
    have h₁ := WordSource.budget_lt hw
    split at h
    · split at h
      · simp at h
      · next hu =>
        have h₂ := WordSource.budget_lt hu
        obtain ⟨-, rfl⟩ := Prod.mk.inj h
        omega
    · obtain ⟨-, rfl⟩ := Prod.mk.inj h
      exact h₁

instance {ω : Type} [WordSource ω] : DieSource (Uniform ω) where
  draw sides u := ((WordSource.face sides u.words).1, ⟨(WordSource.face sides u.words).2⟩)
  budget u := WordSource.budget u.words
  budget_lt {sides s t face} h := by
    obtain ⟨h₁, rfl⟩ := Prod.mk.inj h
    exact WordSource.budget_face_lt (Prod.ext h₁ rfl)

/-- A list of words is a source of words. -/
instance : WordSource (List UInt32) where
  next
    | [] => (none, [])
    | word :: words => (some word, words)
  budget := List.length
  budget_lt {w t word} h := by
    cases w with
    | nil => simp at h
    | cons v vs => obtain ⟨-, rfl⟩ := Prod.mk.inj h; simp

end Tabletop
