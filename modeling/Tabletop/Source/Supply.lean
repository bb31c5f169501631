import Tabletop.Source.ChaCha
import Tabletop.Source.Script

/-!
# Any source

A source whose kind is chosen while the program runs.
-/

namespace Tabletop

/-- A source of any kind. -/
inductive Supply where
  /-- Scripted faces. -/
  | script (s : Script)
  /-- Faces made of listed words. -/
  | words (u : Uniform (List UInt32))
  /-- Faces made of the words of a seed. -/
  | seeded (u : Seeded)
  deriving Repr

namespace Supply

/-- The next face for a die. -/
def draw (sides : Nat) : Supply → Option Nat × Supply
  | script s => ((DieSource.draw sides s).1, script (DieSource.draw sides s).2)
  | words u => ((DieSource.draw sides u).1, words (DieSource.draw sides u).2)
  | seeded u => ((DieSource.draw sides u).1, seeded (DieSource.draw sides u).2)

/-- A bound on the number of faces left. -/
def budget : Supply → Nat
  | script s => DieSource.budget s
  | words u => DieSource.budget u
  | seeded u => DieSource.budget u

instance : DieSource Supply where
  draw := draw
  budget := budget
  budget_lt {sides s t face} h := by
    cases s <;> obtain ⟨h₁, rfl⟩ := Prod.mk.inj h <;>
      exact DieSource.budget_lt (Prod.ext h₁ rfl)

end Supply

end Tabletop
