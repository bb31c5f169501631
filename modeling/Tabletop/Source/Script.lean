import Tabletop.Source.Basic

/-!
# Scripted faces

A list of faces is a source: each draw takes the next face as it stands, whatever the die.
-/

namespace Tabletop

/-- Faces that come up in this order. -/
structure Script where
  /-- The faces still to come. -/
  faces : List Nat
  deriving DecidableEq, Repr

/-- The next face of a script. -/
def Script.next (s : Script) : Option Nat × Script :=
  match s.faces with
  | [] => (none, s)
  | face :: faces => (some face, ⟨faces⟩)

instance : DieSource Script where
  draw _ s := s.next
  budget s := s.faces.length
  budget_lt {_ s t face} h := by
    obtain ⟨_ | ⟨f, fs⟩⟩ := s
    · simp [Script.next] at h
    · obtain ⟨-, rfl⟩ := Prod.mk.inj h
      simp

end Tabletop
