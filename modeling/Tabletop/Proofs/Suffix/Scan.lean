import Tabletop.Proofs.Suffix.Spelling
import Tabletop.Suffix.Scan

/-!
# Scanning spelled modifiers

A row of spelled modifiers is cut into exactly these modifiers, whatever they are: every spelling
begins with something other than a digit, so no number runs on into the next modifier. Conversely
every modifier that a scan finds in a text has a spelling.
-/

namespace Tabletop.Suffix

open Text (NoDigit)

section
variable {reading : Reading} {body rest : List Char} {m : Modifier}

/-- A scan cuts off a modifier that is spelled at the head of a text and that no digit follows. -/
theorem scanFrom_append (h : m.Spelling reading body) (hrest : NoDigit rest) (start : Nat) :
    scanFrom reading start (body ++ rest) =
      ⟨start, body.length, .modifier m⟩ :: scanFrom reading (start + body.length) rest := by
  have hread := h.read?_append hrest
  cases body with
  | nil => exact absurd rfl h.ne_nil
  | cons c cs =>
    rw [List.cons_append] at hread ⊢
    rw [scanFrom, Token.next, hread]
    rfl

/-- A row of spelled modifiers is cut into these modifiers. -/
theorem tokens_scanFrom_flatMap {spell : Modifier → List Char} {ms : List Modifier}
    (h : ∀ m ∈ ms, m.Spelling reading (spell m)) (start : Nat) :
    (scanFrom reading start (ms.flatMap spell)).map (·.token) = ms.map .modifier := by
  induction ms generalizing start with
  | nil => simp [scanFrom]
  | cons m ms ih =>
    have hms : ∀ m ∈ ms, m.Spelling reading (spell m) := fun m' hm' => h m' (.tail _ hm')
    have hrest : NoDigit (ms.flatMap spell) := by
      cases ms with
      | nil => exact Text.noDigit_nil
      | cons m' ms => exact (hms m' (.head _)).noDigit_append _
    rw [List.flatMap_cons, scanFrom_append (h m (.head _)) hrest, List.map_cons, ih hms]
    rfl

end

/-- Every modifier that a scan finds has a spelling. -/
theorem exists_spelling_of_mem_scanFrom {reading : Reading} {m : Modifier} {cs : List Char} :
    ∀ {start : Nat}, Token.modifier m ∈ (scanFrom reading start cs).map (·.token) →
      ∃ body, m.Spelling reading body := by
  -- A token takes up more than one character, so the induction is on the length of the text.
  induction hn : cs.length using Nat.strongRecOn generalizing cs with
  | _ n ih =>
    subst hn
    intro start hm
    cases cs with
    | nil => simp [scanFrom] at hm
    | cons c cs =>
      have hlt := (Token.next_of reading c cs).length_rest_lt
      rw [scanFrom, List.map_cons, List.mem_cons] at hm
      rcases hm with hm | hm
      · unfold Token.next at hm
        split at hm
        · next h hread =>
          obtain ⟨body, hbody, -⟩ := Modifier.exists_of_read? hread
          cases Token.modifier.inj hm
          exact ⟨body, hbody⟩
        · cases hm
      · exact ih _ hlt rfl hm

end Tabletop.Suffix
