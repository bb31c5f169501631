import Tabletop.Proofs.Modifiers.Saturation
import Tabletop.Proofs.Suffix.Scan
import Tabletop.Proofs.Text.Plain

/-!
# Readings commute with scanning

A reading decides what a number stands for, not where it ends. So a suffix is cut in the same way
under every reading, and what it asks for is what it asks for exactly, read once more
(`Modifiers.ofSuffix_under`).
-/

namespace Tabletop

namespace Suffix

open Text (Plain)

/-- The modifier with its number read once more. -/
def Modifier.under (reading : Reading) : Modifier → Modifier
  | explode => explode
  | keep side n => keep side (reading.count n)
  | drop side n => drop side (reading.count n)
  | reroll once rule => reroll once (rule.mapBound reading.face)
  | success rule => success (rule.mapBound reading.face)

/-- The token with its number read once more. -/
def Token.under (reading : Reading) : Token → Token
  | modifier m => modifier (m.under reading)
  | skipped c => skipped c

section
variable (reading : Reading) (cs : List Char)

/-- A reading changes no more of a comparison than its bound. -/
theorem comparison?_under (less more : Nat → Threshold)
    (hless : ∀ n, (less n).mapBound reading.face = less (reading.face n))
    (hmore : ∀ n, (more n).mapBound reading.face = more (reading.face n)) :
    comparison? reading less more cs =
      (comparison? .exact less more cs).map (Head.map (Threshold.mapBound reading.face)) := by
  unfold comparison?
  split
  · next cs =>
    cases number? cs with
    | none => rfl
    | some h => simp [Head.map, Head.behind, Reading.exact, hless]
  · next cs =>
    cases number? cs with
    | none => rfl
    | some h => simp [Head.map, Head.behind, Reading.exact, hmore]
  · rfl

/-- A reading changes no more of a keep or drop count than its number. -/
theorem sided?_under (usual : Extreme) :
    sided? reading usual cs =
      (sided? .exact usual cs).map (Head.map fun (side, n) => (side, reading.count n)) := by
  unfold sided?
  split <;> next => cases number? _ <;> rfl

/-- Which modifier is read and where it ends is the same under every reading. -/
theorem Modifier.read?_under :
    Modifier.read? reading cs =
      (Modifier.read? .exact cs).map (Head.map (Modifier.under reading)) := by
  have inclusive (cs : List Char) :=
    comparison?_under reading cs .atMost .atLeast (fun _ => rfl) fun _ => rfl
  have strict (cs : List Char) :=
    comparison?_under reading cs .below .above (fun _ => rfl) fun _ => rfl
  unfold Modifier.read?
  split
  · rfl
  · rw [sided?_under]
    cases sided? .exact _ _ <;> rfl
  · rw [sided?_under]
    cases sided? .exact _ _ <;> rfl
  · rw [inclusive]
    cases comparison? .exact _ _ _ <;> rfl
  · rw [inclusive]
    cases comparison? .exact _ _ _ <;> rfl
  · rw [strict]
    cases comparison? .exact _ _ _ <;> rfl

/-- A reading takes the same characters for a token, and changes no more of it than its number. -/
theorem Token.next_under (c : Char) :
    Token.next reading c cs = (Token.next .exact c cs).map (Token.under reading) := by
  unfold Token.next
  rw [Modifier.read?_under]
  cases Modifier.read? .exact (c :: cs) <;> rfl

/-- A text is cut at the same places under every reading. -/
theorem tokens_scanFrom_under (start : Nat) :
    (scanFrom reading start cs).map (·.token) =
      ((scanFrom .exact start cs).map (·.token)).map (Token.under reading) := by
  -- A token takes up more than one character, so the induction is on the length of the text.
  induction hn : cs.length using Nat.strongRecOn generalizing cs start with
  | _ n ih =>
    subst hn
    cases cs with
    | nil => simp [scanFrom]
    | cons c cs =>
      have hlt := (Token.next_of .exact c cs).length_rest_lt
      rw [scanFrom, scanFrom, Token.next_under]
      simp only [List.map_cons, Head.map]
      rw [ih _ hlt _ _ rfl]

end

end Suffix

namespace Modifiers

open Suffix (Token)

/-- It does not matter whether numbers are changed before a token is set or after. -/
theorem set_under (reading : Reading) (m : Modifiers) (t : Token) :
    (m.under reading).set (t.under reading) = (m.set t).under reading := by
  cases t with
  | skipped c => rfl
  | modifier md =>
    cases md with
    | explode | reroll | success => rfl
    | keep side | drop side => cases side <;> rfl

/-- Nor does it for all tokens. -/
theorem ofTokens_under (reading : Reading) (tokens : List Token) :
    ofTokens (tokens.map (Token.under reading)) = (ofTokens tokens).under reading := by
  have hfoldl (m : Modifiers) : (tokens.map (Token.under reading)).foldl set (m.under reading) =
      (tokens.foldl set m).under reading := by
    induction tokens generalizing m with
    | nil => rfl
    | cons t tokens ih => rw [List.map_cons, List.foldl_cons, set_under, ih, List.foldl_cons]
  exact hfoldl {}

/-- A suffix asks for the same under every reading, but for the numbers. -/
theorem ofSuffix_under (reading : Reading) (cs : List Char) :
    ofSuffix reading cs = (ofSuffix .exact cs).under reading := by
  unfold ofSuffix Suffix.scan
  rw [Suffix.tokens_scanFrom_under, ofTokens_under]

/-- A suffix that spells one modifier asks for this modifier. -/
theorem ofSuffix_of_spelling {reading : Reading} {body : List Char} {m : Suffix.Modifier}
    (h : m.Spelling reading body) (hplain : ∀ c ∈ body, Text.Plain c) :
    ofSuffix reading body = ({} : Modifiers).set (.modifier m) := by
  have hscan := Suffix.scanFrom_append h Text.noDigit_nil 0
  rw [List.append_nil] at hscan
  unfold ofSuffix Suffix.scan
  rw [Text.lower_of_plain hplain, hscan]
  simp [Suffix.scanFrom, ofTokens]

end Modifiers

end Tabletop
