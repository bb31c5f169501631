import Tabletop.Text.CaseTable

/-!
# Lowercase

The lowercase of a text. Most characters have a lowercase of their own; `İ` becomes two characters,
and the form of a capital sigma depends on its neighbours: at the end of a word it is `ς`, anywhere
else `σ`. ASCII characters are looked up in no table.
-/

namespace Tabletop.Text

/-- Whether a code point lies in one of the ranges. -/
def inRanges (ranges : List (Nat × Nat)) (n : Nat) : Bool :=
  ranges.any fun r => r.1 ≤ n && n ≤ r.2

/-- Whether a run holds a code point. -/
def CaseRun.holds (r : CaseRun) (n : Nat) : Bool :=
  r.first ≤ n && n ≤ r.last && (n - r.first) % r.step == 0

/-- The lowercase of a character by itself. -/
def lowerChar (c : Char) : List Char :=
  if c.toNat < 128 then [c.toLower]
  else if c = 'İ' then ['i', '\u0307']
  else match caseRuns.find? fun r => r.holds c.toNat with
    | none => [c]
    | some r => [Char.ofNat (c.toNat + r.shift).toNat]

/-- Whether a letter with case comes first, ignored characters aside. -/
def startsCased (cs : List Char) : Bool :=
  match cs.dropWhile fun c => inRanges ignoredRanges c.toNat with
  | [] => false
  | c :: _ => inRanges casedRanges c.toNat

/-- The lowercase of the text `after`, where `before` is what comes in front of it, last character
first. -/
def lowerFrom (before : List Char) : List Char → List Char
  | [] => []
  | c :: after =>
    let here :=
      if c = 'Σ' then if startsCased before && !startsCased after then ['ς'] else ['σ']
      else lowerChar c
    here ++ lowerFrom (c :: before) after

/-- The lowercase of a text. -/
def lower (cs : List Char) : List Char := lowerFrom [] cs

end Tabletop.Text
