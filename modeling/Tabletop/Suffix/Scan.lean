import Tabletop.Modifiers
import Tabletop.Suffix.Token
import Tabletop.Text.Lowercase

/-!
# Scanning a modifier suffix

A suffix is cut from left to right into tokens, each with the place it takes up (`scan`). The
modifiers of the suffix are then what the tokens set, later ones replacing earlier ones of the same
kind (`Modifiers.ofTokens`). `Modifiers.parse` does both for a text in any case.
-/

namespace Tabletop

namespace Suffix

/-- A token and the characters it takes up. -/
structure Piece where
  /-- The index of its first character. -/
  start : Nat
  /-- How many characters it takes up. -/
  length : Nat
  /-- The token. -/
  token : Token
  deriving DecidableEq, Repr

/-- The pieces of a text whose first character has the index `start`. -/
def scanFrom (reading : Reading) (start : Nat) : List Char → List Piece
  | [] => []
  | c :: cs =>
    let head := Token.next reading c cs
    ⟨start, head.width, head.value⟩ :: scanFrom reading (start + head.width) head.rest
termination_by cs => cs.length
decreasing_by exact (Token.next_of reading c cs).length_rest_lt

/-- The pieces of a text in lowercase. -/
def scan (reading : Reading) (cs : List Char) : List Piece := scanFrom reading 0 cs

/-- The characters passed over, each with its index. -/
def skips (pieces : List Piece) : List (Char × Nat) :=
  pieces.filterMap fun p => match p.token with
    | .skipped c => some (c, p.start)
    | .modifier _ => none

end Suffix

namespace Modifiers

open Suffix in
/-- The modifiers with one more token read. A reroll replaces the rule and whether it is followed
once, together. -/
def set (m : Modifiers) : Token → Modifiers
  | .modifier .explode => { m with explode := true }
  | .modifier (.keep .highest n) => { m with keepHigh := some n }
  | .modifier (.keep .lowest n) => { m with keepLow := some n }
  | .modifier (.drop .highest n) => { m with dropHigh := some n }
  | .modifier (.drop .lowest n) => { m with dropLow := some n }
  | .modifier (.reroll once rule) => { m with reroll := some rule, rerollOnce := once }
  | .modifier (.success rule) => { m with success := some rule }
  | .skipped _ => m

/-- What a row of tokens sets. -/
def ofTokens (tokens : List Suffix.Token) : Modifiers := tokens.foldl set {}

/-- The modifiers of a suffix in any case, under a reading of its numbers. -/
def ofSuffix (reading : Reading) (cs : List Char) : Modifiers :=
  ofTokens ((Suffix.scan reading (Text.lower cs)).map (·.token))

/-- The modifiers that a suffix such as `dl1!` or `ro<2` asks for. Whatever is no modifier is
passed over. -/
def parse (text : String) : Modifiers := ofSuffix .saturating text.toList

end Modifiers

end Tabletop
