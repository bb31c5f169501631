import Tabletop.Amount
import Tabletop.Dice
import Tabletop.RollError
import Tabletop.Suffix.Scan
import Tabletop.Text.Blank

/-!
# Dice notation

A notation such as `4d6+2dl1` is a count of dice, the letter `d`, the sides or `f`, an optional flat
amount with its sign, and a suffix of modifiers; case and blanks around it do not matter.
`Layout.ofChars?` cuts a text into these parts, each number being as long as it can be, and
`Notation.parse` gives the parts their values. The two numbers that no die and no total could hold
(sides, flat amount) make the text invalid; the others are read by a `Reading`.
-/

namespace Tabletop

/-- The parts of a notation in lowercase, as they are written. -/
structure Layout where
  /-- The digits of the count. -/
  count : List Char
  /-- The digits of the sides, none for `f`. -/
  sides : Option (List Char)
  /-- Whether the flat amount has a minus, and its digits. -/
  flat : Option (Bool × List Char)
  /-- What follows. -/
  suffix : List Char
  deriving DecidableEq, Repr

namespace Layout

/-- The sides at the head of a text, and what follows. -/
def sides? : List Char → Option (Option (List Char) × List Char)
  | 'f' :: rest => some (none, rest)
  | cs => (Text.digits? cs).map fun (ds, rest) => (some ds, rest)

/-- The flat amount at the head of a text, if there is one, and what follows. A sign without a digit
belongs to the suffix. -/
def flat? : List Char → Option (Bool × List Char) × List Char
  | '+' :: rest => match Text.digits? rest with
    | some (ds, after) => (some (false, ds), after)
    | none => (none, '+' :: rest)
  | '-' :: rest => match Text.digits? rest with
    | some (ds, after) => (some (true, ds), after)
    | none => (none, '-' :: rest)
  | cs => (none, cs)

/-- The parts of a text in lowercase. -/
def ofChars? (cs : List Char) : Option Layout :=
  match Text.digits? cs with
  | some (count, 'd' :: rest) => (sides? rest).map fun (sides, rest) =>
    ⟨count, sides, (flat? rest).1, (flat? rest).2⟩
  | _ => none

/-- The die, if its sides are not too many. -/
def dice? (l : Layout) : Option Dice :=
  match l.sides with
  | none => some .fudge
  | some ds => if Text.decimal ds ≤ maxFace then some (.standard (Text.decimal ds)) else none

/-- The flat amount, if it is not too large. -/
def amount? (l : Layout) : Option Int :=
  match l.flat with
  | none => some 0
  | some (minus, ds) =>
    if (Text.decimal ds : Int) ≤ Amount.greatest then
      some (if minus then -(Text.decimal ds : Int) else Text.decimal ds)
    else none

end Layout

/-- A notation and what its parts stand for, before it is known whether it may be rolled. -/
structure Notation where
  /-- The text as typed, without the blanks around it. -/
  text : String
  /-- The number of dice. -/
  count : Nat
  /-- The kind of die. -/
  dice : Dice
  /-- The flat amount, 0 if there is none. -/
  flat : Int
  /-- The modifiers of the suffix. -/
  modifiers : Modifiers
  deriving DecidableEq, Repr

namespace Notation

/-- The parts of a text in any case. -/
def layout? (cs : List Char) : Option Layout := Layout.ofChars? (Text.lower cs)

/-- The notation with the given parts. -/
def ofLayout? (reading : Reading) (text : String) (l : Layout) : Option Notation :=
  match l.dice?, l.amount? with
  | some dice, some flat =>
    some ⟨text, reading.count (Text.decimal l.count), dice, flat, .ofSuffix reading l.suffix⟩
  | _, _ => none

/-- The notation that a text spells, under a reading of its numbers. -/
def parseWith (reading : Reading) (input : String) : Except RollError Notation :=
  let cs := Text.trim input.toList
  let text := String.ofList cs
  match (layout? cs).bind (ofLayout? reading text) with
  | some n => .ok n
  | none => .error (.invalidNotation text)

/-- The notation that a text spells. -/
def parse (input : String) : Except RollError Notation := parseWith .saturating input

/-- The characters of the suffix that were passed over, each with its place in the suffix. -/
def skips (n : Notation) : List (Char × Nat) :=
  match layout? n.text.toList with
  | some l => Suffix.skips (Suffix.scan .saturating (Text.lower l.suffix))
  | none => []

end Notation

end Tabletop
