import Tabletop.Notation

/-!
# The event log

What reading a notation and rolling dice report while they work, and how a report reads in a log.
-/

namespace Tabletop

/-- A report of what reading or rolling just did. -/
inductive Event where
  /-- A character of a suffix was passed over. -/
  | skipped (ch : Char) (position : Nat)
  /-- A text was read as a notation. -/
  | parsed (n : Notation)
  /-- The reroll rule covers every face, so the first face is kept. -/
  | rerollCovers (sides : Nat) (rule : Threshold)
  /-- A die that shows `face` is rolled again. -/
  | rerolling (face : Nat) (rule : Threshold)
  /-- Explosion is refused, because every die would end on its highest face. -/
  | explosionRefused (sides : Nat)
  /-- Pass number `pass` of an explosion rolls `pending` dice. -/
  | exploding (pass pending : Nat)
  /-- An explosion ended after `extra` dice. -/
  | exploded (extra : Nat)
  /-- A notation was rolled. -/
  | evaluated (text : String) (kept : Nat) (total modifiedTotal : Int)
  deriving DecidableEq, Repr

/-- How much a report matters. -/
inductive Level where
  /-- Each small step. -/
  | trace
  /-- The outcome of a larger one. -/
  | debug
  /-- What concerns whoever runs the program. -/
  | info
  deriving DecidableEq, Repr

/-- The place of a level, from what matters least. -/
def Level.rank : Level → Nat
  | trace => 0
  | debug => 1
  | info => 2

/-- A report as a log gets it. -/
structure Report where
  /-- How much it matters. -/
  level : Level
  /-- What happened. -/
  message : String
  /-- The particulars, each with its name. -/
  fields : List (String × String)
  deriving DecidableEq, Repr

namespace Event

/-- How much the event matters. -/
def level : Event → Level
  | skipped .. | rerolling .. | exploding .. => .trace
  | parsed .. | rerollCovers .. | explosionRefused .. | exploded .. | evaluated .. => .debug

/-- What happened. -/
def message : Event → String
  | skipped .. => "skipping modifier character"
  | parsed .. => "parsed notation"
  | rerollCovers .. => "reroll matches every face, keeping first draw"
  | rerolling .. => "rerolling"
  | explosionRefused .. => "every die would reroll to its maximum, not exploding"
  | exploding .. => "exploding"
  | exploded .. => "explosion finished"
  | evaluated .. => "evaluated roll"

/-- The particulars, each with its name. -/
def fields : Event → List (String × String)
  | skipped ch position => [("ch", ch.toString), ("position", toString position)]
  | parsed n =>
    [("notation", n.text), ("count", toString n.count), ("dice", n.dice.render),
      ("modifier", toString n.flat), ("modifiers", n.modifiers.render)]
  | rerollCovers sides rule => [("sides", toString sides), ("reroll", rule.render)]
  | rerolling face rule => [("value", toString face), ("reroll", rule.render)]
  | explosionRefused sides => [("sides", toString sides)]
  | exploding pass pending => [("pass", toString pass), ("pending", toString pending)]
  | exploded extra => [("extra", toString extra)]
  | evaluated text kept total modifiedTotal =>
    [("notation", text), ("dice", toString kept), ("total", toString total),
      ("modified_total", toString modifiedTotal)]

/-- The report of an event. -/
def report (e : Event) : Report := ⟨e.level, e.message, e.fields⟩

end Event

/-- The reports of reading a suffix in any case. -/
def Modifiers.events (text : String) : List Event :=
  (Suffix.skips (Suffix.scan .saturating (Text.lower text.toList))).map fun (c, i) => .skipped c i

/-- The reports of having read a notation. -/
def Notation.events (n : Notation) : List Event :=
  n.skips.map (fun (c, i) => .skipped c i) ++ [.parsed n]

end Tabletop
