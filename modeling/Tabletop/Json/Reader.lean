import Tabletop.Json.Token

/-!
# Reading a JSON text

The tokens of a text are read one after the other by a machine whose state says what may come next
and which containers are open around it. A text is read if the machine ends on a whole value with
no container open.
-/

namespace Tabletop.Json

/-- A container whose end is still to come. What it holds stands last first. -/
inductive Frame where
  /-- An array with the items before the one at hand. -/
  | array (items : List Json)
  /-- An object with the members before the one at hand, and its key. -/
  | object (members : List (Option String × Json)) (key : Option String)
  deriving Repr

/-- What may come next. The innermost container stands first on the stack. -/
inductive State where
  /-- A value. -/
  | value (stack : List Frame)
  /-- The first item of an array, or its end. -/
  | firstItem (stack : List Frame)
  /-- The first key of an object, or its end. -/
  | firstKey (stack : List Frame)
  /-- A key. -/
  | key (members : List (Option String × Json)) (stack : List Frame)
  /-- The colon behind a key. -/
  | colon (members : List (Option String × Json)) (key : Option String) (stack : List Frame)
  /-- Whatever may follow the value that is complete. -/
  | after (value : Json) (stack : List Frame)
  deriving Repr

/-- Reads the first token of a value. -/
def begin? (stack : List Frame) : Token → Option State
  | .atom v => some (.after v stack)
  | .arrayOpen => some (.firstItem stack)
  | .objectOpen => some (.firstKey stack)
  | _ => none

/-- Reads a token. -/
def State.step? : State → Token → Option State
  | value stack, t => begin? stack t
  | firstItem stack, .arrayClose => some (.after (.array []) stack)
  | firstItem stack, t => begin? (.array [] :: stack) t
  | firstKey stack, .objectClose => some (.after (.object []) stack)
  | firstKey stack, .atom (.string k) => some (.colon [] k stack)
  | key members stack, .atom (.string k) => some (.colon members k stack)
  | colon members k stack, .colon => some (.value (.object members k :: stack))
  | after v (.array items :: stack), .comma => some (.value (.array (v :: items) :: stack))
  | after v (.array items :: stack), .arrayClose =>
    some (.after (.array (v :: items).reverse) stack)
  | after v (.object members k :: stack), .comma => some (.key ((k, v) :: members) stack)
  | after v (.object members k :: stack), .objectClose =>
    some (.after (.object ((k, v) :: members).reverse) stack)
  | _, _ => none

/-- The value that has been read, if it is complete. -/
def State.finished? : State → Option Json
  | after v [] => some v
  | _ => none

/-- The value that tokens spell. -/
def ofTokens? (ts : List Token) : Option Json :=
  (ts.foldlM State.step? (.value [])).bind State.finished?

/-- The value that a text spells. -/
def read? (text : String) : Option Json := (tokens? text.toList).bind ofTokens?

end Tabletop.Json
