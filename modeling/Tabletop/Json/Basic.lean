/-!
# JSON values and their text

The tree of a JSON text and two ways to write it: without a blank (`Json.compact`), and with one
item or member a line, indented by two blanks (`Json.pretty`). Integers are kept exactly, all other
numbers as they are spelled.
-/

namespace Tabletop

/-- The tree of a JSON text. A string has no text if its escapes leave half of a surrogate pair by
itself; the members of an object keep their order and may repeat a key. -/
inductive Json where
  /-- `null` -/
  | null
  /-- `true` or `false` -/
  | bool (b : Bool)
  /-- A number without fraction and exponent, other than `-0`. -/
  | int (n : Int)
  /-- Any other number, as spelled. -/
  | number (literal : String)
  /-- A string. -/
  | string (s : Option String)
  /-- An array. -/
  | array (items : List Json)
  /-- An object. -/
  | object (members : List (Option String × Json))
  deriving Repr, Inhabited

namespace Json

/-- A string value. -/
def text (s : String) : Json := string (some s)

/-- An object with these members. -/
def record (members : List (String × Json)) : Json :=
  object (members.map fun (name, value) => (some name, value))

/-- A value or `null`. -/
def ofOption {α : Type} (f : α → Json) : Option α → Json
  | none => null
  | some a => f a

/-- A natural number. -/
def nat (n : Nat) : Json := int n

/-! ## Writing -/

/-- The hexadecimal digits of a number below 256, in lowercase. -/
def hexByte (n : Nat) : List Char := [Nat.digitChar (n / 16), Nat.digitChar (n % 16)]

/-- A character inside a string. -/
def escape (c : Char) : List Char :=
  if c = '"' then ['\\', '"']
  else if c = '\\' then ['\\', '\\']
  else if c = '\u0008' then ['\\', 'b']
  else if c = '\u000c' then ['\\', 'f']
  else if c = '\n' then ['\\', 'n']
  else if c = '\r' then ['\\', 'r']
  else if c = '\t' then ['\\', 't']
  else if c.toNat < 0x20 then ['\\', 'u', '0', '0'] ++ hexByte c.toNat
  else [c]

/-- A string in quotes. One without text is written as half of a surrogate pair. -/
def quote : Option String → String
  | some s => String.ofList ('"' :: (s.toList.flatMap escape ++ ['"']))
  | none => "\"\\ud800\""

/-- A value that holds no other; nothing for a container. -/
def atom : Json → String
  | null => "null"
  | bool true => "true"
  | bool false => "false"
  | int n => toString n
  | number literal => literal
  | string s => quote s
  | array _ | object _ => ""

mutual

/-- The text of a value without blanks. -/
def compact : Json → String
  | array [] => "[]"
  | array (item :: items) => "[" ++ compact item ++ compactItems items ++ "]"
  | object [] => "\x7b\x7d"
  | object ((key, value) :: members) =>
    "\x7b" ++ quote key ++ ":" ++ compact value ++ compactMembers members ++ "\x7d"
  | leaf => atom leaf

/-- The items after the first. -/
def compactItems : List Json → String
  | [] => ""
  | item :: items => "," ++ compact item ++ compactItems items

/-- The members after the first. -/
def compactMembers : List (Option String × Json) → String
  | [] => ""
  | (key, value) :: members =>
    "," ++ quote key ++ ":" ++ compact value ++ compactMembers members

end

/-- A line break and the indentation of a level. -/
def newline (level : Nat) : String := "\n" ++ String.ofList (List.replicate (2 * level) ' ')

mutual

/-- The text of a value over several lines, at a level of indentation. -/
def prettyAt (level : Nat) : Json → String
  | array [] => "[]"
  | array (item :: items) =>
    "[" ++ newline (level + 1) ++ prettyAt (level + 1) item ++ prettyItems (level + 1) items
      ++ newline level ++ "]"
  | object [] => "\x7b\x7d"
  | object ((key, value) :: members) =>
    "\x7b" ++ newline (level + 1) ++ quote key ++ ": " ++ prettyAt (level + 1) value
      ++ prettyMembers (level + 1) members ++ newline level ++ "\x7d"
  | leaf => atom leaf

/-- The items after the first. -/
def prettyItems (level : Nat) : List Json → String
  | [] => ""
  | item :: items => "," ++ newline level ++ prettyAt level item ++ prettyItems level items

/-- The members after the first. -/
def prettyMembers (level : Nat) : List (Option String × Json) → String
  | [] => ""
  | (key, value) :: members =>
    "," ++ newline level ++ quote key ++ ": " ++ prettyAt level value ++ prettyMembers level members

end

/-- The text of a value over several lines. -/
def pretty (j : Json) : String := prettyAt 0 j

end Json

end Tabletop
