import Tabletop.Json.Reader

/-!
# Records and variants in JSON

How records and variants are taken from JSON values. A record is an object in which no member of the
record is repeated and every key has a text, or an array with the members in order. A variant is its
name, or an object with its name as the only key. Numbers are integers within a width.
-/

namespace Tabletop.Json

/-- The members with this name. -/
def named (name : String) (members : List (Option String × Json)) : List Json :=
  members.filterMap fun (key, value) => if key = some name then some value else none

/-- The member with this name: none if it is absent, and no answer if it is repeated. -/
def member? (members : List (Option String × Json)) (name : String) : Option (Option Json) :=
  match named name members with
  | [] => some none
  | [value] => some (some value)
  | _ => none

/-- The members of a record, in the order of their names. An array has to give at least the first
`least` of them. -/
def record? (names : List String) (least : Nat) : Json → Option (List (Option Json))
  | object members =>
    if members.all fun (key, _) => key.isSome then names.mapM (member? members) else none
  | array items =>
    if least ≤ items.length && items.length ≤ names.length then
      some (items.map some ++ List.replicate (names.length - items.length) none)
    else none
  | _ => none

/-- The name of a variant and what comes with it. -/
def variant? : Json → Option (String × Option Json)
  | string (some name) => some (name, none)
  | object [(some name, value)] => some (name, some value)
  | _ => none

/-- An integer within bounds. -/
def int? (least greatest : Int) : Json → Option Int
  | int n => if least ≤ n ∧ n ≤ greatest then some n else none
  | _ => none

/-- A natural number up to a bound. -/
def nat? (greatest : Nat) : Json → Option Nat
  | int (.ofNat n) => if n ≤ greatest then some n else none
  | _ => none

/-- A truth value. -/
def bool? : Json → Option Bool
  | bool b => some b
  | _ => none

/-- A text. -/
def text? : Json → Option String
  | string s => s
  | _ => none

/-- The items of an array, each taken by `f`. -/
def list? {α : Type} (f : Json → Option α) : Json → Option (List α)
  | array items => items.mapM f
  | _ => none

/-- A member that may be absent or `null`. -/
def optional? {α : Type} (f : Json → Option α) : Option Json → Option (Option α)
  | none | some null => some none
  | some value => (f value).map some

/-- A member that stands for a value of its own when it is absent. -/
def defaulted? {α : Type} (f : Json → Option α) (usual : α) : Option Json → Option α
  | none => some usual
  | some value => f value

end Tabletop.Json
