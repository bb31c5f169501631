import Tabletop.Reading
import Tabletop.Text.Blank
import Tabletop.Text.Decimal
import Tabletop.Toml.Basic

/-!
# Given values

What a setting is given as: an integer or anything else, spelled in a text (`Given.ofText`) or as a
value of a TOML document (`Given.ofValue`). In a document a table may wrap a value under the key
`wrappedKey` and then stands for it. A number beside it, under `numberKey`, is refused in every
table, so a document with one gives nothing (`isPlainValue`).
-/

namespace Tabletop

/-- A value as a layer gives it. -/
inductive Given where
  /-- An integer. -/
  | integer (n : Int)
  /-- Anything else. -/
  | other
  deriving DecidableEq, Repr

namespace Given

/-! ## Texts -/

/-- The integer that a text spells: an unsigned one of 64 bits, or else a signed one. -/
def spelled? : List Char → Option Int
  | '-' :: ds => (Text.unsigned? 0x8000000000000000 ds).map fun n => -(n : Int)
  | '+' :: ds => (Text.unsigned? maxCount ds).map Int.ofNat
  | ds => (Text.unsigned? maxCount ds).map Int.ofNat

/-- What a text gives, blanks around it aside. -/
def ofText (text : String) : Given :=
  match spelled? (Text.trim text.toList) with
  | some n => integer n
  | none => other

/-! ## Values of a document -/

/-- The key of a wrapped value. -/
def wrappedKey : String := "___figment_value_value"

/-- The key of the number of a wrapped value. -/
def numberKey : String := "___figment_value_id"

mutual

/-- What a value of a document gives. -/
def ofValue : Toml.Value → Given
  | .integer n => integer n
  | .table _ entries => ofEntries entries
  | .string _ | .float _ | .boolean _ | .moment _ | .array _ | .tables _ => other

/-- What a table gives: the value that it wraps, whatever else it holds. -/
def ofEntries : List (String × Toml.Value) → Given
  | [] => other
  | (key, value) :: entries => if key = wrappedKey then ofValue value else ofEntries entries

end

mutual

/-- Whether no table inside a value, or the value itself, has a numbered value. -/
def isPlainValue : Toml.Value → Bool
  | .table _ entries => areUnnumbered entries
  | .array items => arePlainItems items
  | .tables elements => arePlainTables elements
  | .string _ | .integer _ | .float _ | .boolean _ | .moment _ => true

/-- Whether the entries of a table are without a number. -/
def areUnnumbered : List (String × Toml.Value) → Bool
  | [] => true
  | (key, value) :: entries => key ≠ numberKey && isPlainValue value && areUnnumbered entries

/-- Whether the items of an array are without a number. -/
def arePlainItems : List Toml.Value → Bool
  | [] => true
  | item :: items => isPlainValue item && arePlainItems items

/-- Whether the tables of an array are without a number. -/
def arePlainTables : List (List (String × Toml.Value)) → Bool
  | [] => true
  | table :: tables => areUnnumbered table && arePlainTables tables

end

end Given

end Tabletop
