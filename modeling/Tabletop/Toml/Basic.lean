/-!
# TOML values

The tree of a TOML document. Floats and moments in time are kept as they are spelled. Every table
remembers how it came to be (`Toml.Origin`), because that decides whether later lines may add to it.
-/

namespace Tabletop.Toml

/-- How a table came to be. -/
inductive Origin where
  /-- By a header of its own, or it is the document. -/
  | header
  /-- On the way to the table of a header. -/
  | implied
  /-- On the way to a dotted key. -/
  | dotted
  /-- In braces. -/
  | inline
  deriving DecidableEq, Repr

/-- A value of a TOML document. -/
inductive Value where
  /-- A string. -/
  | string (s : String)
  /-- An integer. -/
  | integer (n : Int)
  /-- A float, as spelled. -/
  | float (literal : String)
  /-- A truth value. -/
  | boolean (b : Bool)
  /-- A date, a time, or both, as spelled. -/
  | moment (literal : String)
  /-- An array in brackets. -/
  | array (items : List Value)
  /-- A table. -/
  | table (origin : Origin) (entries : List (String × Value))
  /-- The tables of one array of tables, the newest first. -/
  | tables (elements : List (List (String × Value)))
  deriving Repr, Inhabited

/-- The entries of a table, in order. -/
abbrev Entries : Type := List (String × Value)

/-- The value of a key. -/
def Entries.get? (entries : Entries) (key : String) : Option Value := entries.lookup key

/-- The entries with the value of a key replaced, or added if the key is new. -/
def Entries.put (entries : Entries) (key : String) (value : Value) : Entries :=
  match entries with
  | [] => [(key, value)]
  | (k, v) :: rest => if k = key then (key, value) :: rest else (k, v) :: Entries.put rest key value

end Tabletop.Toml
