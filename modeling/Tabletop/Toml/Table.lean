import Tabletop.Toml.Basic

/-!
# Adding to tables

What the lines of a document do to its tables: a pair adds a value, a header opens a table or one
more element of an array of tables. Each names a table by a path of keys, and `descend?` follows the
path, making the tables that are missing. It refuses what would define something twice: a dotted
path enters only tables that are not defined elsewhere, a header opens only a table that is merely
implied.
-/

namespace Tabletop.Toml

/-- A change to the entries of a table that came to be in the given way. -/
abbrev Change : Type := Origin → Entries → Option Entries

/-- Whether a table may still be added to by dotted keys. -/
def Origin.isOpen : Origin → Bool
  | implied | dotted => true
  | header | inline => false

/-- Makes a change to the table at the end of a path. `made` says what to call the tables that the
path makes; a path of dotted keys makes `dotted` ones. -/
def descend? (made : Origin) : List String → Change → Change
  | [], change, origin, entries => change origin entries
  | key :: path, change, _, entries =>
    match entries.get? key with
    | none => (descend? made path change made []).map fun sub =>
        entries.put key (.table made sub)
    | some (.table .inline _) => none
    | some (.table origin sub) =>
      if made = .dotted && !origin.isOpen then none
      else (descend? made path change origin sub).map fun sub =>
        entries.put key (.table origin sub)
    | some (.tables (newest :: older)) =>
      (descend? made path change .header newest).map fun newest =>
        entries.put key (.tables (newest :: older))
    | some _ => none

/-- Adds a key that is new to a table. Behind a path of dotted keys, only a table that such keys
made takes it. -/
def addPair (path : List String) (key : String) (value : Value) : Change :=
  descend? .dotted path fun origin entries =>
    if !path.isEmpty && origin ≠ .dotted then none
    else match entries.get? key with
      | none => some (entries.put key value)
      | some _ => none

/-- Opens a table by its header. -/
def openTable (path : List String) (key : String) : Change :=
  descend? .implied path fun _ entries =>
    match entries.get? key with
    | none => some (entries.put key (.table .header []))
    | some (.table .implied sub) => some (entries.put key (.table .header sub))
    | some _ => none

/-- Opens one more element of an array of tables. -/
def openElement (path : List String) (key : String) : Change :=
  descend? .implied path fun _ entries =>
    match entries.get? key with
    | none => some (entries.put key (.tables [[]]))
    | some (.tables elements) => some (entries.put key (.tables ([] :: elements)))
    | some _ => none

/-- A dotted key: the keys on the way, and the last. -/
structure Path where
  /-- The keys on the way. -/
  way : List String
  /-- The last key. -/
  last : String
  deriving DecidableEq, Repr

/-- The keys in order. -/
def Path.toList (p : Path) : List String := p.way ++ [p.last]

/-- The path with these keys, if there is one. -/
def Path.ofList? (keys : List String) : Option Path :=
  keys.getLast?.map fun last => ⟨keys.dropLast, last⟩

/-- The table in braces with these pairs. -/
def inlineTable? (pairs : List (Path × Value)) : Option Value :=
  let entries := pairs.foldlM
    (fun entries (path, value) => addPair path.way path.last value .inline entries) []
  entries.map (.table .inline ·)

/-- A line of a document, blanks and comments aside. -/
inductive Line where
  /-- A key and its value. -/
  | pair (path : Path) (value : Value)
  /-- The header of a table. -/
  | table (path : Path)
  /-- The header of an element of an array of tables. -/
  | element (path : Path)
  deriving Repr

/-- A document up to some line: its entries and the table whose header came last. -/
structure Document where
  /-- The entries of the document. -/
  entries : Entries := []
  /-- The path of the table that pairs are added to. -/
  current : List String := []
  deriving Repr

/-- The document with one more line. -/
def Document.add? (d : Document) : Line → Option Document
  | .pair path value =>
    (descend? .implied d.current (addPair path.way path.last value) .header d.entries).map
      fun entries => { d with entries }
  | .table path => (openTable path.way path.last .header d.entries).map fun entries =>
      ⟨entries, path.toList⟩
  | .element path => (openElement path.way path.last .header d.entries).map fun entries =>
      ⟨entries, path.toList⟩

/-- The entries that lines make up. -/
def ofLines? (lines : List Line) : Option Entries :=
  (lines.foldlM Document.add? {}).map Document.entries

end Tabletop.Toml
