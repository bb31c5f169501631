import Tabletop.Settings
import Tabletop.Settings.Given

/-!
# Where settings come from

Settings are put together from layers: the usual values, a TOML file, the environment. A layer gives
a value for some of the settings, and for each setting the topmost layer that gives one decides
(`Layer.atop`). Only then is the value looked at (`Layer.settings`), so what a higher layer replaces
may be anything.
-/

namespace Tabletop

/-- A setting. -/
inductive Setting where
  /-- The most dice that a roll may ask for. -/
  | maxDice
  /-- The largest roll whose dice are listed. -/
  | showIndividual
  deriving DecidableEq, Repr

namespace Setting

/-- The key of a setting in a file and in the environment. -/
def key : Setting → String
  | maxDice => "max_dice"
  | showIndividual => "show_individual"

/-- The largest value of a setting. -/
def greatest : Setting → Nat
  | maxDice => maxFace
  | showIndividual => maxCount

end Setting

/-- Why settings are refused. -/
inductive SettingsError where
  /-- The file has no text. -/
  | unreadable
  /-- The file is no TOML document. -/
  | malformed
  /-- The value is no integer. -/
  | wrongType (setting : Setting)
  /-- The value is an integer out of range. -/
  | outOfRange (setting : Setting)
  deriving DecidableEq, Repr

/-- What a layer gives for each setting. -/
abbrev Layer : Type := Setting → Option Given

namespace Layer

/-- One layer on top of another: for each setting, what the upper one gives, or else the lower
one. -/
def atop (upper lower : Layer) : Layer := fun s => (upper s).or (lower s)

/-- The layer of settings as they stand. -/
def ofSettings (settings : Settings) : Layer
  | .maxDice => some (.integer settings.maxDice)
  | .showIndividual => some (.integer settings.showIndividual)

/-- The layer of a TOML document. -/
def ofTable (entries : Toml.Entries) : Layer := fun s =>
  (entries.get? s.key).map Given.ofValue

/-! ## The environment -/

/-- What the names of the variables that matter begin with, whatever their case. -/
def mark : List Char := "rollcall_".toList

/-- The parts of a text between its dots. -/
def parts : List Char → List (List Char)
  | [] => [[]]
  | '.' :: cs => [] :: parts cs
  | c :: cs => match parts cs with
    | [] => [[c]]
    | part :: more => (c :: part) :: more

/-- The path of keys that a variable is about. Blanks around its name and in front of the path do
not count; a path with an empty key is about nothing. -/
def path? (name : String) : Option (List (List Char)) :=
  let cs := (Text.trim name.toList).map Char.toLower
  let path := parts (Text.trim (cs.drop mark.length))
  if mark.isPrefixOf cs && path.all (!·.isEmpty) then some path else none

/-- The layer of one variable. A path of several keys is about a table under the first. -/
def ofVariable (name value : String) : Layer := fun s =>
  match path? name with
  | some [key] => if key = s.key.toList then some (.ofText value) else none
  | some (key :: _) => if key = s.key.toList then some .other else none
  | some [] | none => none

/-- The layer of an environment. Later variables replace earlier ones. -/
def ofEnvironment (env : List (String × String)) : Layer :=
  env.foldl (fun layer (name, value) => (ofVariable name value).atop layer) fun _ => none

/-! ## Looking at the values -/

/-- The value of a setting, which has to be an integer in range. -/
def value (layer : Layer) (s : Setting) : Except SettingsError Nat :=
  match layer s with
  | some (.integer (.ofNat n)) => if n ≤ s.greatest then .ok n else .error (.outOfRange s)
  | some (.integer (.negSucc _)) => .error (.outOfRange s)
  | some .other | none => .error (.wrongType s)

/-- The settings of a layer. -/
def settings (layer : Layer) : Except SettingsError Settings := do
  let maxDice ← layer.value .maxDice
  let showIndividual ← layer.value .showIndividual
  return { maxDice, showIndividual }

end Layer

namespace Settings

/-- The settings that an environment and a document make up over the usual ones. -/
def layered (entries : Toml.Entries) (env : List (String × String)) :
    Except SettingsError Settings :=
  ((Layer.ofEnvironment env).atop ((Layer.ofTable entries).atop (Layer.ofSettings {}))).settings

end Settings

end Tabletop
