import Tabletop.Settings.Layers
import Tabletop.Toml.Reader

/-!
# Loading settings
-/

namespace Tabletop.Settings

/-- The settings from the text of a file, if there is one, and an environment. A text that is no
TOML document, or has a numbered value, is refused whatever the environment gives. -/
def load (file : Option String) (env : List (String × String)) : Except SettingsError Settings :=
  match file with
  | none => layered [] env
  | some text => match Toml.read? text with
    | none => .error .malformed
    | some entries =>
      if entries.all fun (_, value) => Given.isPlainValue value then layered entries env
      else .error .malformed

end Tabletop.Settings
