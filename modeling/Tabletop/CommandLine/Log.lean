import Tabletop.Event
import Tabletop.RollError
import Tabletop.Settings

/-!
# The log

The program reports what it does to a log on standard error. Which reports are wanted is told by the
environment, and if it tells nothing, those from level `Level.info` on are. How the environment tells
it, and how a report is put into a line, is up to the logging that is used.
-/

namespace Tabletop

/-- The report of settings as they were loaded. -/
def Settings.report (settings : Settings) : Report where
  level := .debug
  message := "loaded config"
  fields := [("config", "RollConfig \x7b max_dice: " ++ toString settings.maxDice
    ++ ", show_individual: " ++ toString settings.showIndividual ++ " \x7d")]

/-- The constructor of an error and what comes with it, with `quote` for texts. -/
def RollError.debug (quote : String → String) : RollError → String
  | invalidNotation text => "InvalidNotation(" ++ quote text ++ ")"
  | tooManyDice max => "TooManyDice \x7b max: " ++ toString max ++ " \x7d"
  | tooFewDice => "TooFewDice"
  | invalidSides sides => "InvalidSides(" ++ toString sides ++ ")"

/-- The report of a notation that is refused. -/
def RollError.report (e : RollError) (quote : String → String) (text : String) : Report where
  level := .info
  message := "rejected notation"
  fields := [("notation", text), ("error", e.debug quote)]

namespace CommandLine

/-- How reports are logged. -/
structure Logging where
  /-- The reports that environment variables want, none if they tell nothing. -/
  wants? : List (String × String) → Option (Report → Bool)
  /-- The line of a report, given how many lines stand before it. -/
  line : Nat → Report → String
  /-- A text in quotes. -/
  quote : String → String

namespace Logging

/-- The reports that are wanted if nothing else is told. -/
def usual (r : Report) : Bool := Level.info.rank ≤ r.level.rank

/-- The reports that are wanted. -/
def wanted (l : Logging) (env : List (String × String)) : Report → Bool :=
  (l.wants? env).getD usual

/-- What the log writes of reports. -/
def written (l : Logging) (env : List (String × String)) (reports : List Report) : String :=
  String.join ((reports.filter (l.wanted env)).mapIdx l.line)

end Logging

end CommandLine

end Tabletop
