import Tabletop.CommandLine.Arguments
import Tabletop.CommandLine.Log
import Tabletop.Evaluation
import Tabletop.Interchange
import Tabletop.Settings.Load
import Tabletop.Source.ChaCha

/-!
# Answers

What the program answers to arguments, given the files and the environment it sees: the arguments
are read first, then the settings, then the notation is rolled. `Answer` keeps these outcomes apart;
its exit code and its output are functions of it. What happens on the way is reported to the log, so
a `Reply` is an answer and the reports before it.

The help, and what is wrong with arguments or settings, is told by whatever reads these
(`Wording`).
-/

namespace Tabletop.CommandLine

/-- What is at a path. -/
inductive FileText where
  /-- No file. -/
  | missing
  /-- A file without a text. -/
  | unreadable
  /-- A file with this text. -/
  | text (s : String)
  deriving DecidableEq, Repr

/-- How arguments and settings are talked about. -/
structure Wording where
  /-- The help. -/
  help : String
  /-- What is wrong with arguments. -/
  misuse : Misuse → String
  /-- What is wrong with settings. -/
  unsettled : SettingsError → String

/-- What the program sees of its surroundings. -/
structure Surroundings where
  /-- What is at a path. -/
  file : String → FileText
  /-- The environment variables. -/
  env : List (String × String)
  /-- The seed to use if none is given. -/
  seed : UInt64
  /-- How arguments and settings are talked about. -/
  wording : Wording
  /-- How reports are logged. -/
  logging : Logging

/-- What became of a command line. -/
inductive Answer where
  /-- Help was wanted, which this text gives. -/
  | help (text : String)
  /-- The version was wanted. -/
  | version
  /-- The arguments are wrong, as this text tells. -/
  | misused (m : Misuse) (text : String)
  /-- The settings are wrong, as this text tells. -/
  | unsettled (e : SettingsError) (text : String)
  /-- The notation was refused. -/
  | refused (e : RollError)
  /-- The notation was rolled. -/
  | rolled (o : Outcome) (settings : Settings) (json : Bool)
  /-- The dice used up all words of the seed. -/
  | exhausted
  deriving Repr

namespace Answer

/-- The text of the version. -/
def versionText : String := "rollcall 0.1.0\n"

/-- The exit code, none if the dice come to no end. -/
def exitCode : Answer → Option Nat
  | help _ | version | rolled .. => some 0
  | unsettled .. | refused _ => some 1
  | misused .. => some 2
  | exhausted => none

/-- What goes to standard output. -/
def stdout : Answer → String
  | help text => text
  | version => versionText
  | rolled o settings json =>
    (if json then o.toJson.pretty else narrate o settings.showIndividual) ++ "\n"
  | misused .. | unsettled .. | refused _ | exhausted => ""

/-- What goes to standard error behind the log. -/
def message : Answer → String
  | help _ | version | rolled .. | exhausted => ""
  | misused _ text | unsettled _ text => text
  | refused e => e.message ++ "\n"

end Answer

/-- An answer and what was reported before it. -/
structure Reply where
  /-- The answer. -/
  answer : Answer
  /-- The reports, in order. -/
  reports : List Report := []
  deriving Repr

namespace Reply

/-- What the log writes. -/
def logged (a : Reply) (w : Surroundings) : String := w.logging.written w.env a.reports

/-- What goes to standard error. -/
def stderr (a : Reply) (w : Surroundings) : String := a.logged w ++ a.answer.message

end Reply

/-! ## From arguments to an answer -/

namespace Request

/-- The settings that a request and the surroundings make up. A file that does not exist counts as
empty. -/
def settings (r : Request) (w : Surroundings) : Except SettingsError Settings :=
  match r.config.map w.file with
  | none => Settings.load none w.env
  | some .missing => Settings.load (some "") w.env
  | some .unreadable => .error .unreadable
  | some (.text s) => Settings.load (some s) w.env

/-- What rolling the notation of a request comes to. -/
def roll (r : Request) (w : Surroundings) (settings : Settings) :
    Run Seeded (Except RollError Outcome) :=
  (evaluate r.text settings).run (Seeded.ofSeed (r.seed.getD w.seed))

/-- What is reported with settings until a run has left its log. -/
def reported (settings : Settings) (log : List Entry) : List Report :=
  settings.report :: (events log).map Event.report

/-- The reply that a run with settings leads to. -/
def conclude (r : Request) (w : Surroundings) (settings : Settings)
    (run : Run Seeded (Except RollError Outcome)) : Reply :=
  let reports := reported settings run.log
  match run.outcome with
  | none => ⟨.exhausted, reports⟩
  | some (.error e) => ⟨.refused e, reports ++ [e.report w.logging.quote r.text]⟩
  | some (.ok o) => ⟨.rolled o settings r.json, reports⟩

/-- The reply to a request. -/
def reply (r : Request) (w : Surroundings) : Reply :=
  match r.settings w with
  | .error e => { answer := .unsettled e (w.wording.unsettled e) }
  | .ok settings => r.conclude w settings (r.roll w settings)

end Request

/-- The reply to arguments. -/
def reply (args : List String) (w : Surroundings) : Reply :=
  match request args with
  | .error .help => { answer := .help w.wording.help }
  | .error .version => { answer := .version }
  | .error (.misuse m) => { answer := .misused m (w.wording.misuse m) }
  | .ok r => r.reply w

end Tabletop.CommandLine
