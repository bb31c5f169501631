import Tabletop.Reading
import Tabletop.Text.Decimal

/-!
# Arguments

The arguments of the command line: one notation, a settings file, a seed, and whether the outcome is
wanted as JSON. Arguments are taken one by one, each by `Progress.step`; the first that is wrong,
and a request for help or for the version, ends the reading. Options are spelled out in full; a
value stands behind `=`, right behind a short option, or in the next argument.
-/

namespace Tabletop.CommandLine

/-- An option with a value. -/
inductive Valued where
  /-- The path of a settings file. -/
  | config
  /-- The seed of the dice. -/
  | seed
  deriving DecidableEq, Repr

/-- The name of an option. -/
def Valued.name : Valued → String
  | config => "--config"
  | seed => "--seed"

/-- What is wrong with arguments. -/
inductive Misuse where
  /-- No notation. -/
  | noNotation
  /-- An argument that nothing asks for. -/
  | unexpected (arg : String)
  /-- An option without its value. -/
  | noValue (option : Valued)
  /-- A value that the option cannot take. -/
  | badValue (option : Valued) (value : String)
  /-- An option that is given twice. -/
  | repeated (name : String)
  /-- A value for an option that takes none. -/
  | needless (name : String)
  deriving DecidableEq, Repr

/-- Why the reading of arguments ends early. -/
inductive Stop where
  /-- Help is wanted. -/
  | help
  /-- The version is wanted. -/
  | version
  /-- The arguments are wrong. -/
  | misuse (m : Misuse)
  deriving DecidableEq, Repr

/-- What the arguments ask for. -/
structure Request where
  /-- The notation. -/
  text : String
  /-- The path of a settings file. -/
  config : Option String
  /-- The seed of the dice. -/
  seed : Option UInt64
  /-- Whether the outcome is wanted as JSON. -/
  json : Bool
  deriving DecidableEq, Repr

/-- The arguments read so far. -/
structure Progress where
  /-- The notation. -/
  text : Option String := none
  /-- The path of a settings file. -/
  config : Option String := none
  /-- The seed of the dice. -/
  seed : Option UInt64 := none
  /-- Whether the outcome is wanted as JSON. -/
  json : Bool := false
  /-- The option whose value comes next. -/
  waiting : Option Valued := none
  /-- Whether the options have ended. -/
  ended : Bool := false
  deriving DecidableEq, Repr

/-- The seed that a text spells, with a plus in front or without. -/
def seed? (value : String) : Option UInt64 :=
  let digits := match value.toList with
    | '+' :: ds => ds
    | ds => ds
  (Text.unsigned? maxCount digits).map UInt64.ofNat

namespace Progress

/-- Takes the value of an option. -/
def set (p : Progress) (option : Valued) (value : String) : Except Stop Progress :=
  match option with
  | .config =>
    if p.config.isSome then .error (.misuse (.repeated option.name))
    else if value = "" then .error (.misuse (.badValue option value))
    else .ok { p with config := some value, waiting := none }
  | .seed =>
    if p.seed.isSome then .error (.misuse (.repeated option.name))
    else match seed? value with
      | none => .error (.misuse (.badValue option value))
      | some seed => .ok { p with seed := some seed, waiting := none }

/-- Takes the notation. -/
def positional (p : Progress) (arg : String) : Except Stop Progress :=
  if p.text.isSome then .error (.misuse (.unexpected arg)) else .ok { p with text := some arg }

/-- Takes an option with a value that may be in the same argument. -/
def valued (p : Progress) (option : Valued) : Option String → Except Stop Progress
  | some value => p.set option value
  | none => .ok { p with waiting := some option }

/-- Takes a long option, without its dashes. -/
def long (p : Progress) (name : List Char) (value : Option String) : Except Stop Progress :=
  match String.ofList name, value with
  | "config", value => p.valued .config value
  | "seed", value => p.valued .seed value
  | "json", none =>
    if p.json then .error (.misuse (.repeated "--json")) else .ok { p with json := true }
  | "help", none => .error .help
  | "version", none => .error .version
  | "json", some _ => .error (.misuse (.needless "--json"))
  | "help", some _ => .error (.misuse (.needless "--help"))
  | "version", some _ => .error (.misuse (.needless "--version"))
  | name, _ => .error (.misuse (.unexpected ("--" ++ name)))

/-- The value right behind a short option, none if nothing follows. -/
def attached? : List Char → Option String
  | [] => none
  | '=' :: value => some (String.ofList value)
  | value => some (String.ofList value)

/-- Takes short options, without their dash. -/
def short (p : Progress) (cs : List Char) : Except Stop Progress :=
  match cs with
  | 'h' :: _ => .error .help
  | 'V' :: _ => .error .version
  | 'c' :: rest => p.valued .config (attached? rest)
  | 's' :: rest => p.valued .seed (attached? rest)
  | cs => .error (.misuse (.unexpected ("-" ++ String.ofList cs)))

/-- The text before the first `=` and the text after it. -/
def splitAtEquals (cs : List Char) : List Char × Option String :=
  match cs.dropWhile (· ≠ '=') with
  | [] => (cs, none)
  | _ :: value => (cs.takeWhile (· ≠ '='), some (String.ofList value))

/-- Takes one argument. -/
def step (p : Progress) (arg : String) : Except Stop Progress :=
  match p.waiting, p.ended, arg.toList with
  | some option, _, '-' :: _ :: _ => .error (.misuse (.noValue option))
  | some option, _, _ => p.set option arg
  | none, true, _ => p.positional arg
  | none, false, ['-', '-'] => .ok { p with ended := true }
  | none, false, '-' :: '-' :: cs => p.long (splitAtEquals cs).1 (splitAtEquals cs).2
  | none, false, '-' :: c :: cs => p.short (c :: cs)
  | none, false, _ => p.positional arg

/-- What the arguments ask for, once all are taken. -/
def finish (p : Progress) : Except Stop Request :=
  match p.waiting, p.text with
  | some option, _ => .error (.misuse (.noValue option))
  | none, none => .error (.misuse .noNotation)
  | none, some text => .ok ⟨text, p.config, p.seed, p.json⟩

end Progress

/-- What arguments ask for. -/
def request (args : List String) : Except Stop Request := do
  let p ← args.foldlM Progress.step {}
  p.finish

end Tabletop.CommandLine
