import Tabletop.CommandLine.Answer

/-!
# The program

Reads the surroundings, answers the arguments, prints the answer.
-/

namespace Tabletop.CommandLine

/-- The environment variables, as the system lists them. -/
def environment : IO (List (String × String)) := do
  let listed ← try IO.FS.readFile "/proc/self/environ" catch _ => pure ""
  return (listed.splitOn "\x00").filterMap fun entry =>
    match entry.splitOn "=" with
    | name :: value :: more => some (name, "=".intercalate (value :: more))
    | _ => none

/-- The places where a path may lead to: from a directory, or else from one above it. -/
def places (directory path : String) : List String :=
  if path.startsWith "/" then [path]
  else
    let steps := directory.splitOn "/"
    (List.range steps.length).map fun n =>
      "/".intercalate (steps.take (steps.length - n)) ++ "/" ++ path

/-- What is at the first of some places where there is a file. -/
def readFirst : List String → IO FileText
  | [] => return .missing
  | place :: more => do
    try
      return .text (← IO.FS.readFile place)
    catch
      | .noFileOrDirectory .. | .inappropriateType .. => readFirst more
      | _ => return .unreadable

/-- A seed that nobody chose. -/
def anySeed : IO UInt64 := do
  let bytes ← IO.getRandomBytes 8
  return bytes.foldl (fun seed byte => seed * 256 + byte.toUInt64) 0

/-- Answers the arguments of the command line. -/
def run (wording : Wording) (logging : Logging) (args : List String) : IO UInt32 := do
  let file ← match request args with
    | .ok ⟨_, some path, _, _⟩ => readFirst (places (toString (← IO.currentDir)) path)
    | _ => pure .missing
  let w : Surroundings := ⟨fun _ => file, ← environment, ← anySeed, wording, logging⟩
  let a := reply args w
  (← IO.getStdout).putStr a.answer.stdout
  (← IO.getStderr).putStr (a.stderr w)
  return (a.answer.exitCode.getD 1).toUInt32

end Tabletop.CommandLine
