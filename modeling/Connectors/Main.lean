import Connectors.Console.Basic
import Connectors.Json.Pretty

/-!
# The command line

`main` reads the environment and the files that the command may look at, runs it and prints what is
seen of it. Everything it decides is decided by `Connectors.Console.run`.
-/

set_option autoImplicit false
set_option relaxedAutoImplicit false

namespace Connectors

/-- The variables of the environment. -/
def readEnvironment : IO Environment := do
  let text ← IO.FS.readFile "/proc/self/environ"
  return .ofList ((Text.split (Char.ofNat 0) text).filterMap (Text.splitOnce '='))

/-- The text of a file, if there is one. -/
def readIfThere (path : String) : IO (Option (String × String)) := do
  try
    return some (path, ← IO.FS.readFile path)
  catch _ =>
    return none

/-- What the command finds around it. -/
def readSurroundings (words : List String) : IO Surroundings := do
  let environment ← readEnvironment
  let around : Surroundings := { environment, userDirectory := environment.userDirectory? }
  match Console.Reading.ofWords words with
  | .work arguments =>
    let found ← ((Console.loader around arguments).wanted around).filterMapM readIfThere
    return { around with files := .ofList found }
  | _ => return around

/-- Waits until the process is stopped. -/
partial def waitForever : IO UInt32 := do
  IO.sleep 1000
  waitForever

end Connectors

/-- The command line. -/
def main (words : List String) : IO UInt32 := do
  let run := Connectors.Console.run (← Connectors.readSurroundings words) words
  run.said.forM IO.println
  (← IO.getStdout).flush
  match run.ending with
  | .refused =>
    IO.eprintln Connectors.Console.helpText
    return 2
  | .help =>
    IO.println Connectors.Console.helpText
    return 0
  | .catalog catalog =>
    IO.println catalog.datum.jsonLines
    return 0
  | .failed account =>
    IO.eprintln account
    return 1
  | .running => Connectors.waitForever
