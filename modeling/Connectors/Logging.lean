import Connectors.Config.Basic
import Connectors.Event
import Connectors.Loader.Files

/-!
# Setting up logging

A `LogSetup` says how log lines are selected, laid out and where they go. It comes from the logging
part of a configuration or is put together step by step. Setting it up has one effect besides: a
setup that writes to a file creates it (`LogSetup.install`). A setup that asks for a file without
naming one logs to the standard output and says so.
-/

set_option autoImplicit false
set_option relaxedAutoImplicit false

namespace Connectors

/-- How log lines are selected, laid out and where they go. -/
structure LogSetup where
  /-- How much is logged. -/
  level : LogLevel := .info
  /-- Exceptions for single targets. -/
  directives : List String := []
  /-- How a line is laid out. -/
  format : LogFormat := .compact
  /-- Where lines go. -/
  output : LogOutput := .stdout
  /-- The file that lines go to. -/
  filePath : Option String := none
  /-- When a new file is begun. -/
  rotation : LogRotation := .never
  /-- Whether lines name their target. -/
  withTarget : Bool := true
  /-- Whether lines name their thread. -/
  withThreadIds : Bool := false
  /-- Whether lines name their place in the program. -/
  withFileLocation : Bool := false
deriving DecidableEq, Repr

namespace LogSetup

/-- The setup that a configuration describes. -/
def ofConfig (logging : LoggingConfig) : LogSetup where
  level := logging.level
  directives := logging.filters.map fun (target, level) ↦ target ++ "=" ++ level.name
  format := logging.format
  output := logging.output
  filePath := logging.filePath
  rotation := logging.rotation
  withThreadIds := logging.threadIds
  withFileLocation := logging.fileLocation

/-- The setup with one more exception. -/
def withDirective (setup : LogSetup) (directive : String) : LogSetup :=
  { setup with directives := setup.directives ++ [directive] }

/-- The setup that writes to a file. -/
def toFile (setup : LogSetup) (path : String) (rotation : LogRotation) : LogSetup :=
  { setup with output := .file, filePath := some path, rotation }

/-! ### Diagnostic form -/

/-- A name with a capital letter at its start. -/
def capitalized (name : String) : String :=
  match name.toList with
  | [] => ""
  | c :: rest => String.ofList (c.toUpper :: rest)

/-- A path between quotes, in which a single quote is written after a backslash as well. -/
def quotePath (path : String) : String :=
  String.ofList ('"' :: (path.toList.flatMap fun c ↦
    if c = '\'' then ['\\', '\''] else Text.quoteChar c) ++ ['"'])

/-- The diagnostic form of a setup. -/
def describe (setup : LogSetup) : String :=
  Text.record "LoggingBuilder"
    [("level", "Level(" ++ capitalized setup.level.name ++ ")"),
      ("directives", Text.quotedList setup.directives),
      ("format", capitalized setup.format.name), ("output", capitalized setup.output.name),
      ("file_path", Text.shownOption quotePath setup.filePath),
      ("rotation", capitalized setup.rotation.name),
      ("with_target", OptionValue.boolText setup.withTarget),
      ("with_thread_ids", OptionValue.boolText setup.withThreadIds),
      ("with_file_location", OptionValue.boolText setup.withFileLocation)]

/-! ### Installation -/

/-- The name of a log file when its path ends in no name. -/
def defaultFileName : String := "conflux.log"

/-- What follows the name of a log file, with a mark in place of the time. -/
def rotationMark : LogRotation → String
  | .never => ""
  | .hourly => ".<date-hour>"
  | .daily => ".<date>"

/-- One more step on a path that is given backwards: `..` takes back the name before it, if there is
one. -/
def step (above : List String) (name : String) : List String :=
  match above with
  | [] => [name]
  | last :: before => if name = ".." ∧ last ≠ ".." then before else name :: above

/-- The names on a path after each `..` has taken back the one before it. -/
def resolved (names : List String) : List String :=
  (names.foldl step []).reverse

/-- The path of the log file for a path and a rotation. -/
def logFile (path : String) (rotation : LogRotation) : String :=
  let directory := (pathNames path).dropLast
  let name := (fileName? path).getD defaultFileName
  Text.join "/" (resolved directory ++ [name ++ rotationMark rotation])

/-- Sets up logging. The answer is the path of the log file, if one is created. -/
def install (setup : LogSetup) : Logged (Option String) :=
  match setup.output, setup.filePath with
  | .file, some path => ⟨[], some (logFile path setup.rotation)⟩
  | .file, none =>
    ⟨[.warn "File output requested but no file path configured, logging to stdout" []], none⟩
  | _, _ => ⟨[], none⟩

end LogSetup

end Connectors
