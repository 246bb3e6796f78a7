import Connectors.Binding.Binder
import Connectors.Datum
import Connectors.Text.Duration

/-!
# Configurations

A configuration has three parts: how to log, how to bind, and a section for each component. Every
part and every value in it may be left out and then has its default.

`Config.datum` writes a configuration as data with nothing left out, and `Config.ofDatum?` reads
one. There are two ways to read: a configuration that stands for itself has to be used up
(`Usage.exact`), while settings merged from several sources may hold more than is needed
(`Usage.partly`).
-/

set_option autoImplicit false
set_option relaxedAutoImplicit false

namespace Connectors

/-! ### Logging -/

/-- How much is logged. -/
inductive LogLevel where
  /-- Everything. -/
  | trace
  /-- What helps to find mistakes. -/
  | debug
  /-- What happens. -/
  | info
  /-- What is odd. -/
  | warn
  /-- What fails. -/
  | error
deriving DecidableEq, Repr

namespace LogLevel

/-- All levels. -/
def all : List LogLevel := [trace, debug, info, warn, error]

/-- The name of a level. -/
def name : LogLevel → String
  | trace => "trace"
  | debug => "debug"
  | info => "info"
  | warn => "warn"
  | error => "error"

/-- The level of a name. -/
def ofName? (name : String) : Option LogLevel := all.find? (·.name = name)

end LogLevel

/-- How a log line is laid out. -/
inductive LogFormat where
  /-- On one short line. -/
  | compact
  /-- On one line. -/
  | full
  /-- On several lines. -/
  | pretty
  /-- As JSON. -/
  | json
deriving DecidableEq, Repr

namespace LogFormat

/-- All formats. -/
def all : List LogFormat := [compact, full, pretty, json]

/-- The name of a format. -/
def name : LogFormat → String
  | compact => "compact"
  | full => "full"
  | pretty => "pretty"
  | json => "json"

/-- The format of a name. -/
def ofName? (name : String) : Option LogFormat := all.find? (·.name = name)

end LogFormat

/-- Where log lines go. -/
inductive LogOutput where
  /-- To the standard output. -/
  | stdout
  /-- To the standard error output. -/
  | stderr
  /-- To a file. -/
  | file
deriving DecidableEq, Repr

namespace LogOutput

/-- All outputs. -/
def all : List LogOutput := [stdout, stderr, file]

/-- The name of an output. -/
def name : LogOutput → String
  | stdout => "stdout"
  | stderr => "stderr"
  | file => "file"

/-- The output of a name. -/
def ofName? (name : String) : Option LogOutput := all.find? (·.name = name)

end LogOutput

/-- When a new log file is begun. -/
inductive LogRotation where
  /-- Never. -/
  | never
  /-- Each hour. -/
  | hourly
  /-- Each day. -/
  | daily
deriving DecidableEq, Repr

namespace LogRotation

/-- All rotations. -/
def all : List LogRotation := [never, hourly, daily]

/-- The name of a rotation. -/
def name : LogRotation → String
  | never => "never"
  | hourly => "hourly"
  | daily => "daily"

/-- The rotation of a name. -/
def ofName? (name : String) : Option LogRotation := all.find? (·.name = name)

end LogRotation

/-- The policy of a name. -/
def UnknownKeyPolicy.ofName? (name : String) : Option UnknownKeyPolicy :=
  [lenient, strict].find? (·.name = name)

/-- How to log. -/
structure LoggingConfig where
  /-- How much is logged. -/
  level : LogLevel := .info
  /-- How a line is laid out. -/
  format : LogFormat := .compact
  /-- Where lines go. -/
  output : LogOutput := .stdout
  /-- The file that lines go to. -/
  filePath : Option String := none
  /-- When a new file is begun. -/
  rotation : LogRotation := .never
  /-- Levels for single targets. -/
  filters : Fields LogLevel := []
  /-- Whether lines name their thread. -/
  threadIds : Bool := false
  /-- Whether lines name their place in the program. -/
  fileLocation : Bool := false
deriving DecidableEq, Repr

/-- How to bind. -/
structure BindingConfig where
  /-- What happens to keys that lead to no option. -/
  unknownKeys : UnknownKeyPolicy := .lenient
  /-- Whether objects are found by their type. -/
  autowire : Bool := true
  /-- How many milliseconds an endpoint may take to be made. -/
  activationTimeout : Option Nat := none
deriving DecidableEq, Repr

/-- The binder that a configuration describes. -/
def BindingConfig.binder (binding : BindingConfig) : Binder :=
  ⟨binding.unknownKeys, binding.autowire⟩

/-- A configuration. -/
structure Config where
  /-- How to log. -/
  logging : LoggingConfig := {}
  /-- How to bind. -/
  binding : BindingConfig := {}
  /-- A value for each component, by its id. -/
  components : Fields Datum := []
deriving DecidableEq

/-! ### Writing -/

/-- A text, or null. -/
def Datum.ofText? : Option String → Datum
  | none => .null
  | some value => .text value

/-- The data of logging settings. -/
def LoggingConfig.datum (logging : LoggingConfig) : Datum :=
  .table (Fields.ofList
    [("level", .text logging.level.name), ("format", .text logging.format.name),
      ("output", .text logging.output.name), ("file_path", .ofText? logging.filePath),
      ("rotation", .text logging.rotation.name),
      ("filters", .table (logging.filters.map fun (target, level) ↦ (target, .text level.name))),
      ("thread_ids", .bool logging.threadIds), ("file_location", .bool logging.fileLocation)])

/-- The data of binding settings. -/
def BindingConfig.datum (binding : BindingConfig) : Datum :=
  .table (Fields.ofList
    [("unknown_keys", .text binding.unknownKeys.name), ("autowire", .bool binding.autowire),
      ("activation_timeout_ms", binding.activationTimeout.elim .null fun millis ↦ .int millis)])

/-- The fields of a configuration. -/
def Config.fields (config : Config) : List (String × Datum) :=
  Fields.ofList
    [("logging", config.logging.datum), ("binding", config.binding.datum),
      ("components", .table config.components)]

/-- The data of a configuration. -/
def Config.datum (config : Config) : Datum := .table config.fields

/-! ### Reading -/

/-- How much of the data has to be used. -/
inductive Usage where
  /-- All of it. -/
  | exact
  /-- Only what is needed. -/
  | partly
deriving DecidableEq, Repr

namespace Datum

mutual

/-- Data in which a number that is not finite is no value. -/
def settled : Datum → Datum
  | float value => if value.isFinite then float value else null
  | list items => list (settledItems items)
  | table fields => table (settledFields fields)
  | value => value

/-- Items in which a number that is not finite is no value. -/
def settledItems : List Datum → List Datum
  | [] => []
  | item :: rest => settled item :: settledItems rest

/-- Fields in which a number that is not finite is no value. -/
def settledFields : List (String × Datum) → List (String × Datum)
  | [] => []
  | (name, value) :: rest => (name, settled value) :: settledFields rest

end

/-- A truth value. -/
def bool? : Datum → Option Bool
  | bool value => some value
  | _ => none

/-- An optional text. -/
def text? : Datum → Option (Option String)
  | null => some none
  | text value => some (some value)
  | _ => none

/-- An optional natural number of 64 bits. -/
def word? : Datum → Option (Option Nat)
  | null => some none
  | int value => if Integer.unsigned64.holds value then some (some value.toNat) else none
  | _ => none

/-- A constant, given by its name or as the first field of a table with nothing in it. -/
def constant? {α : Type} (usage : Usage) (ofName? : String → Option α) : Datum → Option α
  | text name => ofName? name
  | table [(name, null)] => ofName? name
  | table ((name, null) :: _) => if usage = .partly then ofName? name else none
  | _ => none

/-- A part of a record, which is a table or a list of its parts in order. A part that is not there
has the value `absent`. -/
def part? {α : Type} (record : Datum) (position : Nat) (name : String) (absent : α)
    (read : Datum → Option α) : Option α :=
  let found :=
    match record with
    | table fields => Fields.get? name fields
    | list items => items[position]?
    | _ => none
  match found with
  | none => some absent
  | some value => read value

/-- Whether a value is a record of at most `size` parts. -/
def isRecord (usage : Usage) (size : Nat) : Datum → Bool
  | table _ => true
  | list items => usage = .partly || items.length ≤ size
  | _ => false

end Datum

/-- Reads filters. -/
def LoggingConfig.filtersOf? (usage : Usage) : Datum → Option (Fields LogLevel)
  | .table fields => fields.mapM fun (target, level) ↦
    (level.constant? usage LogLevel.ofName?).map fun level ↦ (target, level)
  | _ => none

/-- Reads logging settings. -/
def LoggingConfig.ofDatum? (usage : Usage) (value : Datum) : Option LoggingConfig := do
  if !value.isRecord usage 8 then none
  let level ← value.part? 0 "level" .info (·.constant? usage LogLevel.ofName?)
  let format ← value.part? 1 "format" .compact (·.constant? usage LogFormat.ofName?)
  let output ← value.part? 2 "output" .stdout (·.constant? usage LogOutput.ofName?)
  let filePath ← value.part? 3 "file_path" none Datum.text?
  let rotation ← value.part? 4 "rotation" .never (·.constant? usage LogRotation.ofName?)
  let filters ← value.part? 5 "filters" [] (filtersOf? usage)
  let threadIds ← value.part? 6 "thread_ids" false Datum.bool?
  let fileLocation ← value.part? 7 "file_location" false Datum.bool?
  return { level, format, output, filePath, rotation, filters, threadIds, fileLocation }

/-- Reads binding settings. -/
def BindingConfig.ofDatum? (usage : Usage) (value : Datum) : Option BindingConfig := do
  if !value.isRecord usage 3 then none
  let unknownKeys ←
    value.part? 0 "unknown_keys" .lenient (·.constant? usage UnknownKeyPolicy.ofName?)
  let autowire ← value.part? 1 "autowire" true Datum.bool?
  let activationTimeout ← value.part? 2 "activation_timeout_ms" none Datum.word?
  return { unknownKeys, autowire, activationTimeout }

/-- Reads the values of components. -/
def Config.componentsOf? : Datum → Option (Fields Datum)
  | .table fields => some (Datum.settledFields fields)
  | _ => none

/-- Reads a configuration. -/
def Config.ofDatum? (usage : Usage) (value : Datum) : Option Config := do
  if !value.isRecord usage 3 then none
  let logging ← value.part? 0 "logging" {} (LoggingConfig.ofDatum? usage)
  let binding ← value.part? 1 "binding" {} (BindingConfig.ofDatum? usage)
  let components ← value.part? 2 "components" [] componentsOf?
  return { logging, binding, components }

end Connectors
