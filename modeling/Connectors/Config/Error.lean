import Connectors.Text.Quoted

/-!
# Why a configuration is not loaded or not valid

`ConfigError` tells what went wrong between the sources of a configuration and its use. What the
library itself finds wrong while it merges sources is a `LayerFault`; everything else that a source
or its reading can suffer from is only known to have happened.
-/

set_option autoImplicit false
set_option relaxedAutoImplicit false

namespace Connectors

/-- What is wrong with a source of settings. -/
inductive LayerFault where
  /-- A section sets a key twice, once on a path of tables and once written with points. -/
  | setTwice (component path : String)
  /-- The environment gives a name both a value and entries below it. -/
  | valueAndTable (rest : String)
  /-- The source is malformed, or a value has the wrong type. -/
  | malformed
deriving DecidableEq, Repr

/-- The wording of a fault, where it has one. -/
def LayerFault.message? : LayerFault → Option String
  | setTwice component path =>
    some ("components." ++ component ++ ": key '" ++ path ++ "' is set twice")
  | valueAndTable rest =>
    some ("environment sets components." ++ rest ++ " both as a value and a table")
  | malformed => none

/-- What is wrong with a value of a valid type. -/
inductive ValidationFault where
  /-- Logging to a file needs its path. -/
  | missingFilePath
  /-- A filter has a target that is empty or holds white space. -/
  | badFilterTarget (target : String)
  /-- No time at all is left to make an endpoint. -/
  | zeroTimeout
  /-- A section has no id. -/
  | emptyComponentId
  /-- Two sections are for one component. -/
  | sameComponent (first second : String)
deriving DecidableEq, Repr

/-- The wording of a fault. -/
def ValidationFault.message : ValidationFault → String
  | missingFilePath => "logging.file_path is required when logging.output is 'file'"
  | badFilterTarget target => "Invalid log filter target: '" ++ target ++ "'"
  | zeroTimeout => "binding.activation_timeout_ms must be greater than 0"
  | emptyComponentId => "Component id cannot be empty"
  | sameComponent first second =>
    "Component sections '" ++ first ++ "' and '" ++ second ++ "' refer to the same component"

/-- What is wrong with the section of a component. -/
inductive SectionFault where
  /-- It is no table but something else. -/
  | notATable (found : String)
  /-- Its switch is no truth value. -/
  | switchNotBoolean (found : String)
  /-- A list in it holds more than scalars. -/
  | nestedList (key : String)
deriving DecidableEq, Repr

/-- The wording of a fault. -/
def SectionFault.message : SectionFault → String
  | notATable found => "expected a table, found " ++ found
  | switchNotBoolean found => "'enabled' must be a boolean, found " ++ found
  | nestedList key => "list '" ++ key ++ "' may only contain scalars"

/-- Why a configuration is not loaded or not valid. -/
inductive ConfigError where
  /-- A file that was asked for is not there. -/
  | fileNotFound (path : String)
  /-- A file has a format that is not read. -/
  | unsupportedFormat (extension : String)
  /-- A source or its reading failed. -/
  | parse (fault : LayerFault)
  /-- A value is not valid. -/
  | validation (fault : ValidationFault)
  /-- A section is not valid. -/
  | invalidSection (component : String) (fault : SectionFault)
deriving DecidableEq, Repr

/-- The wording of an error. What the library did not find itself has no wording of its own. -/
def ConfigError.message : ConfigError → String
  | fileNotFound path => "Configuration file not found: " ++ path
  | unsupportedFormat extension =>
    "Unsupported or disabled configuration file format: ." ++ extension
  | parse fault => "Failed to load configuration: " ++ fault.message?.getD "malformed source"
  | validation fault => "Invalid configuration: " ++ fault.message
  | invalidSection component fault =>
    "Invalid section for component '" ++ component ++ "': " ++ fault.message

end Connectors
