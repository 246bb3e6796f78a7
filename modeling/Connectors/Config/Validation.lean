import Connectors.Config.Basic
import Connectors.Sections.Basic

/-!
# Valid configurations

`Config.validate` checks what the types of a configuration leave open: that logging to a file names
the file, that filters have targets, that there is time to make endpoints, and that the sections can
be read and are for different components.
-/

set_option autoImplicit false
set_option relaxedAutoImplicit false

namespace Connectors.Config

/-- The sections of the components, in the order of their ids. -/
def sections (config : Config) : Except ConfigError (List ComponentSection) :=
  ComponentSection.readAll [] config.components

/-- Whether a filter has a target that is empty or holds white space. -/
def isBadTarget (target : String) : Bool :=
  target.isEmpty || target.toList.any Text.isBlank

/-- Checks logging settings. -/
def validateLogging (logging : LoggingConfig) : Except ConfigError Unit :=
  if logging.output = .file ∧ logging.filePath.isNone then .error (.validation .missingFilePath)
  else match (Fields.names logging.filters).find? isBadTarget with
    | some target => .error (.validation (.badFilterTarget target))
    | none => .ok ()

/-- Checks binding settings. -/
def validateBinding (binding : BindingConfig) : Except ConfigError Unit :=
  if binding.activationTimeout = some 0 then .error (.validation .zeroTimeout) else .ok ()

/-- Checks a configuration. -/
def validate (config : Config) : Except ConfigError Unit := do
  validateLogging config.logging
  validateBinding config.binding
  let _ ← config.sections

end Connectors.Config
