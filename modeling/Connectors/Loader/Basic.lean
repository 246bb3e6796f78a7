import Connectors.Config.Basic
import Connectors.Environment.Layers
import Connectors.Event
import Connectors.Loader.Files
import Connectors.Loader.Profile
import Connectors.Toml.Document

/-!
# Loading a configuration

A `Loader` merges the sources of a configuration, from the lowest to the highest rank: the defaults,
the files, the environment and the values that a program sets. Files and environment are what the
loader finds around it (`Surroundings`).

If no file is named the loader looks for one: in each search path in turn, and there under each of
the base names. The first base file found is read, and before it every variant for the profile that
stands at its position or an earlier one (`Loader.filesFound`).
-/

set_option autoImplicit false
set_option relaxedAutoImplicit false

namespace Connectors

/-- What a loader finds around it. -/
structure Surroundings where
  /-- The files, by their paths from the working directory. -/
  files : FileTree := ⟨[]⟩
  /-- The environment. -/
  environment : Environment := []
  /-- The directory for the user's own configuration, if there is one. -/
  userDirectory : Option String := none

/-- The directory for the user's own configuration that the environment points to: by an absolute
path for such directories, or else by the user's home. -/
def Environment.userDirectory? (environment : Environment) : Option String :=
  let below (directory : String) : String := joinPath directory "conflux"
  match environment.lookup "XDG_CONFIG_HOME" |>.filter fun path ↦ path.toList.head? = some '/' with
  | some directory => some (below directory)
  | none =>
    (environment.lookup "HOME" |>.filter fun home ↦ !home.isEmpty).map fun home ↦
      below (joinPath home ".config")

/-- The sources of a configuration. -/
structure Loader where
  /-- The values that a program sets, merged in the order set. -/
  overrides : Layer := .ok []
  /-- The profile. -/
  profile : Profile := .development
  /-- Where files are looked for; the usual places if there are none. -/
  searchPaths : List String := []
  /-- Whether the environment is read. -/
  usesEnvironment : Bool := true
  /-- The file to read instead of looking for one. -/
  file : Option String := none

namespace Loader

/-- The loader for the profile that the environment selects. -/
def start (around : Surroundings) : Loader :=
  match around.environment.lookup Environment.profileVariable with
  | some name => { profile := .ofName name }
  | none => {}

/-- The loader with a profile. -/
def withProfile (loader : Loader) (name : String) : Loader :=
  { loader with profile := .ofName name }

/-- The loader with a file to read. -/
def withFile (loader : Loader) (path : String) : Loader :=
  { loader with file := some path }

/-- The loader with one more place to look for files. -/
def withSearchPath (loader : Loader) (path : String) : Loader :=
  { loader with searchPaths := loader.searchPaths ++ [path] }

/-- The loader with one more layer of values set by the program. -/
def withLayer (loader : Loader) (layer : Layer) : Loader :=
  { loader with overrides := loader.overrides.merge layer }

/-- The loader with a value set at a dotted key. -/
def set (loader : Loader) (key : String) (value : Datum) : Loader :=
  loader.withLayer (.single (Text.split '.' key) value)

/-- The loader with a whole configuration put over everything set before. -/
def merge (loader : Loader) (config : Config) : Loader :=
  loader.withLayer (.ok config.fields)

/-! ### Files -/

/-- The names of configuration files without their ending, in the order tried. -/
def baseNames : List String := ["conflux", "config"]

/-- The places where a loader looks for files. -/
def places (around : Surroundings) (loader : Loader) : List String :=
  if loader.searchPaths.isEmpty then "" :: around.userDirectory.toList else loader.searchPaths

/-- The positions at which files are looked for, in order: the variant and the base file. -/
def positions (profile : Profile) (places : List String) : List (String × String) :=
  places.flatMap fun place ↦ baseNames.map fun base ↦
    (joinPath place (base ++ "." ++ profile.name ++ ".toml"), joinPath place (base ++ ".toml"))

/-- The files to read, in order, and whether there is a base file among them. -/
def filesFound (present : String → Bool) : List (String × String) → List String × Bool
  | [] => ([], false)
  | (variant, base) :: rest =>
    let first := if present variant then [variant] else []
    if present base then (first ++ [base], true)
    else
      let (others, found) := filesFound present rest
      (first ++ others, found)

/-- The paths that a loader may read. -/
def wanted (around : Surroundings) (loader : Loader) : List String :=
  match loader.file with
  | some path => [path]
  | none =>
    (positions loader.profile (loader.places around)).flatMap fun (variant, base) ↦ [variant, base]

/-- The layer of a file. A directory in its place holds nothing. -/
def fileLayer (files : FileTree) (path : String) : Layer :=
  match files.find path with
  | .file text => (Toml.parse? text).elim (.error .malformed) .ok
  | _ => .ok []

/-- The layers of all files over the defaults. -/
def mergeFiles (around : Surroundings) (loader : Loader) : Logged (Except ConfigError Layer) :=
  let defaults : Layer := .ok (Config.fields {})
  match loader.file with
  | some path =>
    if !around.files.has path then ⟨[], .error (.fileNotFound path)⟩
    else if fileExtension path = "toml" then
      ⟨[], .ok (defaults.relaxedMerge (fileLayer around.files path))⟩
    else ⟨[], .error (.unsupportedFormat (fileExtension path))⟩
  | none =>
    let places := loader.places around
    let (files, found) := filesFound around.files.has (positions loader.profile places)
    ⟨if found then [] else
      [.warn "No configuration file found, using defaults" [("paths", Text.quotedList places)]],
      .ok (files.foldl (fun merged path ↦ merged.relaxedMerge (fileLayer around.files path))
        defaults)⟩

/-! ### All sources -/

/-- The layers of the environment and of the program over those of the files. -/
def mergeRest (around : Surroundings) (loader : Loader) (files : Layer) : Layer :=
  let withEnvironment :=
    if loader.usesEnvironment then
      (files.merge around.environment.generalLayer).relaxedMerge around.environment.componentLayer
    else files
  withEnvironment.relaxedMerge loader.overrides

/-- The configuration that merged settings hold. -/
def extract (layer : Layer) : Except ConfigError Config :=
  match layer with
  | .error fault => .error (.parse fault)
  | .ok fields =>
    match Config.ofDatum? .partly (.table fields) with
    | some config => .ok config
    | none => .error (.parse .malformed)

/-- Loads the configuration. -/
def load (around : Surroundings) (loader : Loader) : Logged (Except ConfigError Config) :=
  (loader.mergeFiles around).map fun merged ↦
    merged.bind fun files ↦ extract (loader.mergeRest around files)

end Loader

end Connectors
