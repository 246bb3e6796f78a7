import Connectors.Environment.Guess
import Connectors.Loader.Layer
import Connectors.Text.Split

/-!
# Settings in the environment

The variables whose names begin with `CONFLUX_` hold settings; two underscores in the rest of a name
stand for a step into a table. They make two layers. The variables of components keep their text as
it is and have their whole rest below the id as one key (`componentLayer`). All others have their
values guessed (`generalLayer`).

An environment is a list of names and texts in the order in which it is gone through.
-/

set_option autoImplicit false
set_option relaxedAutoImplicit false

namespace Connectors

/-- Variables with their texts, in order. -/
abbrev Environment : Type := List (String × String)

namespace Environment

/-- Sets a variable. A variable that is set already keeps its place. -/
def set (environment : Environment) (name text : String) : Environment :=
  if (environment.lookup name).isSome then
    environment.map fun entry ↦ if entry.1 = name then (name, text) else entry
  else environment ++ [(name, text)]

/-- The environment with some variables set, one after another. -/
def ofList (entries : List (String × String)) : Environment :=
  entries.foldl (fun environment (name, text) ↦ environment.set name text) []

/-- How the names of settings begin. -/
def nameStart : String := "CONFLUX_"

/-- The variable that selects the profile. -/
def profileVariable : String := "CONFLUX_PROFILE"

/-- What follows `CONFLUX_` in a name, in any case of these letters. -/
def rest? (name : String) : Option String :=
  let cs := (Text.trim name).toList
  let count := nameStart.length
  if Text.sameAscii (String.ofList (cs.take count)) nameStart then
    some (String.ofList (cs.drop count))
  else none

/-- The dotted path that the rest of a name stands for, in lower case, if no name on it is empty. -/
def path? (rest : String) : Option String :=
  let path := Text.trim (Text.replaceAll "__" "." rest)
  if (Text.split '.' path).any (·.isEmpty) then none else some (Text.lowerAscii path)

/-- The settings of the variables whose rest is kept, by their paths. -/
def settings (environment : Environment) (keep : String → Bool) : List (String × String) :=
  environment.filterMap fun (name, text) ↦
    ((rest? name).filter keep).bind fun rest ↦ (path? rest).map fun path ↦ (path, text)

/-- Whether the rest of a name belongs to the components. -/
def isComponentName (rest : String) : Bool :=
  let rest := Text.lowerAscii rest
  rest = componentsKey || (componentsKey ++ "__").toList.isPrefixOf rest.toList

/-- The settings other than those of components, their values guessed. -/
def generalLayer (environment : Environment) : Layer :=
  let kept (rest : String) : Bool := !Text.sameAscii rest "profile" && !isComponentName rest
  .ok ((environment.settings kept).foldl (fun fields (path, text) ↦
    Datum.overlayFields fields (Layer.nest (Text.split '.' path) (Guess.datum text)).fields) [])

/-- Adds the setting of a component: a value under its id alone, or an entry of its section. -/
def addComponent (sections : Fields Datum) (rest text : String) :
    Except LayerFault (Fields Datum) :=
  match Text.splitOnce '.' rest with
  | some (id, option) =>
    match Fields.get? id sections with
    | none => .ok (Fields.put id (.table [(option, .text text)]) sections)
    | some (.table fields) =>
      .ok (Fields.put id (.table (Fields.put option (.text text) fields)) sections)
    | some _ => .error (.valueAndTable rest)
  | none =>
    if Fields.has rest sections then .error (.valueAndTable rest)
    else .ok (Fields.put rest (.text text) sections)

/-- The sections that the variables of components make, added to those before. -/
def addComponents (sections : Fields Datum) :
    List (String × String) → Except LayerFault (Fields Datum)
  | [] => .ok sections
  | (path, text) :: others =>
    match Text.stripStart? (componentsKey ++ ".").toList path.toList with
    | none => addComponents sections others
    | some rest =>
      match addComponent sections (String.ofList rest) text with
      | .ok sections => addComponents sections others
      | .error fault => .error fault

/-- The settings of components, as text. -/
def componentLayer (environment : Environment) : Layer :=
  (addComponents [] (environment.settings fun _ ↦ true)).map fun sections ↦
    if sections.isEmpty then [] else [(componentsKey, .table sections)]

end Environment

end Connectors
