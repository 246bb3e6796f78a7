import Connectors.Config.Error
import Connectors.Datum
import Connectors.Key

/-!
# Merging sections in any spelling

Sources spell ids and keys in their own ways. Before a source is put over those merged already, its
sections are *relaxed*: nested tables are folded into keys written with points (`fold`), and every
name takes the spelling that is in use for it (`respell`), first the ids and then, within each
section, the keys. A name that the source itself spells in several ways keeps its spellings, so that
the conflict is seen when the section is bound.

Folding fails when two values of a section come out under one key.
-/

set_option autoImplicit false
set_option relaxedAutoImplicit false

namespace Connectors.Relaxed

mutual

/-- The values of a table by their paths, added to those in `folded`. A table without values leaves
no trace. -/
def foldValue (id path : String) (folded : List (String × Datum)) :
    Datum → Except LayerFault (List (String × Datum))
  | .table fields => foldFields id path folded fields
  | value =>
    if Fields.has path folded then .error (.setTwice id path)
    else .ok (Fields.put path value folded)

/-- The values of fields below a path, added to those in `folded`. -/
def foldFields (id path : String) (folded : List (String × Datum)) :
    List (String × Datum) → Except LayerFault (List (String × Datum))
  | [] => .ok folded
  | (key, value) :: rest =>
    let inner := if path.isEmpty then key else path ++ "." ++ key
    match foldValue id inner folded value with
    | .ok folded => foldFields id path folded rest
    | .error fault => .error fault

end

/-- A section with its tables folded. What is no table stays as it is. -/
def fold (id : String) : Datum → Except LayerFault Datum
  | .table fields => (foldFields id "" [] fields).map .table
  | value => .ok value

/-- All sections of a source, folded. -/
def foldAll : List (String × Datum) → Except LayerFault (List (String × Datum))
  | [] => .ok []
  | (id, value) :: rest =>
    match fold id value with
    | .error fault => .error fault
    | .ok first => (foldAll rest).map ((id, first) :: ·)

/-- The spelling in use for a name. Of several the last one in order counts. -/
def spelling? (known : List (String × Datum)) (name : String) : Option String :=
  ((known.filter fun field ↦ Key.agree field.1 name).getLast?).map (·.1)

/-- Whether no other name among fields has the same normal form. -/
def spelledOnce (fields : List (String × Datum)) (name : String) : Bool :=
  (fields.filter fun field ↦ Key.agree field.1 name).length == 1

/-- The name that a name of `fields` takes. -/
def respelled (known fields : List (String × Datum)) (name : String) : String :=
  if spelledOnce fields name then (spelling? known name).getD name else name

/-- Fields under the spellings in use. -/
def respell (known fields : List (String × Datum)) : List (String × Datum) :=
  Fields.ofList (fields.map fun (name, value) ↦ (respelled known fields name, value))

/-- A section with its keys in the spellings that the known section of its id uses. -/
def respellSection (known : List (String × Datum)) (id : String) (value : Datum) : Datum :=
  match value, Fields.get? id known with
  | .table fields, some (.table knownFields) => .table (respell knownFields fields)
  | value, _ => value

/-- The sections of a source in the spellings of the `known` ones. -/
def relax (known sections : List (String × Datum)) : Except LayerFault (List (String × Datum)) :=
  (foldAll sections).map fun folded ↦
    (respell known folded).map fun (id, value) ↦ (id, respellSection known id value)

end Connectors.Relaxed
