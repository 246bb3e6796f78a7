import Connectors.Sections.Relaxed

/-!
# Layers of settings

A `Layer` is what one source holds, or what several sources hold together: a table of settings, or
what is wrong with a source. A later layer is put over an earlier one by `Layer.merge`, which unites
tables and otherwise lets the later value stand. `Layer.relaxedMerge` first gives the sections of
the later layer the spellings of the earlier one.

Once a source is at fault the layers stay at fault. Of several faults the first one with a wording
is kept.
-/

set_option autoImplicit false
set_option relaxedAutoImplicit false

namespace Connectors

/-- The settings of a source, or what is wrong with it. -/
abbrev Layer : Type := Except LayerFault (List (String × Datum))

/-- The key of the sections. -/
def componentsKey : String := "components"

/-- The fault that is kept of two. -/
def LayerFault.or : LayerFault → LayerFault → LayerFault
  | malformed, later => later
  | earlier, _ => earlier

namespace Layer

/-- A later layer over an earlier one. -/
def merge (earlier later : Layer) : Layer :=
  match earlier, later with
  | .ok fields, .ok others => .ok (Datum.overlayFields fields others)
  | .ok _, .error fault => .error fault
  | .error fault, .ok _ => .error fault
  | .error fault, .error another => .error (fault.or another)

/-- The sections of a layer. -/
def sections (layer : Layer) : List (String × Datum) :=
  match layer with
  | .error _ => []
  | .ok fields =>
    match Fields.get? componentsKey fields with
    | some (.table sections) => sections
    | _ => []

/-- A layer with its sections in the spellings of the `known` ones. -/
def relaxed (known : List (String × Datum)) (layer : Layer) : Layer :=
  match layer with
  | .error fault => .error fault
  | .ok fields =>
    match Fields.get? componentsKey fields with
    | some (.table sections) =>
      (Relaxed.relax known sections).map fun sections ↦
        Fields.put componentsKey (.table sections) fields
    | _ => .ok fields

/-- A later layer over an earlier one, in the spellings of the earlier one. -/
def relaxedMerge (earlier later : Layer) : Layer :=
  earlier.merge (later.relaxed earlier.sections)

/-- A value below a path of names. The path ends before the first name that is empty. -/
def nest (path : List String) (value : Datum) : Datum :=
  match path with
  | [] => value
  | name :: rest => if name.isEmpty then value else .table [(name, nest rest value)]

/-- The layer of one value below a path. Without a path the value itself has to be a table. -/
def single (path : List String) (value : Datum) : Layer :=
  match nest path value with
  | .table fields => .ok fields
  | _ => .error .malformed

end Layer

end Connectors
