import Connectors.Datum

/-!
# The tables of a TOML document

A TOML document builds its tables piece by piece, and whether a piece may be added depends on how a
table came about: by a header of its own, on the way to another header, or by a dotted key. `Tree`
keeps that beside the entries. `Tree.descend` walks to a table and creates those missing on the way;
the remaining functions are the three ways to add to a document, each of which has no answer when it
would define something twice.
-/

set_option autoImplicit false
set_option relaxedAutoImplicit false

namespace Connectors.Toml

/-- How a table came about. -/
inductive Origin where
  /-- By a header of its own, or as the whole document. -/
  | header
  /-- On the way to a header. -/
  | implied
  /-- By a dotted key. -/
  | dotted
deriving DecidableEq

/-- A document, or a part of it, while it is read. -/
inductive Tree where
  /-- A value that is complete. -/
  | leaf (value : Datum)
  /-- A table. -/
  | table (origin : Origin) (entries : List (String × Tree))
  /-- An array of tables, each given by its entries, the last one first. -/
  | tables (items : List (List (String × Tree)))

namespace Tree

mutual

/-- The data of a tree. -/
def datum : Tree → Datum
  | leaf value => value
  | table _ entries => .table (entriesDatum entries)
  | tables items => .list (itemsDatum [] items)

/-- The data of the entries of a table. -/
def entriesDatum : List (String × Tree) → List (String × Datum)
  | [] => []
  | (name, tree) :: rest => Fields.put name (datum tree) (entriesDatum rest)

/-- The data of an array of tables, put before what was converted already. -/
def itemsDatum (converted : List Datum) : List (List (String × Tree)) → List Datum
  | [] => converted
  | entries :: rest => itemsDatum (.table (entriesDatum entries) :: converted) rest

end

/-- Replaces the entry of a name, or adds one. -/
def put (name : String) (tree : Tree) : List (String × Tree) → List (String × Tree)
  | [] => [(name, tree)]
  | (other, old) :: rest =>
    if other = name then (name, tree) :: rest else (other, old) :: put name tree rest

/-- Changes the table at the end of a path. Tables missing on the way get the origin `created`. A
dotted key does not enter a table that has a header, and nothing enters a complete value. -/
def descend (created : Origin)
    (change : Origin → List (String × Tree) → Option (List (String × Tree))) :
    List String → Origin → List (String × Tree) → Option (List (String × Tree))
  | [], origin, entries => change origin entries
  | name :: path, _, entries =>
    match entries.lookup name with
    | none => (descend created change path created []).map fun inner ↦
      put name (.table created inner) entries
    | some (.leaf _) => none
    | some (.table origin inner) =>
      if created = .dotted ∧ origin = .header then none
      else (descend created change path origin inner).map fun inner ↦
        put name (.table origin inner) entries
    | some (.tables []) => none
    | some (.tables (last :: before)) =>
      (descend created change path .header last).map fun last ↦
        put name (.tables (last :: before)) entries

/-- Adds a value under the last name of a dotted key, whose other names are `path`. -/
def addValue (path : List String) (name : String) (value : Tree) :
    Origin → List (String × Tree) → Option (List (String × Tree)) :=
  descend .dotted (fun origin entries ↦
    if decide (origin = .dotted) = path.isEmpty ∨ (entries.lookup name).isSome then none
    else some (put name value entries)) path

/-- Adds the table of a header. -/
def addTable (path : List String) (name : String) :
    Origin → List (String × Tree) → Option (List (String × Tree)) :=
  descend .implied (fun _ entries ↦
    match entries.lookup name with
    | none => some (put name (.table .header []) entries)
    | some (.table .implied inner) => some (put name (.table .header inner) entries)
    | some _ => none) path

/-- Adds the next table of an array of tables. -/
def addItem (path : List String) (name : String) :
    Origin → List (String × Tree) → Option (List (String × Tree)) :=
  descend .implied (fun _ entries ↦
    match entries.lookup name with
    | none => some (put name (.tables [[]]) entries)
    | some (.tables items) => some (put name (.tables ([] :: items)) entries)
    | some _ => none) path

end Tree

end Connectors.Toml
