import Connectors.Fields
import Connectors.Number.Binary64

/-!
# Settings as data

A `Datum` is a value as configuration sources hold it, whatever their syntax: a scalar, a list, or a
table of named values in the order of their names.

`Datum.overlay` puts a later source over an earlier one. Two tables are united name by name, and of
any other two values the later one stays.
-/

set_option autoImplicit false
set_option relaxedAutoImplicit false

namespace Connectors

/-- A value of a configuration source. -/
inductive Datum where
  /-- No value. -/
  | null
  /-- A truth value. -/
  | bool (value : Bool)
  /-- An integer. -/
  | int (value : Int)
  /-- A floating point number. -/
  | float (value : Binary64)
  /-- A text. -/
  | text (value : String)
  /-- A list of values. -/
  | list (items : List Datum)
  /-- Named values, ordered by name. -/
  | table (fields : List (String × Datum))
deriving Inhabited, Repr

namespace Datum

/-! ### Equality -/

mutual

/-- Equality of data is decided by comparing them part by part. -/
def decEq : (a b : Datum) → Decidable (a = b)
  | null, null => isTrue rfl
  | bool a, bool b => if h : a = b then isTrue (by rw [h]) else isFalse (by simpa using h)
  | int a, int b => if h : a = b then isTrue (by rw [h]) else isFalse (by simpa using h)
  | float a, float b => if h : a = b then isTrue (by rw [h]) else isFalse (by simpa using h)
  | text a, text b => if h : a = b then isTrue (by rw [h]) else isFalse (by simpa using h)
  | list a, list b =>
    match decEqItems a b with
    | isTrue h => isTrue (by rw [h])
    | isFalse h => isFalse (by simpa using h)
  | table a, table b =>
    match decEqFields a b with
    | isTrue h => isTrue (by rw [h])
    | isFalse h => isFalse (by simpa using h)
  | null, bool _ | null, int _ | null, float _ | null, text _ | null, list _ | null, table _ =>
    isFalse (by simp)
  | bool _, null | bool _, int _ | bool _, float _ | bool _, text _ | bool _, list _
  | bool _, table _ => isFalse (by simp)
  | int _, null | int _, bool _ | int _, float _ | int _, text _ | int _, list _ | int _, table _ =>
    isFalse (by simp)
  | float _, null | float _, bool _ | float _, int _ | float _, text _ | float _, list _
  | float _, table _ => isFalse (by simp)
  | text _, null | text _, bool _ | text _, int _ | text _, float _ | text _, list _
  | text _, table _ => isFalse (by simp)
  | list _, null | list _, bool _ | list _, int _ | list _, float _ | list _, text _
  | list _, table _ => isFalse (by simp)
  | table _, null | table _, bool _ | table _, int _ | table _, float _ | table _, text _
  | table _, list _ => isFalse (by simp)

/-- Equality of lists of data. -/
def decEqItems : (a b : List Datum) → Decidable (a = b)
  | [], [] => isTrue rfl
  | a :: as, b :: bs =>
    match decEq a b, decEqItems as bs with
    | isTrue h, isTrue hs => isTrue (by rw [h, hs])
    | isFalse h, _ => isFalse (by simp [h])
    | _, isFalse hs => isFalse (by simp [hs])
  | [], _ :: _ => isFalse (by simp)
  | _ :: _, [] => isFalse (by simp)

/-- Equality of fields. -/
def decEqFields : (a b : List (String × Datum)) → Decidable (a = b)
  | [], [] => isTrue rfl
  | (name, a) :: as, (other, b) :: bs =>
    match decEq a b, decEqFields as bs with
    | isTrue h, isTrue hs =>
      if same : name = other then isTrue (by rw [h, hs, same]) else isFalse (by simp [same])
    | isFalse h, _ => isFalse (by simp [h])
    | _, isFalse hs => isFalse (by simp [hs])
  | [], _ :: _ => isFalse (by simp)
  | _ :: _, [] => isFalse (by simp)

end

instance : DecidableEq Datum := decEq

/-! ### Layers -/

mutual

/-- A later value over an earlier one. -/
def overlay (earlier : Datum) : Datum → Datum
  | table later =>
    match earlier with
    | table fields => table (overlayFields fields later)
    | _ => table later
  | later => later

/-- The fields of a later table over those of an earlier one. -/
def overlayFields (earlier : List (String × Datum)) :
    List (String × Datum) → List (String × Datum)
  | [] => earlier
  | (name, later) :: rest =>
    overlayFields
      (Fields.put name
        (match Fields.get? name earlier with
          | some value => overlay value later
          | none => later)
        earlier)
      rest

end

/-- The fields of a table, and none of any other value. -/
def fields : Datum → List (String × Datum)
  | table fields => fields
  | _ => []

end Datum

end Connectors
