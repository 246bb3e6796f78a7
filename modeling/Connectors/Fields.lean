/-!
# Fields in the order of their names

A collection of named values is a list of pairs in the order of their names, with no name twice.
`put` keeps that order: it replaces the value under a name that is there and otherwise inserts the
pair before the first larger name. `overlay` writes a whole collection over another one.

Names are compared code point by code point.
-/

set_option autoImplicit false
set_option relaxedAutoImplicit false

namespace Connectors

/-- Named values, ordered by name. -/
abbrev Fields (α : Type) : Type := List (String × α)

namespace Fields

variable {α β : Type}

/-- The value under a name. -/
def get? (name : String) : Fields α → Option α
  | [] => none
  | (other, value) :: rest => if other = name then some value else get? name rest

/-- Whether there is a value under a name. -/
def has (name : String) (fields : Fields α) : Bool :=
  (get? name fields).isSome

/-- Writes a value under a name. -/
def put (name : String) (value : α) : Fields α → Fields α
  | [] => [(name, value)]
  | (other, old) :: rest =>
    if name = other then (name, value) :: rest
    else if name < other then (name, value) :: (other, old) :: rest
    else (other, old) :: put name value rest

/-- Writes every pair of a list in turn, so that the last one under a name stays. -/
def putAll (fields : Fields α) (pairs : List (String × α)) : Fields α :=
  pairs.foldl (fun fields pair ↦ put pair.1 pair.2 fields) fields

/-- The collection of the pairs of a list; of several under one name the last stays. -/
def ofList (pairs : List (String × α)) : Fields α :=
  putAll [] pairs

/-- The names, in order. -/
def names (fields : Fields α) : List String :=
  fields.map (·.1)

/-- The values, in the order of their names. -/
def values (fields : Fields α) : List α :=
  fields.map (·.2)

@[simp] theorem get?_put_self (name : String) (value : α) (fields : Fields α) :
    get? name (put name value fields) = some value := by
  induction fields with
  | nil => simp [put, get?]
  | cons pair rest ih =>
    obtain ⟨other, old⟩ := pair
    by_cases same : name = other
    · simp [put, same, get?]
    · by_cases before : name < other
      · simp [put, same, before, get?]
      · simp [put, same, before, get?, ih, Ne.symm same]

theorem get?_put_of_ne {name other : String} (value : α) (fields : Fields α)
    (different : other ≠ name) : get? other (put name value fields) = get? other fields := by
  induction fields with
  | nil => simp [put, get?, different.symm]
  | cons pair rest ih =>
    obtain ⟨first, old⟩ := pair
    by_cases same : name = first
    · subst same; simp [put, get?, different.symm]
    · by_cases before : name < first
      · simp [put, same, before, get?, different.symm]
      · simp only [put, same, before, if_false, get?, ih]

end Fields

end Connectors
