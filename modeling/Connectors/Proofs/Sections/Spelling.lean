import Connectors.Key
import Connectors.Proofs.Fields

/-!
# Fields by any spelling

`Spelling.find?` looks a field up by its name in any spelling. Where no two names have one normal
form (`Spelling.Once`) this finds the only field there can be (`find?_eq_some_iff`), whatever the
order of the fields. A value that is written under the spelling in use takes the place of the one
there, and leaves all other names alone (`find?_put`).
-/

set_option autoImplicit false
set_option relaxedAutoImplicit false

namespace Connectors

/-- A value is written under its name, and what stands under other names stays. -/
theorem Fields.mem_put_iff {α : Type} {name : String} {value : α} {fields : Fields α}
    (hordered : Ordered fields) {field : String × α} :
    field ∈ put name value fields ↔ field = (name, value) ∨ field.1 ≠ name ∧ field ∈ fields := by
  obtain ⟨other, held⟩ := field
  have hput := (ordered_put hordered : Ordered (put name value fields)).nodup_names
  rw [← get?_eq_some_iff hput, ← get?_eq_some_iff hordered.nodup_names, Prod.mk.injEq]
  by_cases hother : other = name
  · rw [hother, get?_put_self]
    simp [eq_comm]
  · rw [get?_put_of_ne value fields hother]
    simp [hother]

namespace Spelling

variable {α β : Type} {name other : String} {fields others : List (String × α)}
  {field : String × α}

/-- The field that a name in any spelling leads to. -/
def find? (name : String) (fields : List (String × α)) : Option (String × α) :=
  fields.find? fun field ↦ Key.agree field.1 name

/-- No two names have one normal form. -/
def Once (fields : List (String × α)) : Prop :=
  (fields.map fun field ↦ Key.normal field.1).Nodup

instance (fields : List (String × α)) : Decidable (Once fields) :=
  inferInstanceAs (Decidable (List.map (fun field : String × α ↦ Key.normal field.1) fields).Nodup)

theorem Once.nodup_names (honce : Once fields) : (fields.map (·.1)).Nodup := by
  refine List.Nodup.of_map Key.normal ?_
  rw [List.map_map]
  exact honce

theorem once_perm (hfields : fields.Perm others) : Once fields ↔ Once others :=
  (hfields.map _).nodup_iff

/-! ### Finding a field -/

theorem find?_eq_none_iff :
    find? name fields = none ↔ ∀ field ∈ fields, Key.normal field.1 ≠ Key.normal name := by
  simp [find?, Key.agree]

theorem normal_of_find?_eq_some (hfind : find? name fields = some field) :
    Key.normal field.1 = Key.normal name := by
  have hagree := List.find?_some (p := fun field : String × α ↦ Key.agree field.1 name) hfind
  exact Key.agree_iff.mp hagree

/-- Where each name is spelled once, the field found is the only one. -/
theorem find?_eq_some_iff (honce : Once fields) :
    find? name fields = some field ↔ field ∈ fields ∧ Key.normal field.1 = Key.normal name := by
  constructor
  · intro hfind
    exact ⟨List.mem_of_find?_eq_some hfind, normal_of_find?_eq_some hfind⟩
  · rintro ⟨hmem, hname⟩
    cases hfind : find? name fields with
    | none => exact absurd hname (find?_eq_none_iff.mp hfind field hmem)
    | some found =>
      have hsame := (normal_of_find?_eq_some hfind).trans hname.symm
      rw [List.inj_on_of_nodup_map honce (List.mem_of_find?_eq_some hfind) hmem hsame]

theorem find?_congr (hname : Key.normal name = Key.normal other) :
    find? name fields = find? other fields := by
  simp only [find?, Key.agree, hname]

theorem find?_perm (honce : Once fields) (hfields : fields.Perm others) :
    find? name fields = find? name others := by
  ext field
  have hothers : Once others := (once_perm hfields).mp honce
  rw [find?_eq_some_iff honce, find?_eq_some_iff hothers, hfields.mem_iff]

/-- Fields with the same names are found under the same names. -/
theorem find?_map (f : String → α → β) :
    find? name (fields.map fun (key, value) ↦ (key, f key value)) =
      (find? name fields).map fun (key, value) ↦ (key, f key value) := by
  rw [find?, List.find?_map]
  rfl

theorem filter_eq_find? (honce : Once fields) :
    (fields.filter fun field ↦ Key.agree field.1 name) = (find? name fields).toList := by
  induction fields with
  | nil => rfl
  | cons first rest ih =>
    obtain ⟨hfirst, hrest⟩ := List.nodup_cons.mp honce
    by_cases hagree : Key.agree first.1 name = true
    · have hothers : find? name rest = none := by
        rw [find?_eq_none_iff]
        intro field hmem hname
        have hsame := hname.trans (Key.agree_iff.mp hagree).symm
        exact hfirst (List.mem_map.mpr ⟨field, hmem, hsame⟩)
      simp only [List.filter_cons, hagree, if_true, ih hrest, hothers]
      simp [find?, hagree]
    · simp only [List.filter_cons, hagree, Bool.false_eq_true, if_false, ih hrest]
      simp [find?, hagree]

/-- Under the spelling in use, any spelling finds what the spelling itself does. -/
theorem find?_eq_get? {key : String} (honce : Once fields)
    (hspelled : ∀ field ∈ fields, Key.normal field.1 = Key.normal key → field.1 = key) :
    find? key fields = (Fields.get? key fields).map fun value ↦ (key, value) := by
  have hnames : (Fields.names fields).Nodup := honce.nodup_names
  ext ⟨spelling, value⟩
  rw [find?_eq_some_iff honce, Option.map_eq_some_iff]
  simp only [Fields.get?_eq_some_iff hnames, Prod.mk.injEq]
  constructor
  · rintro ⟨hmem, hname⟩
    have hkey := hspelled _ hmem hname
    exact ⟨value, hkey ▸ hmem, hkey.symm, rfl⟩
  · rintro ⟨held, hmem, rfl, rfl⟩
    exact ⟨hmem, rfl⟩

/-! ### Writing a field -/

section Put

variable {key : String} {value : α} (hordered : Fields.Ordered fields) (honce : Once fields)
  (hspelled : ∀ field ∈ fields, Key.normal field.1 = Key.normal key → field.1 = key)

include hordered honce hspelled

/-- A value that is written under the spelling in use brings no second spelling. -/
theorem once_put : Once (Fields.put key value fields) := by
  have hnames : (Fields.put key value fields).Nodup :=
    (Fields.ordered_put hordered : Fields.Ordered (Fields.put key value fields)).nodup_names.of_map
  refine List.Nodup.map_on ?_ hnames
  intro first hfirst second hsecond hsame
  rw [Fields.mem_put_iff hordered] at hfirst hsecond
  rcases hfirst with rfl | ⟨hne, hfirst⟩
  · rcases hsecond with rfl | ⟨hne, hsecond⟩
    · rfl
    · exact absurd (hspelled second hsecond hsame.symm) hne
  · rcases hsecond with rfl | ⟨-, hsecond⟩
    · exact absurd (hspelled first hfirst hsame) hne
    · exact List.inj_on_of_nodup_map honce hfirst hsecond hsame

/-- It is found under every spelling of its name, and under no other name. -/
theorem find?_put : find? name (Fields.put key value fields) =
    if Key.normal key = Key.normal name then some (key, value) else find? name fields := by
  have hput : Once (Fields.put key value fields) := once_put hordered honce hspelled
  ext field
  rw [find?_eq_some_iff hput, Fields.mem_put_iff hordered]
  split_ifs with hname
  · constructor
    · rintro ⟨rfl | ⟨hne, hmem⟩, hfield⟩
      · rfl
      · exact absurd (hspelled field hmem (hfield.trans hname.symm)) hne
    · intro hfield
      obtain rfl := Option.some.inj hfield
      exact ⟨.inl rfl, hname⟩
  · rw [find?_eq_some_iff honce]
    constructor
    · rintro ⟨rfl | ⟨-, hmem⟩, hfield⟩
      · exact absurd hfield hname
      · exact ⟨hmem, hfield⟩
    · rintro ⟨hmem, hfield⟩
      refine ⟨.inr ⟨fun heq ↦ hname ?_, hmem⟩, hfield⟩
      rw [← heq, hfield]

end Put

end Spelling

end Connectors
