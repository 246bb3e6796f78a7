import Connectors.Proofs.Sections.Leaves
import Connectors.Proofs.Sections.Spelling
import Connectors.Sections.Relaxed

/-!
# Putting fields in use over others

Fields that are put over others (`Datum.overlayFields`) keep the order of the names, and the value
under a name is united with the one that was there (`get?_overlayFields`). Under respelling
(`Relaxed.respell`) the same holds for names in any spelling: what is put over known fields in their
spellings keeps each name spelled once, and a name that is known stays spelled as it was
(`find?_overlay_respell`).
-/

set_option autoImplicit false
set_option relaxedAutoImplicit false

namespace Connectors

open Spelling

namespace Datum

variable {name key : String} {value : Datum} {earlier later : List (String × Datum)}

/-- A value over the one that may be under its name. -/
def united (held : Option Datum) (value : Datum) : Datum :=
  match held with
  | some earlier => earlier.overlay value
  | none => value

theorem united_of_isLeaf {value : Datum} (hleaf : value.IsLeaf) (held : Option Datum) :
    united held value = value := by
  cases held with
  | none => rfl
  | some earlier => exact overlay_of_isLeaf hleaf

theorem overlay_tables (held given : List (String × Datum)) :
    overlay (.table held) (.table given) = .table (overlayFields held given) := by
  rw [overlay]

theorem overlayFields_cons (rest : List (String × Datum)) :
    overlayFields earlier ((key, value) :: rest) =
      overlayFields (Fields.put key (united (Fields.get? key earlier) value) earlier) rest := by
  rw [overlayFields]
  rfl

theorem ordered_overlayFields (hordered : Fields.Ordered earlier) :
    Fields.Ordered (overlayFields earlier later) := by
  induction later generalizing earlier with
  | nil => simpa [overlayFields] using hordered
  | cons field rest ih =>
    obtain ⟨key, value⟩ := field
    rw [overlayFields_cons]
    exact ih (Fields.ordered_put hordered)

/-- The value under a name is the later one over the earlier one. -/
theorem get?_overlayFields (hlater : (Fields.names later).Nodup) :
    Fields.get? name (overlayFields earlier later) =
      match Fields.get? name later with
      | some value => some (united (Fields.get? name earlier) value)
      | none => Fields.get? name earlier := by
  induction later generalizing earlier with
  | nil => simp [overlayFields, Fields.get?]
  | cons field rest ih =>
    obtain ⟨key, value⟩ := field
    obtain ⟨hkey, hrest⟩ := List.nodup_cons.mp hlater
    rw [overlayFields_cons, ih hrest]
    by_cases hname : key = name
    · have hnone : Fields.get? name rest = none := by
        rw [Fields.get?_eq_none_iff, ← hname]
        exact hkey
      simp [Fields.get?, hname, hnone]
    · rw [Fields.get?_put_of_ne _ _ (Ne.symm hname)]
      simp [Fields.get?, hname]

/-- Fields with all the names of earlier ones stand as they are if each value does. -/
theorem overlayFields_eq_later {earlier later : List (String × Datum)}
    (hearlier : Fields.Ordered earlier) (hlater : Fields.Ordered later)
    (hnames : ∀ name ∈ Fields.names earlier, name ∈ Fields.names later)
    (hvalues : ∀ field ∈ later, united (Fields.get? field.1 earlier) field.2 = field.2) :
    overlayFields earlier later = later := by
  refine (ordered_overlayFields hearlier : Fields.Ordered _).ext hlater fun name ↦ ?_
  rw [get?_overlayFields hlater.nodup_names]
  cases hget : Fields.get? name later with
  | some value => exact congrArg some (hvalues (name, value) (Fields.mem_of_get?_eq_some hget))
  | none =>
    exact Fields.get?_eq_none_iff.mpr fun hname ↦ Fields.get?_eq_none_iff.mp hget
      (hnames name hname)

theorem overlayFields_nil {later : List (String × Datum)} (hlater : Fields.Ordered later) :
    overlayFields [] later = later :=
  overlayFields_eq_later List.Pairwise.nil hlater (by simp [Fields.names]) fun _ _ ↦ rfl

/-- A field over fields is one of the later ones, put over the value there, or one that they do not
touch. -/
theorem mem_overlayFields_iff (hearlier : Fields.Ordered earlier) (hlater : Fields.Ordered later) :
    (name, value) ∈ overlayFields earlier later ↔
      (∃ given, (name, given) ∈ later ∧ united (Fields.get? name earlier) given = value) ∨
        name ∉ Fields.names later ∧ (name, value) ∈ earlier := by
  have hover : Fields.Ordered (overlayFields earlier later) := ordered_overlayFields hearlier
  rw [← Fields.get?_eq_some_iff hover.nodup_names, get?_overlayFields hlater.nodup_names,
    ← Fields.get?_eq_some_iff hearlier.nodup_names]
  simp only [← Fields.get?_eq_some_iff hlater.nodup_names, ← Fields.get?_eq_none_iff]
  cases Fields.get? name later <;> simp

/-! ### Names in any spelling -/

/-- Names that agree with one in use are spelled the same. -/
def Respects (earlier later : List (String × Datum)) : Prop :=
  ∀ field ∈ later, ∀ held ∈ earlier, Key.normal held.1 = Key.normal field.1 → held.1 = field.1

/-- A field over the one that may be in use: it takes its spelling, and its value goes over the one
there. -/
def overField (held given : Option (String × Datum)) : Option (String × Datum) :=
  match held, given with
  | held, none => held
  | none, some field => some field
  | some (spelling, earlier), some (_, value) => some (spelling, earlier.overlay value)

theorem find?_overlayFields (hordered : Fields.Ordered earlier) (honce : Once earlier)
    (hlater : Once later) (hrespects : Respects earlier later) :
    Once (overlayFields earlier later) ∧
      find? name (overlayFields earlier later) =
        overField (find? name earlier) (find? name later) := by
  induction later generalizing earlier with
  | nil =>
    rw [overlayFields]
    exact ⟨honce, by simp [find?, overField]⟩
  | cons field rest ih =>
    obtain ⟨key, value⟩ := field
    obtain ⟨hkey, hrest⟩ := List.nodup_cons.mp hlater
    obtain ⟨hspelled, hothers⟩ := List.forall_mem_cons.mp hrespects
    rw [overlayFields_cons]
    generalize hvalue : united (Fields.get? key earlier) value = result
    have hrespects' : Respects (Fields.put key result earlier) rest := by
      intro other hother held hheld hsame
      rw [Fields.mem_put_iff hordered] at hheld
      rcases hheld with rfl | ⟨-, hheld⟩
      · exact absurd (List.mem_map.mpr ⟨other, hother, hsame.symm⟩) hkey
      · exact hothers other hother held hheld hsame
    obtain ⟨honce', hfind⟩ := ih (Fields.ordered_put hordered)
      (once_put hordered honce hspelled) hrest hrespects'
    refine ⟨honce', ?_⟩
    rw [hfind, find?_put hordered honce hspelled]
    by_cases hname : Key.normal key = Key.normal name
    · have hnone : find? name rest = none := by
        rw [find?_eq_none_iff]
        intro other hother hsame
        exact hkey (List.mem_map.mpr ⟨other, hother, hsame.trans hname.symm⟩)
      have hfirst : find? name ((key, value) :: rest) = some (key, value) := by
        simp [find?, Key.agree, hname]
      have hheld := find?_eq_get? honce hspelled
      rw [if_pos hname, hnone, hfirst, ← find?_congr hname, hheld, ← hvalue]
      cases Fields.get? key earlier <;> rfl
    · have hfirst : find? name ((key, value) :: rest) = find? name rest := by
        simp [find?, Key.agree, hname]
      rw [if_neg hname, hfirst]

end Datum

/-! ### Taking the spellings in use -/

namespace Relaxed

variable {known fields : List (String × Datum)} {name : String}

/-- The spelling that is in use for a name, and else its own. -/
def inUse (known : List (String × Datum)) (name : String) : String :=
  ((find? name known).map (·.1)).getD name

theorem normal_inUse : Key.normal (inUse known name) = Key.normal name := by
  unfold inUse
  cases hfind : find? name known with
  | none => rfl
  | some field => exact normal_of_find?_eq_some hfind

/-- A name that is spelled once among its own takes the spelling in use. -/
theorem respelled_eq (hknown : Once known) (honce : Once fields) {value : Datum}
    (hmem : (name, value) ∈ fields) : respelled known fields name = inUse known name := by
  have hfound : find? name fields = some (name, value) :=
    (find?_eq_some_iff honce).mpr ⟨hmem, rfl⟩
  have hspelled : spelledOnce fields name = true := by
    rw [spelledOnce, filter_eq_find? honce, hfound]
    rfl
  have hspelling : spelling? known name = (find? name known).map (·.1) := by
    rw [spelling?, filter_eq_find? hknown]
    cases find? name known <;> rfl
  rw [respelled, if_pos hspelled, hspelling]
  rfl

/-- Fields in the spellings in use are the same fields by other names. -/
theorem respell_perm (hknown : Once known) (honce : Once fields) :
    Once (fields.map fun field ↦ (inUse known field.1, field.2)) ∧
      (respell known fields).Perm (fields.map fun field ↦ (inUse known field.1, field.2)) := by
  have hnames : respell known fields =
      Fields.ofList (fields.map fun field ↦ (inUse known field.1, field.2)) := by
    refine congrArg Fields.ofList (List.map_congr_left fun field hmem ↦ ?_)
    exact congrArg (·, field.2) (respelled_eq hknown honce hmem)
  have honce' : Once (fields.map fun field ↦ (inUse known field.1, field.2)) := by
    rw [Once, List.map_map]
    simp only [Function.comp_def, normal_inUse]
    exact honce
  refine ⟨honce', ?_⟩
  rw [hnames]
  exact Fields.ofList_perm honce'.nodup_names

theorem once_respell (hknown : Once known) (honce : Once fields) : Once (respell known fields) :=
  (once_perm (respell_perm hknown honce).2).mpr (respell_perm hknown honce).1

theorem find?_respell (hknown : Once known) (honce : Once fields) :
    find? name (respell known fields) =
      (find? name fields).map fun field ↦ (inUse known field.1, field.2) := by
  rw [find?_perm (once_respell hknown honce) (respell_perm hknown honce).2, find?, List.find?_map]
  have hsame : ((fun field : String × Datum ↦ Key.agree field.1 name) ∘
      fun field : String × Datum ↦ (inUse known field.1, field.2)) =
        fun field ↦ Key.agree field.1 name := by
    funext field
    simp only [Function.comp_apply, Key.agree, normal_inUse]
  rw [hsame]
  rfl

/-- A known field is spelled in the way that what is put over it is. -/
theorem inUse_eq (hknown : Once known) {held : String × Datum} (hheld : held ∈ known)
    (hsame : Key.normal held.1 = Key.normal name) : inUse known name = held.1 := by
  rw [inUse, (find?_eq_some_iff hknown).mpr ⟨hheld, hsame⟩]
  rfl

theorem respects_respell (hknown : Once known) (honce : Once fields) :
    Datum.Respects known (respell known fields) := by
  intro field hfield held hheld hsame
  rw [(respell_perm hknown honce).2.mem_iff] at hfield
  obtain ⟨given, -, rfl⟩ := List.mem_map.mp hfield
  exact (inUse_eq hknown hheld (hsame.trans normal_inUse)).symm

/-- Fields that are put over known ones in their spellings: each name stays spelled once, a known
name as it was, and each value given goes over the one that was there. -/
theorem find?_overlay_respell (hordered : Fields.Ordered known) (hknown : Once known)
    (honce : Once fields) :
    Once (Datum.overlayFields known (respell known fields)) ∧
      find? name (Datum.overlayFields known (respell known fields)) =
        Datum.overField (find? name known) (find? name fields) := by
  obtain ⟨honce', hfind⟩ := @Datum.find?_overlayFields name known _ hordered hknown
    (once_respell hknown honce) (respects_respell hknown honce)
  refine ⟨honce', ?_⟩
  rw [hfind, find?_respell hknown honce]
  cases hheld : find? name known with
  | some held => cases find? name fields <;> rfl
  | none =>
    cases hgiven : find? name fields with
    | none => rfl
    | some given =>
      have hunknown : find? given.1 known = none := by
        rw [find?_congr (normal_of_find?_eq_some hgiven), hheld]
      simp [Datum.overField, inUse, hunknown]

end Relaxed

end Connectors
