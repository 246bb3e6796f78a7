import Connectors.Proofs.Sections.Leaves
import Connectors.Proofs.Sections.Overlay

/-!
# Merging sections

Merged sections are `Neat`: there is one section for all spellings of an id, it is a table without
tables in it, and there is one key for all spellings of an option. The sections of a source are
`Tidy` when each is a table and neither its ids nor the paths to its values are spelled in two ways.

The sections of a tidy source can be relaxed, and putting them over neat sections keeps those neat.
A setting that is found there afterwards, whatever the spellings it is looked up by, is the one of
the source in the spelling of the earlier sections (`merge_sections`).
-/

set_option autoImplicit false
set_option relaxedAutoImplicit false

namespace Connectors.Relaxed

open Datum Spelling

/-- A table without tables in it, in which each name is spelled once. -/
structure Flat (entries : List (String × Datum)) : Prop where
  /-- The names are in order. -/
  ordered : Fields.Ordered entries
  /-- No two names are spellings of one. -/
  once : Once entries
  /-- No value is a table. -/
  leaf : ∀ entry ∈ entries, entry.2.IsLeaf

/-- A section that is a flat table. -/
def FlatSection (given : String × Datum) : Prop :=
  ∃ entries, given.2 = .table entries ∧ Flat entries

/-- Sections as they are merged. -/
structure Neat (sections : List (String × Datum)) : Prop where
  /-- The ids are in order. -/
  ordered : Fields.Ordered sections
  /-- No two ids are spellings of one. -/
  once : Once sections
  /-- Every section is a flat table. -/
  flat : ∀ given ∈ sections, FlatSection given

/-- Sections as a source may have them: tables, in which no id and no path to a value is spelled in
two ways. -/
structure Tidy (sections : List (String × Datum)) : Prop where
  /-- No two ids are spellings of one. -/
  once : Once sections
  /-- Every section is a table, and no two paths in it are spellings of one. -/
  tables : ∀ given ∈ sections, ∃ fields, given.2 = .table fields ∧ Once (fieldLeaves "" fields)

/-- The setting of a section that may be there, by any spelling of its path. -/
def within (key : String) (given : Option (String × Datum)) : Option (String × Datum) :=
  given.bind fun given ↦ find? key (leaves "" given.2)

/-- The setting of a component, both in any spelling, with its path and its value. -/
def setting? (id key : String) (sections : List (String × Datum)) : Option (String × Datum) :=
  within key (find? id sections)

/-- A setting after another one was given for it: the first spelling with the last value. -/
def latest (held given : Option (String × Datum)) : Option (String × Datum) :=
  match held, given with
  | held, none => held
  | none, some field => some field
  | some (spelling, _), some (_, value) => some (spelling, value)

theorem Flat.leaves_eq {entries : List (String × Datum)} (hflat : Flat entries) :
    leaves "" (.table entries) = entries := by
  rw [leaves]
  exact fieldLeaves_of_isLeaf hflat.leaf

theorem within_flat {spelling key : String} {entries : List (String × Datum)}
    (hflat : Flat entries) : within key (some (spelling, .table entries)) = find? key entries := by
  change find? key (leaves "" (.table entries)) = find? key entries
  rw [hflat.leaves_eq]

/-- The settings of neat sections are the entries of their tables. -/
theorem Neat.setting?_eq_some_iff {id key : String} {sections : List (String × Datum)}
    (hneat : Neat sections) {field : String × Datum} : setting? id key sections = some field ↔
      ∃ name entries, (name, .table entries) ∈ sections ∧ Key.normal name = Key.normal id ∧
        field ∈ entries ∧ Key.normal field.1 = Key.normal key := by
  constructor
  · intro hsetting
    obtain ⟨⟨name, value⟩, hfind, hfield⟩ := Option.bind_eq_some_iff.mp hsetting
    obtain ⟨hmem, hname⟩ := (find?_eq_some_iff hneat.once).mp hfind
    obtain ⟨entries, hvalue, hflat⟩ := hneat.flat _ hmem
    obtain rfl : value = .table entries := hvalue
    rw [hflat.leaves_eq, find?_eq_some_iff hflat.once] at hfield
    exact ⟨name, entries, hmem, hname, hfield⟩
  · rintro ⟨name, entries, hmem, hname, hfield⟩
    obtain ⟨_, hvalue, hflat⟩ := hneat.flat _ hmem
    obtain rfl := Datum.table.inj hvalue
    rw [setting?, (find?_eq_some_iff hneat.once).mpr ⟨hmem, hname⟩, within_flat hflat]
    exact (find?_eq_some_iff hflat.once).mpr hfield

/-! ### Folding -/

/-- A tidy table folds to a flat one with the same values. -/
theorem fold_table (id : String) {fields : List (String × Datum)}
    (honce : Once (fieldLeaves "" fields)) :
    ∃ entries, fold id (.table fields) = .ok (.table entries) ∧ Flat entries ∧
      entries.Perm (fieldLeaves "" fields) := by
  obtain ⟨entries, hfold, hperm, hordered⟩ := foldFields_leaves id "" [] fields honce.nodup_names
  rw [List.nil_append] at hperm
  refine ⟨entries, ?_, ⟨hordered List.Pairwise.nil, (once_perm hperm).mpr honce, ?_⟩, hperm⟩
  · rw [fold, hfold]
    rfl
  · intro entry hentry
    exact isLeaf_of_mem_fieldLeaves "" fields entry (hperm.mem_iff.mp hentry)

theorem find?_cons {α : Type} {name : String} (first : String × α) (rest : List (String × α)) :
    find? name (first :: rest) =
      if Key.agree first.1 name then some first else find? name rest := by
  rw [find?, List.find?_cons]
  cases Key.agree first.1 name <;> rfl

/-- A section and what it folds to. -/
def Folds (given result : String × Datum) : Prop :=
  result.1 = given.1 ∧ ∃ fields entries, given.2 = .table fields ∧ result.2 = .table entries ∧
    Flat entries ∧ entries.Perm (fieldLeaves "" fields)

theorem foldAll_tables {sections : List (String × Datum)}
    (htables : ∀ given ∈ sections, ∃ fields, given.2 = .table fields ∧
      Once (fieldLeaves "" fields)) :
    ∃ folded, foldAll sections = .ok folded ∧ List.Forall₂ Folds sections folded := by
  induction sections with
  | nil => exact ⟨[], rfl, .nil⟩
  | cons first rest ih =>
    obtain ⟨id, value⟩ := first
    obtain ⟨⟨fields, hfields, honce⟩, hrest⟩ := List.forall_mem_cons.mp htables
    obtain ⟨entries, hfold, hflat, hperm⟩ := fold_table id honce
    obtain ⟨folded, hfolded, hall⟩ := ih hrest
    have hvalue : value = .table fields := hfields
    refine ⟨(id, .table entries) :: folded, ?_, ?_⟩
    · rw [foldAll, hvalue, hfold, hfolded]
      rfl
    · exact .cons ⟨rfl, fields, entries, hfields, rfl, hflat, hperm⟩ hall

/-- What an id finds among sections, it finds among what they fold to. -/
theorem find?_folds {sections folded : List (String × Datum)}
    (hfolds : List.Forall₂ Folds sections folded) (id : String) :
    find? id sections = none ∧ find? id folded = none ∨
      ∃ given result, find? id sections = some given ∧ find? id folded = some result ∧
        Folds given result := by
  induction hfolds with
  | nil => exact .inl ⟨rfl, rfl⟩
  | @cons given result _ _ hfirst _ ih =>
    rw [find?_cons, find?_cons, hfirst.1]
    by_cases hagree : Key.agree given.1 id = true
    · rw [if_pos hagree, if_pos hagree]
      exact .inr ⟨given, result, rfl, rfl, hfirst⟩
    · rw [if_neg hagree, if_neg hagree]
      exact ih

theorem once_folds {sections folded : List (String × Datum)}
    (hfolds : List.Forall₂ Folds sections folded) (honce : Once sections) : Once folded := by
  have hnames : folded.map (fun given ↦ Key.normal given.1) =
      sections.map fun given ↦ Key.normal given.1 := by
    induction hfolds with
    | nil => rfl
    | cons hfirst _ ih => rw [List.map_cons, List.map_cons, hfirst.1, ih honce.of_cons]
  rw [Once, hnames]
  exact honce

/-! ### Putting sections over others -/

/-- A section over the one that may be in use for its id. -/
def overSection (held given : Option (String × Datum)) : Option (String × Datum) :=
  match held, given with
  | held, none => held
  | none, some field => some field
  | some (spelling, earlier), some (_, later) =>
    some (spelling, .table (overlayFields earlier.fields (respell earlier.fields later.fields)))

theorem overField_of_isLeaf {held given : Option (String × Datum)}
    (hleaf : ∀ field, given = some field → field.2.IsLeaf) :
    overField held given = latest held given := by
  match held, given with
  | none, none => rfl
  | some _, none => rfl
  | none, some _ => rfl
  | some (spelling, earlier), some (name, value) =>
    rw [overField, overlay_of_isLeaf (hleaf _ rfl)]
    rfl

/-- A flat table over another one, in its spellings, is flat, and each name has the last value in
the first spelling. -/
theorem flat_overlay {held given : List (String × Datum)} (hheld : Flat held)
    (hgiven : Flat given) :
    Flat (overlayFields held (respell held given)) ∧
      ∀ key, find? key (overlayFields held (respell held given)) =
        latest (find? key held) (find? key given) := by
  have hspec := fun key ↦
    @find?_overlay_respell held given key hheld.ordered hheld.once hgiven.once
  have hleaf : ∀ key field, find? key given = some field → field.2.IsLeaf := fun key field hfind ↦
    hgiven.leaf field ((find?_eq_some_iff hgiven.once).mp hfind).1
  have hfind : ∀ key, find? key (overlayFields held (respell held given)) =
      latest (find? key held) (find? key given) := fun key ↦
    (hspec key).2.trans (overField_of_isLeaf (hleaf key))
  refine ⟨⟨ordered_overlayFields hheld.ordered, (hspec "").1, fun entry hentry ↦ ?_⟩, hfind⟩
  have hentry' := (find?_eq_some_iff (hspec "").1).mpr ⟨hentry, rfl⟩
  rw [hfind] at hentry'
  cases hfirst : find? entry.1 held with
  | none =>
    rw [hfirst] at hentry'
    cases hsecond : find? entry.1 given with
    | none => simp [hsecond, latest] at hentry'
    | some field =>
      simp only [hsecond, latest, Option.some.injEq] at hentry'
      exact hentry' ▸ hleaf _ field hsecond
  | some first =>
    rw [hfirst] at hentry'
    cases hsecond : find? entry.1 given with
    | none =>
      simp only [hsecond, latest, Option.some.injEq] at hentry'
      exact hentry' ▸ hheld.leaf first ((find?_eq_some_iff hheld.once).mp hfirst).1
    | some field =>
      simp only [hsecond, latest, Option.some.injEq] at hentry'
      exact hentry' ▸ hleaf _ field hsecond

/-- Folded sections over neat ones, in their spellings. -/
theorem find?_relaxed {known folded : List (String × Datum)} (hknown : Neat known)
    (honce : Once folded)
    (hflat : ∀ given ∈ folded, FlatSection given) :
    let relaxed := (respell known folded).map fun (id, value) ↦ (id, respellSection known id value)
    Once (overlayFields known relaxed) ∧ ∀ id, find? id (overlayFields known relaxed) =
      overSection (find? id known) (find? id folded) := by
  intro relaxed
  have hnames : ∀ field ∈ relaxed, ∃ given ∈ respell known folded, field.1 = given.1 := by
    intro field hfield
    obtain ⟨given, hgiven, rfl⟩ := List.mem_map.mp hfield
    exact ⟨given, hgiven, rfl⟩
  have honce' : Once relaxed := by
    rw [Once, List.map_map]
    exact once_respell hknown.once honce
  have hrespects : Respects known relaxed := by
    intro field hfield held hheld hsame
    obtain ⟨given, hgiven, hname⟩ := hnames field hfield
    rw [hname] at hsame ⊢
    exact respects_respell hknown.once honce given hgiven held hheld hsame
  have hover := fun id ↦ @find?_overlayFields id known relaxed hknown.ordered hknown.once honce'
    hrespects
  refine ⟨(hover "").1, fun id ↦ ?_⟩
  rw [(hover id).2, find?_map, find?_respell hknown.once honce]
  cases hgiven : find? id folded with
  | none => cases find? id known <;> rfl
  | some given =>
    obtain ⟨spelling, value⟩ := given
    obtain ⟨entries, hvalue, -⟩ := hflat _ ((find?_eq_some_iff honce).mp hgiven).1
    obtain rfl : value = .table entries := hvalue
    have hspelling := normal_of_find?_eq_some hgiven
    have hnames' : (Fields.names known).Nodup := hknown.once.nodup_names
    cases hheld : find? id known with
    | none =>
      have hunknown : find? spelling known = none := by rw [find?_congr hspelling, hheld]
      have hnone : Fields.get? spelling known = none := by
        rw [Fields.get?_eq_none_iff, Fields.mem_names_iff]
        rintro ⟨other, hother⟩
        exact find?_eq_none_iff.mp hunknown _ hother rfl
      simp [inUse, hunknown, respellSection, hnone, overField, overSection]
    | some held =>
      obtain ⟨hmem, hsame⟩ := (find?_eq_some_iff hknown.once).mp hheld
      obtain ⟨earlier, hearlier, -⟩ := hknown.flat held hmem
      have huse := inUse_eq hknown.once hmem (hsame.trans hspelling.symm)
      have hget : Fields.get? held.1 known = some (.table earlier) := by
        rw [Fields.get?_eq_some_iff hnames', ← hearlier]
        exact hmem
      simp [huse, respellSection, hget, overField, overSection, hearlier, overlay, fields]

theorem map_fst_overSection (held given : Option (String × Datum)) :
    (overSection held given).map (·.1) = (held.map (·.1)).or (given.map (·.1)) := by
  cases held <;> cases given <;> rfl

/-- A flat section over another one is flat and has the latest settings. -/
theorem within_overSection {held given : Option (String × Datum)}
    (hheld : ∀ field, held = some field → FlatSection field)
    (hgiven : ∀ field, given = some field → FlatSection field) :
    (∀ field, overSection held given = some field → FlatSection field) ∧
      ∀ key, within key (overSection held given) = latest (within key held) (within key given) := by
  match held, given with
  | none, none => exact ⟨by simp [overSection], fun key ↦ rfl⟩
  | some held, none =>
    refine ⟨hheld, fun key ↦ ?_⟩
    change within key (some held) = latest (within key (some held)) none
    cases within key (some held) <;> rfl
  | none, some given =>
    refine ⟨hgiven, fun key ↦ ?_⟩
    change within key (some given) = latest none (within key (some given))
    cases within key (some given) <;> rfl
  | some (spelling, earlier), some (name, later) =>
    obtain ⟨heldEntries, hearlier, hheldFlat⟩ := hheld _ rfl
    obtain ⟨givenEntries, hlater, hgivenFlat⟩ := hgiven _ rfl
    obtain rfl : earlier = .table heldEntries := hearlier
    obtain rfl : later = .table givenEntries := hlater
    obtain ⟨hflat, hfind⟩ := flat_overlay hheldFlat hgivenFlat
    constructor
    · intro field hfield
      obtain rfl := Option.some.inj hfield
      exact ⟨_, rfl, hflat⟩
    · intro key
      have hunited : overSection (some (spelling, .table heldEntries))
          (some (name, .table givenEntries)) =
          some (spelling, .table (overlayFields heldEntries (respell heldEntries givenEntries))) :=
        rfl
      rw [hunited, within_flat hflat, hfind, within_flat hheldFlat, within_flat hgivenFlat]

/-- The sections of a tidy source over neat ones: they can be relaxed, the sections stay neat, every
id keeps its first spelling, and every setting is the latest one. -/
theorem merge_sections {known sections : List (String × Datum)} (hknown : Neat known)
    (htidy : Tidy sections) :
    ∃ relaxed, relax known sections = .ok relaxed ∧ Neat (overlayFields known relaxed) ∧
      (∀ id, (find? id (overlayFields known relaxed)).map (·.1) =
        ((find? id known).map (·.1)).or ((find? id sections).map (·.1))) ∧
      ∀ id key, setting? id key (overlayFields known relaxed) =
        latest (setting? id key known) (setting? id key sections) := by
  obtain ⟨folded, hfolded, hfolds⟩ := foldAll_tables htidy.tables
  have honce := once_folds hfolds htidy.once
  have hfoldedFlat : ∀ id field, find? id folded = some field → FlatSection field := by
    intro id field hfield
    rcases find?_folds hfolds id with ⟨-, hnone⟩ | ⟨given, result, -, hresult, hfold⟩
    · simp [hnone] at hfield
    · obtain rfl := Option.some.inj (hresult.symm.trans hfield)
      obtain ⟨-, fields, entries, -, hentries, hflat, -⟩ := hfold
      exact ⟨entries, hentries, hflat⟩
  have hknownFlat : ∀ id field, find? id known = some field → FlatSection field :=
    fun id field hfield ↦ hknown.flat field ((find?_eq_some_iff hknown.once).mp hfield).1
  have hflat : ∀ given ∈ folded, FlatSection given := fun given hgiven ↦
    hfoldedFlat given.1 given ((find?_eq_some_iff honce).mpr ⟨hgiven, rfl⟩)
  obtain ⟨honce', hfind⟩ := find?_relaxed hknown honce hflat
  have hover := fun id ↦ within_overSection (hknownFlat id) (hfoldedFlat id)
  refine ⟨_, by rw [relax, hfolded]; rfl,
    ⟨ordered_overlayFields hknown.ordered, honce', ?_⟩, ?_, ?_⟩
  · intro given hgiven
    have hgiven' := (find?_eq_some_iff honce').mpr ⟨hgiven, rfl⟩
    rw [hfind] at hgiven'
    exact (hover given.1).1 given hgiven'
  · intro id
    rw [hfind, map_fst_overSection]
    rcases find?_folds hfolds id with ⟨hgiven, hresult⟩ | ⟨given, result, hgiven, hresult, hfold⟩
    · rw [hgiven, hresult]
    · rw [hgiven, hresult, Option.map_some, Option.map_some, hfold.1]
  · intro id key
    rw [setting?, setting?, setting?, hfind, (hover id).2]
    rcases find?_folds hfolds id with ⟨hgiven, hresult⟩ | ⟨given, result, hgiven, hresult, hfold⟩
    · rw [hgiven, hresult]
    · obtain ⟨-, fields, entries, hfields, hentries, hflat, hperm⟩ := hfold
      have hsame : within key (some result) = within key (some given) := by
        simp only [within, Option.bind_some, hfields, hentries, hflat.leaves_eq, leaves]
        exact find?_perm hflat.once hperm
      rw [hgiven, hresult, hsame]

end Connectors.Relaxed
