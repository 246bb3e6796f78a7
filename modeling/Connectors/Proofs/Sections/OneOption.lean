import Connectors.Proofs.Sections.Folding
import Connectors.Proofs.Sections.Merging
import Connectors.Proofs.Sections.OneName

/-!
# One option in merged sections

What becomes of one option of one component does not depend on how the other options and components
are spelled. Sections are `Clear` for an option when they have one section for the component at
most, a table without tables in it, and one key for the option at most. A source `Addresses` an
option clearly when its section for the component is a table in which at most one path leads to the
option.

A source that can be relaxed and addresses an option clearly, put over sections that are clear for
it, leaves them clear: the option has the value of the source in the spelling of the earlier
sections, as if nothing else was there (`merge_option`).
-/

set_option autoImplicit false
set_option relaxedAutoImplicit false

namespace Connectors.Relaxed

open Datum Spelling

variable {id key : String} {known sections folded : List (String × Datum)}

/-- A table without tables in it, in which an option has at most one key. -/
structure ClearTable (key : String) (entries : List (String × Datum)) : Prop where
  /-- The names are in order. -/
  ordered : Fields.Ordered entries
  /-- No value is a table. -/
  leaf : ∀ entry ∈ entries, entry.2.IsLeaf
  /-- The option has at most one key. -/
  once : OnceFor key entries

/-- A section that is such a table. -/
def ClearSection (key : String) (given : String × Datum) : Prop :=
  ∃ entries, given.2 = .table entries ∧ ClearTable key entries

/-- Sections in which an option of a component stands in one place at most. -/
structure Clear (id key : String) (sections : List (String × Datum)) : Prop where
  /-- The ids are in order. -/
  ordered : Fields.Ordered sections
  /-- The component has at most one section. -/
  once : OnceFor id sections
  /-- It is a table with at most one key for the option. -/
  table : ∀ given ∈ sections, Key.normal given.1 = Key.normal id → ClearSection key given

/-- The sections of a source in which at most one path of each section of a component leads to an
option. -/
structure Addresses (id key : String) (sections : List (String × Datum)) : Prop where
  /-- No id stands twice. -/
  names : (Fields.names sections).Nodup
  /-- The sections of the component are tables with at most one path to the option. -/
  table : ∀ given ∈ sections, Key.normal given.1 = Key.normal id →
    ∃ fields, given.2 = .table fields ∧ OnceFor key (fieldLeaves "" fields)

theorem Neat.clear (hneat : Neat sections) (id key : String) : Clear id key sections := by
  refine ⟨hneat.ordered, hneat.once.onceFor id, fun given hgiven _ ↦ ?_⟩
  obtain ⟨entries, hvalue, hflat⟩ := hneat.flat given hgiven
  exact ⟨entries, hvalue, hflat.ordered, hflat.leaf, hflat.once.onceFor key⟩

theorem Clear.section_of_find? (hclear : Clear id key sections) {given : String × Datum}
    (hfind : find? id sections = some given) : ClearSection key given :=
  hclear.table given (List.mem_of_find?_eq_some hfind) (normal_of_find?_eq_some hfind)

theorem ClearTable.leaves_eq {entries : List (String × Datum)} (hclear : ClearTable key entries) :
    leaves "" (.table entries) = entries := by
  rw [leaves]
  exact fieldLeaves_of_isLeaf hclear.leaf

/-- The setting of a section that is a table without tables. -/
theorem within_of_clearTable {spelling : String} {entries : List (String × Datum)}
    (hclear : ClearTable key entries) :
    within key (some (spelling, .table entries)) = find? key entries := by
  rw [within, Option.bind_some, hclear.leaves_eq]

theorem latest_some (held : Option (String × Datum)) (field : String × Datum) :
    latest held (some field) = some ((held.map (·.1)).getD field.1, field.2) := by
  cases held <;> rfl

/-! ### Folding -/

/-- What an id finds among sections, it finds among what they fold to. -/
theorem find?_foldAll (hfolds : List.Forall₂
      (fun given result ↦ result.1 = given.1 ∧ fold given.1 given.2 = .ok result.2) sections folded)
    (id : String) : find? id sections = none ∧ find? id folded = none ∨
      ∃ name value result, find? id sections = some (name, value) ∧
        find? id folded = some (name, result) ∧ fold name value = .ok result := by
  induction hfolds with
  | nil => exact .inl ⟨rfl, rfl⟩
  | @cons given result _ _ hfirst _ ih =>
    rw [find?_cons, find?_cons, hfirst.1]
    by_cases hagree : Key.agree given.1 id = true
    · rw [if_pos hagree, if_pos hagree]
      exact .inr ⟨given.1, given.2, result.2, rfl, by rw [← hfirst.1], hfirst.2⟩
    · rw [if_neg hagree, if_neg hagree]
      exact ih

theorem names_foldAll (hfolds : List.Forall₂
    (fun given result ↦ result.1 = given.1 ∧ fold given.1 given.2 = .ok result.2) sections folded) :
    Fields.names folded = Fields.names sections := by
  induction hfolds with
  | nil => rfl
  | cons hfirst _ ih =>
    rw [Fields.names, List.map_cons, hfirst.1]
    exact congrArg _ ih

/-- A table in which one path leads to an option folds to one with one key for it, and the same
value. -/
theorem clear_of_fold {name : String} {fields : List (String × Datum)} {result : Datum}
    (hfold : fold name (.table fields) = .ok result) (honce : OnceFor key (fieldLeaves "" fields)) :
    ClearSection key (name, result) ∧
      within key (some (name, result)) = within key (some (name, .table fields)) := by
  have hcases := fold_cases name (.table fields)
  rw [hfold] at hcases
  cases hcases with
  | leaf hleaf => exact absurd rfl (hleaf fields)
  | @table others entries hvalue hperm hordered =>
    obtain rfl := Datum.table.inj hvalue
    have hclear : ClearTable key entries := by
      refine ⟨hordered, fun entry hentry ↦ ?_, honce.perm hperm.symm⟩
      exact isLeaf_of_mem_fieldLeaves "" fields entry (hperm.mem_iff.mp hentry)
    refine ⟨⟨entries, rfl, hclear⟩, ?_⟩
    rw [within_of_clearTable hclear, within, Option.bind_some, leaves]
    exact find?_perm_of_onceFor hordered.nodup_names hclear.once hperm

/-! ### Taking the spellings of the known sections -/

/-- Folded sections in the spellings of the known ones. -/
def inSpellingsOf (known folded : List (String × Datum)) : List (String × Datum) :=
  (respell known folded).map fun (name, value) ↦ (name, respellSection known name value)

theorem relax_eq (known sections : List (String × Datum)) :
    relax known sections = (foldAll sections).map (inSpellingsOf known) :=
  rfl

theorem names_inSpellingsOf (known folded : List (String × Datum)) :
    Fields.names (inSpellingsOf known folded) = Fields.names (respell known folded) := by
  rw [Fields.names, inSpellingsOf, List.map_map]
  rfl

theorem nodup_inSpellingsOf (known folded : List (String × Datum)) :
    (Fields.names (inSpellingsOf known folded)).Nodup := by
  rw [names_inSpellingsOf]
  exact (Fields.ordered_ofList _ : Fields.Ordered (respell known folded)).nodup_names

/-- A component has one section in what comes out exactly when it has one on both sides. -/
theorem onceFor_inSpellingsOf (hnames : (Fields.names folded).Nodup)
    (hknown : (Fields.names known).Nodup) :
    OnceFor id (overlayFields known (inSpellingsOf known folded)) ↔
      OnceFor id known ∧ OnceFor id folded := by
  have hsame : Fields.names (known ++ inSpellingsOf known folded) =
      Fields.names (known ++ respell known folded) := by
    rw [Fields.names, List.map_append, Fields.names, List.map_append]
    exact congrArg _ (names_inSpellingsOf known folded)
  rw [onceFor_overlayFields, ← onceFor_append_respell hnames hknown, onceFor_iff_names,
    onceFor_iff_names, hsame]

/-- The section of a component over the one in use for it. -/
theorem find?_inSpellingsOf (hknown : Clear id key known) (hnames : (Fields.names folded).Nodup)
    (honce : OnceFor id folded)
    (htable : ∀ given, find? id folded = some given → ∃ entries, given.2 = .table entries) :
    find? id (overlayFields known (inSpellingsOf known folded)) =
      overSection (find? id known) (find? id folded) := by
  have hknownNames := hknown.ordered.nodup_names
  have hover := (onceFor_inSpellingsOf hnames hknownNames).mpr ⟨hknown.once, honce⟩
  have hrespell := (find?_respell_of_onceFor hnames hknownNames hknown.once honce).2
  have hfind : find? id (inSpellingsOf known folded) = (find? id folded).map fun field ↦
      (inUse known field.1, respellSection known (inUse known field.1) field.2) := by
    rw [inSpellingsOf, find?_map, hrespell, Option.map_map]
    rfl
  rw [find?_overlayFields_of_onceFor hknown.ordered (nodup_inSpellingsOf known folded)
    (onceFor_overlayFields.mp hover), hfind]
  cases hgiven : find? id folded with
  | none => cases find? id known <;> rfl
  | some given =>
    obtain ⟨name, value⟩ := given
    obtain ⟨entries, hvalue⟩ := htable _ hgiven
    obtain rfl : value = .table entries := hvalue
    have hname := normal_of_find?_eq_some hgiven
    cases hheld : find? id known with
    | none =>
      have hunknown : find? name known = none := by rw [find?_congr hname, hheld]
      have hnone : Fields.get? name known = none := by
        rw [Fields.get?_eq_none_iff, Fields.mem_names_iff]
        rintro ⟨other, hother⟩
        exact find?_eq_none_iff.mp hunknown _ hother rfl
      simp [inUse, hunknown, respellSection, hnone, overField, overSection]
    | some held =>
      obtain ⟨hmem, hsame⟩ := (find?_eq_some_iff_of_onceFor hknownNames hknown.once).mp hheld
      obtain ⟨earlier, hearlier, -⟩ := hknown.table held hmem hsame
      have huse := inUse_eq_of_onceFor hknownNames (hknown.once.congr hname.symm) hmem
        (hsame.trans hname.symm)
      have hget : Fields.get? held.1 known = some (.table earlier) := by
        rw [Fields.get?_eq_some_iff hknownNames, ← hearlier]
        exact hmem
      simp [huse, respellSection, hget, overField, overSection, hearlier, overlay, Datum.fields]

/-! ### Putting tables over others -/

/-- A clear table over another one, in its spellings, is clear, and the option has the last value in
the first spelling. -/
theorem clear_overlay {held given : List (String × Datum)} (hheld : ClearTable key held)
    (hgiven : ClearTable key given) : ClearTable key (overlayFields held (respell held given)) ∧
      find? key (overlayFields held (respell held given)) =
        latest (find? key held) (find? key given) := by
  have hheldNames := hheld.ordered.nodup_names
  have hgivenNames := hgiven.ordered.nodup_names
  have hfind := (find?_respell_of_onceFor hgivenNames hheldNames hheld.once hgiven.once).2
  have hperm : (respell held given).Perm
      (given.map fun field ↦ (respelled held given field.1, field.2)) :=
    respell_perm_respelled hgivenNames
  have hnames : (Fields.names (respell held given)).Nodup :=
    (Fields.ordered_ofList _ : Fields.Ordered (respell held given)).nodup_names
  have hleaf : ∀ field ∈ respell held given, field.2.IsLeaf := by
    intro field hfield
    obtain ⟨other, hother, rfl⟩ := List.mem_map.mp (hperm.mem_iff.mp hfield)
    exact hgiven.leaf other hother
  have htogether : OnceFor key (held ++ respell held given) :=
    (onceFor_append_respell hgivenNames hheldNames).mpr ⟨hheld.once, hgiven.once⟩
  have hordered : Fields.Ordered (overlayFields held (respell held given)) :=
    ordered_overlayFields hheld.ordered
  constructor
  · refine ⟨hordered, fun entry hentry ↦ ?_, onceFor_overlayFields.mpr htogether⟩
    have hget := (Fields.get?_eq_some_iff hordered.nodup_names).mpr hentry
    rw [get?_overlayFields hnames] at hget
    cases hnew : Fields.get? entry.1 (respell held given) with
    | none =>
      rw [hnew] at hget
      exact hheld.leaf entry (Fields.mem_of_get?_eq_some hget)
    | some value =>
      have hvalue : value.IsLeaf := hleaf _ (Fields.mem_of_get?_eq_some hnew)
      rw [hnew] at hget
      rw [← Option.some.inj hget]
      cases hold : Fields.get? entry.1 held with
      | none => simpa [united, hold] using hvalue
      | some earlier => simpa [united, hold, overlay_of_isLeaf hvalue] using hvalue
  · have hlater : ∀ field, find? key (respell held given) = some field → field.2.IsLeaf :=
      fun field hfield ↦ hleaf field (List.mem_of_find?_eq_some hfield)
    rw [find?_overlayFields_of_onceFor hheld.ordered hnames htogether, overField_of_isLeaf hlater,
      hfind]
    cases hfirst : find? key held with
    | some first => cases find? key given <;> rfl
    | none =>
      cases hsecond : find? key given with
      | none => rfl
      | some second =>
        have hunknown : find? second.1 held = none := by
          rw [find?_congr (normal_of_find?_eq_some hsecond), hfirst]
        simp [latest, inUse, hunknown]

/-- A section with a clear table over another one. -/
theorem clear_overSection {held given : Option (String × Datum)}
    (hheld : ∀ field, held = some field → ClearSection key field)
    (hgiven : ∀ field, given = some field → ClearSection key field) :
    (∀ field, overSection held given = some field → ClearSection key field) ∧
      within key (overSection held given) = latest (within key held) (within key given) := by
  match held, given with
  | none, none => exact ⟨by simp [overSection], rfl⟩
  | some held, none =>
    refine ⟨hheld, ?_⟩
    rw [overSection]
    cases within key (some held) <;> rfl
  | none, some given =>
    refine ⟨hgiven, ?_⟩
    rw [overSection]
    cases within key (some given) <;> rfl
  | some (spelling, earlier), some (name, later) =>
    obtain ⟨heldEntries, hearlier, hheldClear⟩ := hheld _ rfl
    obtain ⟨givenEntries, hlater, hgivenClear⟩ := hgiven _ rfl
    obtain rfl : earlier = .table heldEntries := hearlier
    obtain rfl : later = .table givenEntries := hlater
    obtain ⟨hclear, hfind⟩ := clear_overlay hheldClear hgivenClear
    have hunited : overSection (some (spelling, .table heldEntries))
        (some (name, .table givenEntries)) =
        some (spelling, .table (overlayFields heldEntries (respell heldEntries givenEntries))) :=
      rfl
    rw [hunited]
    refine ⟨fun field hfield ↦ ?_, ?_⟩
    · obtain rfl := Option.some.inj hfield
      exact ⟨_, rfl, hclear⟩
    · rw [within_of_clearTable hclear, hfind, within_of_clearTable hheldClear,
        within_of_clearTable hgivenClear]

/-! ### Merging a source -/

/-- A source that addresses an option clearly, over sections that are clear for it: these stay
clear, the section of the component keeps its first spelling, and the option has the latest
setting. -/
theorem merge_option {relaxed : List (String × Datum)} (hknown : Clear id key known)
    (hsource : Addresses id key sections) (honce : OnceFor id sections)
    (hrelax : relax known sections = .ok relaxed) :
    Clear id key (overlayFields known relaxed) ∧
      (find? id (overlayFields known relaxed)).map (·.1) =
        ((find? id known).map (·.1)).or ((find? id sections).map (·.1)) ∧
      setting? id key (overlayFields known relaxed) =
        latest (setting? id key known) (setting? id key sections) := by
  obtain ⟨folded, hfolded, hfolds⟩ | ⟨_, _, fault, _, hfault⟩ := foldAll_cases sections
  · obtain rfl : inSpellingsOf known folded = relaxed := by
      simpa [relax_eq, hfolded, Except.map] using hrelax
    have hnames : (Fields.names folded).Nodup := names_foldAll hfolds ▸ hsource.names
    have honce' : OnceFor id folded := by
      rw [onceFor_iff_names, names_foldAll hfolds, ← onceFor_iff_names]
      exact honce
    have hfound : ∀ field, find? id folded = some field → ClearSection key field ∧
        within key (some field) = within key (find? id sections) := by
      intro field hfield
      rcases find?_foldAll hfolds id with ⟨-, hnone⟩ | ⟨name, value, result, hgiven, hresult, hfold⟩
      · simp [hnone] at hfield
      · obtain rfl := Option.some.inj (hresult.symm.trans hfield)
        obtain ⟨fields, hvalue, hpaths⟩ := hsource.table _ (List.mem_of_find?_eq_some hgiven)
          (normal_of_find?_eq_some hgiven)
        obtain rfl : value = .table fields := hvalue
        rw [hgiven]
        exact clear_of_fold hfold hpaths
    have hfind := find?_inSpellingsOf hknown hnames honce' fun given hgiven ↦
      let ⟨entries, hentries, _⟩ := (hfound given hgiven).1
      ⟨entries, hentries⟩
    obtain ⟨hclear, hwithin⟩ := clear_overSection (fun field ↦ hknown.section_of_find?)
      fun field hfield ↦ (hfound field hfield).1
    have hover :=
      (onceFor_inSpellingsOf hnames hknown.ordered.nodup_names).mpr ⟨hknown.once, honce'⟩
    have hordered : Fields.Ordered (overlayFields known (inSpellingsOf known folded)) :=
      ordered_overlayFields hknown.ordered
    refine ⟨⟨hordered, hover, fun given hgiven hname ↦ ?_⟩, ?_, ?_⟩
    · refine hclear given (hfind ▸ ?_)
      exact (find?_eq_some_iff_of_onceFor hordered.nodup_names hover).mpr ⟨hgiven, hname⟩
    · rw [hfind, map_fst_overSection]
      rcases find?_foldAll hfolds id with ⟨hgiven, hresult⟩ | ⟨_, _, _, hgiven, hresult, -⟩
      · rw [hgiven, hresult]
      · rw [hgiven, hresult, Option.map_some, Option.map_some]
    · rw [setting?, setting?, setting?, hfind, hwithin]
      cases hresult : find? id folded with
      | some field => rw [(hfound field hresult).2]
      | none =>
        rcases find?_foldAll hfolds id with ⟨hgiven, -⟩ | ⟨_, _, _, -, hsome, -⟩
        · rw [hgiven]
        · simp [hsome] at hresult
  · simp [relax_eq, hfault, Except.map] at hrelax

/-- Where merged sections have one section for a component, so had the earlier ones and the
source. -/
theorem onceFor_of_merge {relaxed : List (String × Datum)} (hknown : Fields.Ordered known)
    (hnames : (Fields.names sections).Nodup) (hrelax : relax known sections = .ok relaxed)
    (honce : OnceFor id (overlayFields known relaxed)) :
    OnceFor id known ∧ OnceFor id sections := by
  obtain ⟨folded, hfolded, hfolds⟩ | ⟨_, _, fault, _, hfault⟩ := foldAll_cases sections
  · obtain rfl : inSpellingsOf known folded = relaxed := by
      simpa [relax_eq, hfolded, Except.map] using hrelax
    have hboth :=
      (onceFor_inSpellingsOf (names_foldAll hfolds ▸ hnames) hknown.nodup_names).mp honce
    refine ⟨hboth.1, ?_⟩
    rw [onceFor_iff_names, ← names_foldAll hfolds, ← onceFor_iff_names]
    exact hboth.2
  · simp [relax_eq, hfault, Except.map] at hrelax

end Connectors.Relaxed
