import Connectors.Proofs.Sections.OneOption

/-!
# The sections of the other components

Writing under a name, and putting fields over others, can be watched on some of the names only
(`Fields.filter_put`, `Datum.filter_overlayFields`). So a source that has no section for a component
leaves the section of the component as it is, and what it does to the other sections does not depend
on that section (`Relaxed.relax_elsewhere`, `Relaxed.merge_elsewhere`). And a source with one
setting of a component leaves all other sections, and all other settings of that one
(`Relaxed.merge_setting`).
-/

set_option autoImplicit false
set_option relaxedAutoImplicit false

namespace Connectors

open Spelling Datum

/-! ### Some of the names -/

namespace Fields

variable {α : Type} {name : String} {value : α} {fields : Fields α}

/-- Among the names that are kept, writing under a name is writing under it if it is kept. -/
theorem filter_put (hordered : Ordered fields) (keep : String → Bool) :
    (put name value fields).filter (fun field ↦ keep field.1) =
      if keep name then put name value (fields.filter fun field ↦ keep field.1)
      else fields.filter fun field ↦ keep field.1 := by
  have hkept : Ordered (fields.filter fun field ↦ keep field.1) := hordered.filter _
  have hput : Ordered ((put name value fields).filter fun field ↦ keep field.1) :=
    (ordered_put hordered : Ordered (put name value fields)).filter _
  split_ifs with hname
  · refine hput.ext (ordered_put hkept) fun other ↦ ?_
    by_cases hother : other = name
    · rw [hother, get?_filter, if_pos hname, get?_put_self, get?_put_self]
    · rw [get?_filter, get?_put_of_ne _ _ hother, get?_put_of_ne _ _ hother, get?_filter]
  · refine hput.ext hkept fun other ↦ ?_
    rw [get?_filter, get?_filter]
    by_cases hother : other = name
    · rw [hother, if_neg hname, if_neg hname]
    · rw [get?_put_of_ne _ _ hother]

end Fields

/-- Among the names that are kept, putting fields over others is putting those that are kept. -/
theorem Datum.filter_overlayFields {earlier : List (String × Datum)}
    (hordered : Fields.Ordered earlier) (keep : String → Bool) (later : List (String × Datum)) :
    (overlayFields earlier later).filter (fun field ↦ keep field.1) =
      overlayFields (earlier.filter fun field ↦ keep field.1)
        (later.filter fun field ↦ keep field.1) := by
  induction later generalizing earlier with
  | nil => rw [overlayFields, List.filter_nil, overlayFields]
  | cons field rest ih =>
    obtain ⟨name, value⟩ := field
    rw [overlayFields_cons, ih (Fields.ordered_put hordered), Fields.filter_put hordered,
      List.filter_cons]
    split_ifs with hname
    · rw [overlayFields_cons, Fields.get?_filter, if_pos hname]
    · rfl

/-! ### The other components -/

namespace Relaxed

variable {id name : String} {known sections relaxed : List (String × Datum)}

/-- The sections of the components other than one. -/
def elsewhere (id : String) (sections : List (String × Datum)) : List (String × Datum) :=
  sections.filter fun given ↦ !Key.agree given.1 id

/-- No section is for a component. -/
def Spares (id : String) (sections : List (String × Datum)) : Prop :=
  ∀ given ∈ sections, Key.normal given.1 ≠ Key.normal id

theorem mem_elsewhere_iff {given : String × Datum} :
    given ∈ elsewhere id sections ↔ given ∈ sections ∧ Key.normal given.1 ≠ Key.normal id := by
  simp [elsewhere, Key.agree]

theorem Spares.elsewhere_eq (hspares : Spares id sections) : elsewhere id sections = sections := by
  refine List.filter_eq_self.mpr fun given hgiven ↦ ?_
  simpa [Key.agree] using hspares given hgiven

theorem Spares.filter_eq (hspares : Spares id sections) :
    (sections.filter fun given ↦ Key.agree given.1 id) = [] := by
  refine List.filter_eq_nil_iff.mpr fun given hgiven ↦ ?_
  simpa [Key.agree] using hspares given hgiven

/-- The spelling of a name does not depend on names with another normal form. -/
theorem spelling?_elsewhere (hname : Key.normal name ≠ Key.normal id) :
    spelling? (elsewhere id known) name = spelling? known name := by
  rw [spelling?, spelling?, elsewhere, List.filter_filter]
  congr 3
  funext field
  by_cases hfield : Key.normal field.1 = Key.normal name <;> simp [Key.agree, hfield, hname]

theorem respell_elsewhere {fields : List (String × Datum)} (hspares : Spares id fields) :
    respell (elsewhere id known) fields = respell known fields := by
  rw [respell, respell]
  refine congrArg Fields.ofList (List.map_congr_left ?_)
  rintro ⟨name, value⟩ hfield
  simp only [respelled, spelling?_elsewhere (hspares _ hfield)]

/-- Each name is a spelling of one that was there. -/
theorem exists_of_mem_respell {fields : List (String × Datum)} {given : String × Datum}
    (hgiven : given ∈ respell known fields) :
    ∃ field ∈ fields, Key.normal given.1 = Key.normal field.1 := by
  have hname : given.1 ∈ Fields.names (respell known fields) := List.mem_map_of_mem hgiven
  rw [respell, Fields.ofList, Fields.mem_names_putAll] at hname
  obtain ⟨pair, hpair, hsame⟩ := List.mem_map.mp (hname.resolve_left List.not_mem_nil)
  obtain ⟨field, hfield, rfl⟩ := List.mem_map.mp hpair
  exact ⟨field, hfield, hsame ▸ normal_respelled⟩

theorem respellSection_elsewhere (hname : Key.normal name ≠ Key.normal id) (value : Datum) :
    respellSection (elsewhere id known) name value = respellSection known name value := by
  have hget : Fields.get? name (elsewhere id known) = Fields.get? name known := by
    rw [elsewhere, Fields.get?_filter fun other ↦ !Key.agree other id]
    exact if_pos (by simpa [Key.agree] using hname)
  rw [respellSection.eq_def, respellSection.eq_def, hget]

theorem inSpellingsOf_elsewhere {folded : List (String × Datum)} (hspares : Spares id folded) :
    inSpellingsOf (elsewhere id known) folded = inSpellingsOf known folded := by
  rw [inSpellingsOf, inSpellingsOf, respell_elsewhere hspares]
  refine List.map_congr_left ?_
  rintro ⟨name, value⟩ hgiven
  obtain ⟨field, hfield, hname⟩ := exists_of_mem_respell hgiven
  simp only [respellSection_elsewhere (hname ▸ hspares field hfield)]

/-- What becomes of sections for other components does not depend on the section of this one. -/
theorem relax_elsewhere (hspares : Spares id sections) :
    relax (elsewhere id known) sections = relax known sections := by
  rw [relax_eq, relax_eq]
  rcases foldAll_cases sections with ⟨folded, hfolded, hfolds⟩ | ⟨-, -, fault, -, hfault⟩
  · have hfoldedSpares : Spares id folded := by
      intro given hgiven
      have hname : given.1 ∈ Fields.names folded := List.mem_map_of_mem hgiven
      rw [names_foldAll hfolds, Fields.mem_names_iff] at hname
      obtain ⟨value, hvalue⟩ := hname
      exact hspares (given.1, value) hvalue
    rw [hfolded]
    exact congrArg Except.ok (inSpellingsOf_elsewhere hfoldedSpares)
  · rw [hfault]
    rfl

/-- Relaxed sections are for the components that the sections are for. -/
theorem exists_of_mem_relax (hrelax : relax known sections = .ok relaxed) {given : String × Datum}
    (hgiven : given ∈ relaxed) : ∃ other ∈ sections, Key.normal given.1 = Key.normal other.1 := by
  rw [relax_eq] at hrelax
  rcases foldAll_cases sections with ⟨folded, hfolded, hfolds⟩ | ⟨-, -, fault, -, hfault⟩
  · obtain rfl : inSpellingsOf known folded = relaxed := by
      simpa [hfolded, Except.map] using hrelax
    obtain ⟨held, hheld, rfl⟩ := List.mem_map.mp hgiven
    obtain ⟨field, hfield, hsame⟩ := exists_of_mem_respell hheld
    have hname : field.1 ∈ Fields.names folded := List.mem_map_of_mem hfield
    rw [names_foldAll hfolds, Fields.mem_names_iff] at hname
    obtain ⟨value, hvalue⟩ := hname
    exact ⟨_, hvalue, hsame⟩
  · simp [hfault, Except.map] at hrelax

theorem spares_relax (hspares : Spares id sections) (hrelax : relax known sections = .ok relaxed) :
    Spares id relaxed := by
  intro given hgiven
  obtain ⟨other, hother, hname⟩ := exists_of_mem_relax hrelax hgiven
  exact hname ▸ hspares other hother

/-- Sections for other components that are put over sections: the component keeps its section, and
the others are put over the others. -/
theorem merge_elsewhere (hordered : Fields.Ordered known) (hspares : Spares id relaxed) :
    ((overlayFields known relaxed).filter fun given ↦ Key.agree given.1 id) =
        known.filter (fun given ↦ Key.agree given.1 id) ∧
      elsewhere id (overlayFields known relaxed) = overlayFields (elsewhere id known) relaxed := by
  constructor
  · rw [Datum.filter_overlayFields hordered fun name ↦ Key.agree name id, hspares.filter_eq]
    rw [Datum.overlayFields]
  · have hfilter := Datum.filter_overlayFields hordered (fun name ↦ !Key.agree name id) relaxed
    have hrelaxed := hspares.elsewhere_eq
    rw [elsewhere] at hrelaxed ⊢
    rw [hfilter, hrelaxed]
    rfl

theorem mem_of_filter_eq (hpart : (sections.filter fun given ↦ Key.agree given.1 id) =
      known.filter fun given ↦ Key.agree given.1 id) {given : String × Datum}
    (hgiven : given ∈ sections) (hname : Key.normal given.1 = Key.normal id) : given ∈ known := by
  have hfilter : given ∈ sections.filter fun given ↦ Key.agree given.1 id :=
    List.mem_filter.mpr ⟨hgiven, Key.agree_iff.mpr hname⟩
  exact (List.mem_filter.mp (hpart ▸ hfilter)).1

/-- What holds of the section of a component holds where it stands unchanged. -/
theorem clear_of_filter_eq {key : String} (hordered : Fields.Ordered sections)
    (hpart : (sections.filter fun given ↦ Key.agree given.1 id) =
      known.filter fun given ↦ Key.agree given.1 id) (hknown : Clear id key known) :
    Clear id key sections ∧ setting? id key sections = setting? id key known := by
  have hmem : ∀ given ∈ sections, Key.normal given.1 = Key.normal id → given ∈ known :=
    fun given ↦ mem_of_filter_eq hpart
  refine ⟨⟨hordered, fun first hfirst second hsecond hone htwo ↦ ?_,
    fun given hgiven hname ↦ ?_⟩, ?_⟩
  · exact hknown.once first (hmem first hfirst hone) second (hmem second hsecond htwo) hone htwo
  · exact hknown.table given (hmem given hgiven hname) hname
  · have hhead := congrArg List.head? hpart
    rw [List.head?_filter, List.head?_filter] at hhead
    rw [setting?, setting?, find?, hhead, find?]

/-- Sections in which a component has a setting, with the id `sid` if it is new, over those that are
known. -/
structure SetOver (id key : String) (value : Datum) (sid : String)
    (known merged : List (String × Datum)) : Prop where
  /-- They are neat. -/
  neat : Neat merged
  /-- The other sections are as before. -/
  elsewhere : elsewhere id merged = elsewhere id known
  /-- The section of the component has the id it had, or the new one. -/
  ids : ∀ given ∈ merged, Key.normal given.1 = Key.normal id →
    given.1 = sid ∨ given.1 ∈ Fields.names known
  /-- Its entries are the setting, and those there before for other options. -/
  entries : ∀ name entries, (name, .table entries) ∈ merged → Key.normal name = Key.normal id →
    ∀ entry ∈ entries, Key.normal entry.1 = Key.normal key ∧ entry.2 = value ∨
      Key.normal entry.1 ≠ Key.normal key ∧ ∃ spelling others,
        (spelling, .table others) ∈ known ∧ Key.normal spelling = Key.normal id ∧ entry ∈ others
  /-- The setting is there. -/
  setting : ∃ spelling, setting? id key merged = some (spelling, value)

/-- The setting of a section with one entry. -/
theorem setting?_single {sid path other : String} {value : Datum} (hleaf : value.IsLeaf)
    (hsid : Key.normal sid = Key.normal id) :
    setting? id other [(sid, .table [(path, value)])] =
      if Key.agree path other then some (path, value) else none := by
  have hfind :
      find? id [(sid, Datum.table [(path, value)])] = some (sid, .table [(path, value)]) := by
    simp [find?, Key.agree, hsid]
  have hleaves : fieldLeaves "" [(path, value)] = [(path, value)] :=
    fieldLeaves_of_isLeaf (by simpa using hleaf)
  rw [setting?, hfind, within, Option.bind_some, leaves, hleaves, find?_cons]
  rfl

/-- One setting of a component can be put over neat sections. -/
theorem merge_setting (hknown : Neat known) {sid path key : String} {value : Datum}
    (hleaf : value.IsLeaf) (hsid : Key.normal sid = Key.normal id)
    (hpath : Key.normal path = Key.normal key) :
    ∃ relaxed, relax known [(sid, .table [(path, value)])] = .ok relaxed ∧
      SetOver id key value sid known (overlayFields known relaxed) := by
  have htidy : Tidy [(sid, .table [(path, value)])] := by
    refine ⟨List.nodup_singleton _, fun field hfield ↦ ?_⟩
    obtain rfl := List.mem_singleton.mp hfield
    refine ⟨_, rfl, ?_⟩
    rw [fieldLeaves_of_isLeaf (by simpa using hleaf)]
    exact List.nodup_singleton _
  obtain ⟨relaxed, hrelax, hneat, hids, hsettings⟩ := merge_sections hknown htidy
  refine ⟨relaxed, hrelax, hneat, ?_, fun given hgiven hname ↦ ?_,
    fun name entries hmem hname entry hentry ↦ ?_, ?_⟩
  · have hnone : (relaxed.filter fun given ↦ !Key.agree given.1 id) = [] := by
      refine List.filter_eq_nil_iff.mpr fun given hgiven ↦ ?_
      obtain ⟨other, hother, hname⟩ := exists_of_mem_relax hrelax hgiven
      obtain rfl := List.mem_singleton.mp hother
      simpa [Key.agree] using hname.trans hsid
    rw [elsewhere, filter_overlayFields hknown.ordered fun name ↦ !Key.agree name id, hnone,
      overlayFields]
    rfl
  · have hfind : find? id [(sid, Datum.table [(path, value)])] =
        some (sid, .table [(path, value)]) := by simp [find?, Key.agree, hsid]
    have hheld := hids id
    rw [(find?_eq_some_iff hneat.once).mpr ⟨hgiven, hname⟩, hfind] at hheld
    cases hbefore : find? id known with
    | none => exact .inl (by simpa [hbefore] using hheld)
    | some before =>
      obtain ⟨hmem, -⟩ := (find?_eq_some_iff hknown.once).mp hbefore
      right
      rw [show given.1 = before.1 by simpa [hbefore] using hheld]
      exact List.mem_map_of_mem hmem
  · have hlatest := (hsettings id entry.1).symm.trans
      (hneat.setting?_eq_some_iff.mpr ⟨name, entries, hmem, hname, hentry, rfl⟩)
    rw [setting?_single hleaf hsid] at hlatest
    by_cases hsame : Key.normal path = Key.normal entry.1
    · left
      rw [if_pos (Key.agree_iff.mpr hsame), latest_some] at hlatest
      exact ⟨hsame.symm.trans hpath, congrArg Prod.snd (Option.some.inj hlatest).symm⟩
    · right
      rw [if_neg (mt Key.agree_iff.mp hsame)] at hlatest
      refine ⟨fun hkey ↦ hsame (hpath.trans hkey.symm), ?_⟩
      have hheld : setting? id entry.1 known = some entry := by
        cases hbefore : setting? id entry.1 known with
        | none => simp [hbefore, latest] at hlatest
        | some before => simpa [hbefore, latest] using hlatest
      obtain ⟨spelling, others, hothers, hspelling, hmem', -⟩ :=
        hknown.setting?_eq_some_iff.mp hheld
      exact ⟨spelling, others, hothers, hspelling, hmem'⟩
  · rw [hsettings, setting?_single hleaf hsid, if_pos (Key.agree_iff.mpr hpath), latest_some]
    exact ⟨_, rfl⟩

end Relaxed

end Connectors
