import Connectors.Proofs.Sections.Overlay

/-!
# One name among fields

Fields may spell some names in several ways and still have one spelling for the name that matters
(`Spelling.OnceFor`). Then this name is looked up like an exact one (`find?_eq_get?_of_only`),
whatever the other names are. The same holds of putting fields over others and of taking the
spellings in use: what happens to a name depends on the fields with its normal form only
(`find?_overlayFields_of_onceFor`, `Relaxed.find?_respell_of_onceFor`), and no field is lost on the
way (`Relaxed.respell_perm_respelled`).
-/

set_option autoImplicit false
set_option relaxedAutoImplicit false

namespace Connectors

open Spelling

namespace Spelling

variable {α : Type} {name key : String} {fields others : List (String × α)}

/-- All fields that a name in any spelling leads to are spelled `key`. -/
def Only (name key : String) (fields : List (String × α)) : Prop :=
  ∀ field ∈ fields, Key.normal field.1 = Key.normal name → field.1 = key

/-- A name has at most one spelling. -/
def OnceFor (name : String) (fields : List (String × α)) : Prop :=
  ∀ first ∈ fields, ∀ second ∈ fields, Key.normal first.1 = Key.normal name →
    Key.normal second.1 = Key.normal name → first.1 = second.1

instance (name : String) (fields : List (String × α)) : Decidable (OnceFor name fields) :=
  inferInstanceAs (Decidable (∀ first ∈ fields, ∀ second ∈ fields,
    Key.normal first.1 = Key.normal name → Key.normal second.1 = Key.normal name →
      first.1 = second.1))

theorem Once.onceFor (honce : Once fields) (name : String) : OnceFor name fields := by
  intro first hfirst second hsecond hone htwo
  rw [List.inj_on_of_nodup_map honce hfirst hsecond (hone.trans htwo.symm)]

/-- Where every name has at most one spelling, and stands once, each is spelled once. -/
theorem once_of_onceFor (hnames : (Fields.names fields).Nodup)
    (honce : ∀ name, OnceFor name fields) : Once fields := by
  refine List.Nodup.map_on ?_ hnames.of_map
  intro first hfirst second hsecond hsame
  exact List.inj_on_of_nodup_map hnames hfirst hsecond
    (honce second.1 first hfirst second hsecond hsame rfl)

/-- The spelling of a name that has at most one. -/
theorem OnceFor.exists_only (honce : OnceFor name fields) :
    ∃ key, Key.normal key = Key.normal name ∧ Only name key fields := by
  by_cases hfound : ∃ field ∈ fields, Key.normal field.1 = Key.normal name
  · obtain ⟨field, hfield, hname⟩ := hfound
    exact ⟨field.1, hname, fun other hother hsame ↦ honce other hother field hfield hsame hname⟩
  · exact ⟨name, rfl, fun field hfield hname ↦ absurd ⟨field, hfield, hname⟩ hfound⟩

theorem OnceFor.perm (honce : OnceFor name fields) (hfields : fields.Perm others) :
    OnceFor name others := fun first hfirst second hsecond ↦
  honce first (hfields.mem_iff.mpr hfirst) second (hfields.mem_iff.mpr hsecond)

theorem OnceFor.congr {other : String} (honce : OnceFor name fields)
    (hname : Key.normal name = Key.normal other) : OnceFor other fields := by
  rw [OnceFor, ← hname]
  exact honce

theorem onceFor_iff_names : OnceFor name fields ↔
    ∀ first ∈ Fields.names fields, ∀ second ∈ Fields.names fields,
      Key.normal first = Key.normal name → Key.normal second = Key.normal name →
        first = second := by
  simp only [OnceFor, Fields.names, List.forall_mem_map]

theorem onceFor_append_iff : OnceFor name (fields ++ others) ↔
    OnceFor name fields ∧ OnceFor name others ∧ ∀ first ∈ fields, ∀ second ∈ others,
      Key.normal first.1 = Key.normal name → Key.normal second.1 = Key.normal name →
        first.1 = second.1 := by
  constructor
  · intro honce
    refine ⟨fun first hfirst second hsecond ↦ ?_, fun first hfirst second hsecond ↦ ?_,
      fun first hfirst second hsecond ↦ ?_⟩
    · exact honce first (List.mem_append_left _ hfirst) second (List.mem_append_left _ hsecond)
    · exact honce first (List.mem_append_right _ hfirst) second (List.mem_append_right _ hsecond)
    · exact honce first (List.mem_append_left _ hfirst) second (List.mem_append_right _ hsecond)
  · rintro ⟨hfields, hothers, hacross⟩ first hfirst second hsecond hone htwo
    rcases List.mem_append.mp hfirst with hfirst | hfirst <;>
      rcases List.mem_append.mp hsecond with hsecond | hsecond
    · exact hfields first hfirst second hsecond hone htwo
    · exact hacross first hfirst second hsecond hone htwo
    · exact (hacross second hsecond first hfirst htwo hone).symm
    · exact hothers first hfirst second hsecond hone htwo

/-! ### Looking it up -/

/-- The fields of a name with one spelling are those of the spelling. -/
theorem filter_eq_get? (hnames : (Fields.names fields).Nodup)
    (hkey : Key.normal key = Key.normal name) (honly : Only name key fields) :
    (fields.filter fun field ↦ Key.agree field.1 name) =
      ((Fields.get? key fields).map fun value ↦ (key, value)).toList := by
  induction fields with
  | nil => rfl
  | cons field rest ih =>
    obtain ⟨other, value⟩ := field
    obtain ⟨hfirst, hrest⟩ := List.forall_mem_cons.mp honly
    obtain ⟨hnew, hnames'⟩ := List.nodup_cons.mp hnames
    by_cases hagree : Key.agree other name = true
    · obtain rfl : other = key := hfirst (Key.agree_iff.mp hagree)
      have hnone : Fields.get? other rest = none := Fields.get?_eq_none_iff.mpr hnew
      simp only [List.filter_cons, hagree, if_true, ih hnames' hrest, hnone]
      simp [Fields.get?]
    · have hne : other ≠ key := by
        rintro rfl
        exact hagree (Key.agree_iff.mpr hkey)
      simp only [List.filter_cons, hagree, Bool.false_eq_true, if_false, ih hnames' hrest]
      simp [Fields.get?, hne]

theorem find?_eq_get?_of_only (hnames : (Fields.names fields).Nodup)
    (hkey : Key.normal key = Key.normal name) (honly : Only name key fields) :
    find? name fields = (Fields.get? key fields).map fun value ↦ (key, value) := by
  have hhead := congrArg List.head? (filter_eq_get? hnames hkey honly)
  rw [List.head?_filter] at hhead
  rw [find?, hhead]
  cases Fields.get? key fields <;> rfl

theorem filter_eq_find?_of_onceFor (hnames : (Fields.names fields).Nodup)
    (honce : OnceFor name fields) :
    (fields.filter fun field ↦ Key.agree field.1 name) = (find? name fields).toList := by
  obtain ⟨key, hkey, honly⟩ := honce.exists_only
  rw [filter_eq_get? hnames hkey honly, find?_eq_get?_of_only hnames hkey honly]

/-- A field is found under a name that has no second spelling. -/
theorem find?_eq_some_iff_of_onceFor (hnames : (Fields.names fields).Nodup)
    (honce : OnceFor name fields) {field : String × α} :
    find? name fields = some field ↔ field ∈ fields ∧ Key.normal field.1 = Key.normal name := by
  constructor
  · intro hfind
    exact ⟨List.mem_of_find?_eq_some hfind, normal_of_find?_eq_some hfind⟩
  · rintro ⟨hmem, hname⟩
    have honly : Only name field.1 fields := fun other hother hsame ↦
      honce other hother field hmem hsame hname
    rw [find?_eq_get?_of_only hnames hname honly, (Fields.get?_eq_some_iff hnames).mpr hmem]
    rfl

theorem find?_perm_of_onceFor (hnames : (Fields.names fields).Nodup) (honce : OnceFor name fields)
    (hfields : fields.Perm others) : find? name fields = find? name others := by
  have hperm : (Fields.names fields).Perm (Fields.names others) := hfields.map _
  have hnames' : (Fields.names others).Nodup := hperm.nodup_iff.mp hnames
  ext field
  rw [find?_eq_some_iff_of_onceFor hnames honce,
    find?_eq_some_iff_of_onceFor hnames' (honce.perm hfields), hfields.mem_iff]

end Spelling

/-! ### Putting fields over others -/

namespace Datum

variable {name key : String} {earlier later : List (String × Datum)}

theorem mem_names_overlayFields : name ∈ Fields.names (overlayFields earlier later) ↔
    name ∈ Fields.names earlier ∨ name ∈ Fields.names later := by
  induction later generalizing earlier with
  | nil => simp [overlayFields, Fields.names]
  | cons field rest ih =>
    obtain ⟨other, value⟩ := field
    rw [overlayFields_cons, ih, Fields.mem_names_put, Fields.names, Fields.names, Fields.names,
      List.map_cons, List.mem_cons]
    tauto

/-- A name has one spelling in fields put over others exactly when it has one in both together. -/
theorem onceFor_overlayFields : OnceFor name (overlayFields earlier later) ↔
    OnceFor name (earlier ++ later) := by
  have hmem : ∀ other, other ∈ Fields.names (overlayFields earlier later) ↔
      other ∈ Fields.names (earlier ++ later) := by
    intro other
    rw [mem_names_overlayFields, Fields.names, Fields.names, Fields.names, List.map_append,
      List.mem_append]
  rw [onceFor_iff_names, onceFor_iff_names]
  simp only [hmem]

/-- What stands under a name that has one spelling in both is the later value over the earlier
one. -/
theorem find?_overlayFields_of_onceFor (hordered : Fields.Ordered earlier)
    (hlater : (Fields.names later).Nodup) (honce : OnceFor name (earlier ++ later)) :
    find? name (overlayFields earlier later) =
      overField (find? name earlier) (find? name later) := by
  obtain ⟨key, hkey, honly⟩ := honce.exists_only
  obtain ⟨hearlier, hothers⟩ := List.forall_mem_append.mp honly
  have hover : Only name key (overlayFields earlier later) := by
    intro field hfield hname
    rcases mem_names_overlayFields.mp (List.mem_map_of_mem hfield) with hmem | hmem
    · obtain ⟨value, hvalue⟩ := Fields.mem_names_iff.mp hmem
      exact hearlier (field.1, value) hvalue hname
    · obtain ⟨value, hvalue⟩ := Fields.mem_names_iff.mp hmem
      exact hothers (field.1, value) hvalue hname
  have hnames : (Fields.names (overlayFields earlier later)).Nodup :=
    (ordered_overlayFields hordered : Fields.Ordered (overlayFields earlier later)).nodup_names
  rw [find?_eq_get?_of_only hnames hkey hover, get?_overlayFields hlater,
    find?_eq_get?_of_only hordered.nodup_names hkey hearlier,
    find?_eq_get?_of_only hlater hkey hothers]
  cases Fields.get? key later <;> cases Fields.get? key earlier <;> rfl

end Datum

/-! ### Taking the spellings in use -/

namespace Relaxed

variable {known fields : List (String × Datum)} {name : String}

/-- A name stays a spelling of what it was. -/
theorem normal_respelled : Key.normal (respelled known fields name) = Key.normal name := by
  unfold respelled
  split_ifs
  · unfold spelling?
    cases hlast : (known.filter fun field ↦ Key.agree field.1 name).getLast? with
    | none => rfl
    | some field =>
      have hfield := (List.mem_filter.mp (List.mem_of_getLast? hlast)).2
      exact Key.agree_iff.mp hfield
  · rfl

/-- Different names stay different. -/
theorem nodup_respelled (hnames : (Fields.names fields).Nodup) :
    (fields.map fun field ↦ respelled known fields field.1).Nodup := by
  refine List.Nodup.map_on ?_ hnames.of_map
  intro first hfirst second hsecond hsame
  have hform : Key.normal first.1 = Key.normal second.1 := by
    rw [← @normal_respelled known fields first.1, hsame, normal_respelled]
  have hclass : (fun field : String × Datum ↦ Key.agree field.1 first.1) =
      fun field ↦ Key.agree field.1 second.1 := by
    funext field
    simp only [Key.agree, hform]
  have hspelled : spelledOnce fields first.1 = spelledOnce fields second.1 := by
    simp only [spelledOnce, hclass]
  cases honce : spelledOnce fields first.1 with
  | true =>
    obtain ⟨only, hfilter⟩ := List.length_eq_one_iff.mp (by simpa [spelledOnce] using honce)
    have hone : first ∈ [only] :=
      hfilter ▸ List.mem_filter.mpr ⟨hfirst, Key.agree_iff.mpr rfl⟩
    have htwo : second ∈ [only] :=
      hfilter ▸ List.mem_filter.mpr ⟨hsecond, Key.agree_iff.mpr hform.symm⟩
    rw [List.mem_singleton.mp hone, List.mem_singleton.mp htwo]
  | false =>
    rw [respelled, respelled, ← hspelled, honce] at hsame
    exact List.inj_on_of_nodup_map hnames hfirst hsecond (by simpa using hsame)

/-- Fields in the spellings in use are the same fields by other names. -/
theorem respell_perm_respelled (hnames : (Fields.names fields).Nodup) :
    (respell known fields).Perm
      (fields.map fun field ↦ (respelled known fields field.1, field.2)) := by
  refine Fields.ofList_perm ?_
  rw [List.map_map]
  exact nodup_respelled hnames

/-- A name that has one spelling on both sides takes the one in use. -/
theorem respelled_eq_inUse (hnames : (Fields.names fields).Nodup)
    (hknown : (Fields.names known).Nodup) (honceKnown : OnceFor name known)
    (honce : OnceFor name fields) {field : String × Datum} (hfield : field ∈ fields)
    (hname : Key.normal field.1 = Key.normal name) :
    respelled known fields field.1 = inUse known field.1 := by
  obtain ⟨key, hkey, honly⟩ := (honceKnown.congr hname.symm).exists_only
  obtain ⟨spelling, hspelling, hothers⟩ := (honce.congr hname.symm).exists_only
  obtain rfl : field.1 = spelling := hothers field hfield rfl
  have hspelled : spelledOnce fields field.1 = true := by
    rw [spelledOnce, filter_eq_get? hnames rfl hothers,
      (Fields.get?_eq_some_iff hnames).mpr hfield]
    rfl
  have huse : spelling? known field.1 = (find? field.1 known).map (·.1) := by
    rw [spelling?, filter_eq_get? hknown hkey honly, find?_eq_get?_of_only hknown hkey honly]
    cases Fields.get? key known <;> rfl
  rw [respelled, if_pos hspelled, huse]
  rfl

/-- What a name with one spelling leads to is the same field in the spelling in use. -/
theorem find?_respell_of_onceFor (hnames : (Fields.names fields).Nodup)
    (hknown : (Fields.names known).Nodup) (honceKnown : OnceFor name known)
    (honce : OnceFor name fields) : OnceFor name (respell known fields) ∧
      find? name (respell known fields) =
        (find? name fields).map fun field ↦ (inUse known field.1, field.2) := by
  have hperm : (respell known fields).Perm
      (fields.map fun field ↦ (respelled known fields field.1, field.2)) :=
    respell_perm_respelled hnames
  have hrespelled : OnceFor name
      (fields.map fun field ↦ (respelled known fields field.1, field.2)) := by
    intro first hfirst second hsecond hone htwo
    obtain ⟨given, hgiven, rfl⟩ := List.mem_map.mp hfirst
    obtain ⟨other, hother, rfl⟩ := List.mem_map.mp hsecond
    rw [honce given hgiven other hother (normal_respelled.symm.trans hone)
      (normal_respelled.symm.trans htwo)]
  have honce' : OnceFor name (respell known fields) := hrespelled.perm hperm.symm
  have hordered : Fields.Ordered (respell known fields) := Fields.ordered_ofList _
  refine ⟨honce', ?_⟩
  cases hfind : find? name fields with
  | none =>
    rw [Option.map_none, find?_eq_none_iff]
    intro field hfield hname
    obtain ⟨given, hgiven, rfl⟩ := List.mem_map.mp (hperm.mem_iff.mp hfield)
    exact find?_eq_none_iff.mp hfind given hgiven (normal_respelled.symm.trans hname)
  | some field =>
    obtain ⟨hfield, hname⟩ := (find?_eq_some_iff_of_onceFor hnames honce).mp hfind
    rw [Option.map_some, find?_eq_some_iff_of_onceFor hordered.nodup_names honce', hperm.mem_iff]
    refine ⟨List.mem_map.mpr ⟨field, hfield, ?_⟩, normal_inUse.trans hname⟩
    rw [respelled_eq_inUse hnames hknown honceKnown honce hfield hname]

theorem inUse_eq_of_onceFor (hknown : (Fields.names known).Nodup) (honce : OnceFor name known)
    {held : String × Datum} (hheld : held ∈ known) (hsame : Key.normal held.1 = Key.normal name) :
    inUse known name = held.1 := by
  rw [inUse, (find?_eq_some_iff_of_onceFor hknown honce).mpr ⟨hheld, hsame⟩]
  rfl

/-- A name has one spelling in known fields and in others that take their spellings exactly when it
had one on each side. -/
theorem onceFor_append_respell (hnames : (Fields.names fields).Nodup)
    (hknown : (Fields.names known).Nodup) :
    OnceFor name (known ++ respell known fields) ↔ OnceFor name known ∧ OnceFor name fields := by
  have hperm : (respell known fields).Perm
      (fields.map fun field ↦ (respelled known fields field.1, field.2)) :=
    respell_perm_respelled hnames
  have hmem : ∀ field ∈ fields,
      (respelled known fields field.1, field.2) ∈ respell known fields := fun field hfield ↦
    hperm.mem_iff.mpr (List.mem_map.mpr ⟨field, hfield, rfl⟩)
  rw [onceFor_append_iff]
  constructor
  · rintro ⟨honceKnown, honce, -⟩
    refine ⟨honceKnown, fun first hfirst second hsecond hone htwo ↦ ?_⟩
    have hsame := honce _ (hmem first hfirst) _ (hmem second hsecond)
      (normal_respelled.trans hone) (normal_respelled.trans htwo)
    rw [List.inj_on_of_nodup_map (nodup_respelled hnames) hfirst hsecond hsame]
  · rintro ⟨honceKnown, honce⟩
    obtain ⟨hrespelled, hfind⟩ := find?_respell_of_onceFor hnames hknown honceKnown honce
    have hordered : Fields.Ordered (respell known fields) := Fields.ordered_ofList _
    refine ⟨honceKnown, hrespelled, fun held hheld field hfield hsame hname ↦ ?_⟩
    have hfound :=
      (find?_eq_some_iff_of_onceFor hordered.nodup_names hrespelled).mpr ⟨hfield, hname⟩
    rw [hfind, Option.map_eq_some_iff] at hfound
    obtain ⟨given, hgiven, rfl⟩ := hfound
    have hform := normal_of_find?_eq_some hgiven
    exact (inUse_eq_of_onceFor hknown (honceKnown.congr hform.symm) hheld
      (hsame.trans hform.symm)).symm

end Relaxed

end Connectors
