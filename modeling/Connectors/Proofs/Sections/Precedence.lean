import Connectors.Proofs.Sections.Stable

/-!
# Which value stands

A source sets a section, or a key of one, to a value (`Relaxed.Sets`), in any spelling of the id and
the key. When its sections are put over known ones that value is there, wherever the spellings lead
it (`Relaxed.sets_merge`). A source that says nothing about a key, and does not put something else
in the place of its section (`Relaxed.Quiet`), leaves the values as they are
(`Relaxed.sets_merge_iff`).

This alone does not make the last value the only one. Where the known sections spell the key in one
way (`Relaxed.OneWay`), no other value is left under the key as the source writes it
(`Relaxed.writes_merge_eq`). Where the source has one spelling as well, no other value is left in
any spelling (`Relaxed.OneWay.unique`), and the key stays spelled in one way
(`Relaxed.OneWay.merge`). With several spellings in use the last one in order is taken for a new
value, and the other ones keep what they had.
-/

set_option autoImplicit false
set_option relaxedAutoImplicit false

namespace Connectors.Relaxed

open Datum (IsFolded fieldLeaves overlayFields united)
open Spelling

/-! ### Values in sections -/

/-- A value stands in a section: it is what is in the place of the section, or stands in the table
of the section under a key. -/
inductive Stands (value : Datum) : Option String → Datum → Prop
  /-- In the place of the section. -/
  | whole (hleaf : value.IsLeaf) : Stands value none value
  /-- Under a key in any spelling. -/
  | entry {key path : String} {fields : List (String × Datum)}
    (hmem : (path, value) ∈ fieldLeaves "" fields) (hpath : Key.normal path = Key.normal key) :
    Stands value (some key) (.table fields)

/-- Sections set a component, or a key of it, to a value. -/
def Sets (id : String) (key : Option String) (value : Datum) (sections : List (String × Datum)) :
    Prop :=
  ∃ given ∈ sections, Key.normal given.1 = Key.normal id ∧ Stands value key given.2

/-- A section says nothing about a key: it is a table without it. -/
structure QuietSection (key : Option String) (given : Datum) : Prop where
  /-- What is asked for is a key. -/
  named : key ≠ none
  /-- The section is a table. -/
  table : ∃ fields, given = .table fields
  /-- The key is not there. -/
  absent : ∀ value, ¬Stands value key given

/-- Sections say nothing about a component, or a key of it. -/
def Quiet (id : String) (key : Option String) (sections : List (String × Datum)) : Prop :=
  ∀ given ∈ sections, Key.normal given.1 = Key.normal id → QuietSection key given.2

/-- A component, and a key of it, have one spelling at most. -/
structure OneWay (id : String) (key : Option String) (sections : List (String × Datum)) : Prop where
  /-- There is one section at most. -/
  section_once : OnceFor id sections
  /-- The key has one spelling at most in it. -/
  key_once : ∀ option, key = some option → ∀ name fields, (name, .table fields) ∈ sections →
    Key.normal name = Key.normal id → OnceFor option (fieldLeaves "" fields)

variable {known sections relaxed : List (String × Datum)} {id : String} {key : Option String}
  {value : Datum}

theorem stands_of_isLeaf {given : Datum} (hleaf : given.IsLeaf) :
    Stands value key given ↔ key = none ∧ given = value := by
  constructor
  · rintro (hvalue | @⟨option, path, fields, hmem, hpath⟩)
    · exact ⟨rfl, rfl⟩
    · exact absurd rfl (hleaf fields)
  · rintro ⟨rfl, rfl⟩
    exact .whole hleaf

theorem stands_table_iff {fields : List (String × Datum)} : Stands value key (.table fields) ↔
    ∃ option path, key = some option ∧ (path, value) ∈ fieldLeaves "" fields ∧
      Key.normal path = Key.normal option := by
  constructor
  · rintro (hvalue | ⟨hmem, hpath⟩)
    · exact absurd rfl (hvalue fields)
    · exact ⟨_, _, rfl, hmem, hpath⟩
  · rintro ⟨option, path, rfl, hmem, hpath⟩
    exact .entry hmem hpath

/-- What stands in a folded section under a key are its fields. -/
theorem stands_fields_iff {given : Datum} (hfolded : given.IsFolded) {option : String} :
    Stands value (some option) given ↔
      ∃ path, (path, value) ∈ given.fields ∧ Key.normal path = Key.normal option := by
  by_cases htable : ∃ fields, given = .table fields
  · obtain ⟨fields, rfl⟩ := htable
    rw [stands_table_iff, Datum.fieldLeaves_of_isLeaf (hfolded fields rfl).2]
    simp [Datum.fields]
  · have hleaf : given.IsLeaf := not_exists.mp htable
    simp [stands_of_isLeaf hleaf, Datum.fields_of_isLeaf hleaf]

/-! ### Relaxing -/

/-- A section that is relaxed has the values that it had. -/
theorem SectionRelaxes.stands_iff {ids : List String} {given entry : String × Datum}
    (hrelaxes : SectionRelaxes known ids given entry) :
    Stands value key entry.2 ↔ Stands value key given.2 := by
  cases hrelaxes with
  | leaf => exact Iff.rfl
  | @table id name fields entries hname spelling hkeys hentries hordered =>
    have hleaf : ∀ entry ∈ entries, entry.2.IsLeaf := by
      intro entry hentry
      obtain ⟨leaf, hmem, rfl⟩ := List.mem_map.mp (hentries.mem_iff.mp hentry)
      exact Datum.isLeaf_of_mem_fieldLeaves "" fields leaf hmem
    have hnormal :
        ∀ leaf ∈ fieldLeaves "" fields, Key.normal (spelling leaf.1) = Key.normal leaf.1 :=
      fun leaf hmem ↦ (hkeys leaf.1 (List.mem_map_of_mem hmem)).normal
    rw [stands_table_iff, stands_table_iff, Datum.fieldLeaves_of_isLeaf hleaf]
    constructor
    · rintro ⟨option, path, rfl, hentry, hpath⟩
      obtain ⟨⟨first, held⟩, hmem, heq⟩ := List.mem_map.mp (hentries.mem_iff.mp hentry)
      obtain ⟨rfl, rfl⟩ := Prod.mk.inj heq
      exact ⟨option, first, rfl, hmem, (hnormal (first, held) hmem).symm.trans hpath⟩
    · rintro ⟨option, path, rfl, hmem, hpath⟩
      refine ⟨option, spelling path, rfl, hentries.mem_iff.mpr ?_, (hnormal _ hmem).trans hpath⟩
      exact List.mem_map.mpr ⟨_, hmem, rfl⟩

theorem SectionRelaxes.spelled {ids : List String} {given entry : String × Datum}
    (hrelaxes : SectionRelaxes known ids given entry) :
    Spelled (Fields.names known) ids given.1 entry.1 := by
  cases hrelaxes with
  | leaf hname => exact hname
  | table hname => exact hname

/-- A section that is relaxed is a table if it was one. -/
theorem SectionRelaxes.quiet {ids : List String} {given entry : String × Datum}
    (hrelaxes : SectionRelaxes known ids given entry) (hquiet : QuietSection key given.2) :
    QuietSection key entry.2 := by
  refine ⟨hquiet.named, ?_, fun value hvalue ↦ hquiet.absent value (hrelaxes.stands_iff.mp hvalue)⟩
  cases hrelaxes with
  | leaf _ hleaf =>
    obtain ⟨fields, hfields⟩ := hquiet.table
    exact absurd hfields (hleaf fields)
  | table => exact ⟨_, rfl⟩

theorem exists_of_forall₂ {α β : Type} {related : α → β → Prop} {first : List α} {second : List β}
    (hall : List.Forall₂ related first second) :
    (∀ a ∈ first, ∃ b ∈ second, related a b) ∧ ∀ b ∈ second, ∃ a ∈ first, related a b := by
  induction hall with
  | nil => simp
  | cons hrelated _ ih =>
    obtain ⟨hfirst, hsecond⟩ := ih
    refine ⟨List.forall_mem_cons.mpr ⟨⟨_, List.mem_cons_self, hrelated⟩, fun a ha ↦ ?_⟩,
      List.forall_mem_cons.mpr ⟨⟨_, List.mem_cons_self, hrelated⟩, fun b hb ↦ ?_⟩⟩
    · exact (hfirst a ha).imp fun b hb ↦ ⟨List.mem_cons_of_mem _ hb.1, hb.2⟩
    · exact (hsecond b hb).imp fun a ha ↦ ⟨List.mem_cons_of_mem _ ha.1, ha.2⟩

/-- The sections of a source and what they are relaxed to. -/
theorem exists_relaxes (hnames : (Fields.names sections).Nodup)
    (hrelax : relax known sections = .ok relaxed) :
    (∀ given ∈ sections, ∃ entry ∈ relaxed,
        SectionRelaxes known (Fields.names sections) given entry) ∧
      ∀ entry ∈ relaxed, ∃ given ∈ sections,
        SectionRelaxes known (Fields.names sections) given entry := by
  obtain ⟨-, -, results, hperm, hall⟩ := relax_eq_ok hnames hrelax
  simpa only [hperm.mem_iff] using exists_of_forall₂ hall

/-- Each section that comes out is spelled as one of the source is. -/
theorem exists_spelled_of_relax (hnames : (Fields.names sections).Nodup)
    (hrelax : relax known sections = .ok relaxed) : ∀ entry ∈ relaxed, ∃ given ∈ sections,
      Spelled (Fields.names known) (Fields.names sections) given.1 entry.1 := fun entry hentry ↦
  ((exists_relaxes hnames hrelax).2 entry hentry).imp fun _ hgiven ↦ ⟨hgiven.1, hgiven.2.spelled⟩

/-- Each entry of a table that comes out is spelled as a leaf of the table of the source is. -/
theorem exists_spelled_of_perm {used : List String} {leaves entries : List (String × Datum)}
    {spelling : String → String}
    (hkeys : ∀ path ∈ Fields.names leaves, Spelled used (Fields.names leaves) path (spelling path))
    (hperm : entries.Perm (leaves.map fun leaf ↦ (spelling leaf.1, leaf.2))) :
    ∀ entry ∈ entries, ∃ leaf ∈ leaves, Spelled used (Fields.names leaves) leaf.1 entry.1 := by
  intro entry hentry
  obtain ⟨leaf, hleaf, rfl⟩ := List.mem_map.mp (hperm.mem_iff.mp hentry)
  exact ⟨leaf, hleaf, hkeys leaf.1 (List.mem_map_of_mem hleaf)⟩

/-- Sections that are relaxed set what they set. -/
theorem sets_relax_iff (hnames : (Fields.names sections).Nodup)
    (hrelax : relax known sections = .ok relaxed) :
    Sets id key value relaxed ↔ Sets id key value sections := by
  obtain ⟨hgiven, hentries⟩ := exists_relaxes hnames hrelax
  constructor
  · rintro ⟨entry, hentry, hname, hvalue⟩
    obtain ⟨given, hmem, hrelaxes⟩ := hentries entry hentry
    exact ⟨given, hmem, hrelaxes.spelled.normal.symm.trans hname, hrelaxes.stands_iff.mp hvalue⟩
  · rintro ⟨given, hmem, hname, hvalue⟩
    obtain ⟨entry, hentry, hrelaxes⟩ := hgiven given hmem
    exact ⟨entry, hentry, hrelaxes.spelled.normal.trans hname, hrelaxes.stands_iff.mpr hvalue⟩

theorem quiet_relax (hnames : (Fields.names sections).Nodup)
    (hrelax : relax known sections = .ok relaxed) (hquiet : Quiet id key sections) :
    Quiet id key relaxed := by
  intro entry hentry hname
  obtain ⟨given, hmem, hrelaxes⟩ := (exists_relaxes hnames hrelax).2 entry hentry
  exact hrelaxes.quiet (hquiet given hmem (hrelaxes.spelled.normal.symm.trans hname))

/-! ### One section over another -/

/-- A table over what may be there is one of its fields over those that are there. -/
theorem united_table (held : Option Datum) {entries : List (String × Datum)}
    (hordered : Fields.Ordered entries) : united held (.table entries) =
      .table (overlayFields ((held.map Datum.fields).getD []) entries) := by
  cases held with
  | none => exact congrArg Datum.table (Datum.overlayFields_nil hordered).symm
  | some earlier =>
    cases earlier with
    | table fields => exact Datum.overlay_tables fields entries
    | _ => exact congrArg Datum.table (Datum.overlayFields_nil hordered).symm

/-- What is folded over something folded. -/
theorem isFolded_united {held : Option Datum} {later : Datum}
    (hheld : ∀ earlier, held = some earlier → earlier.IsFolded) (hlater : later.IsFolded) :
    (united held later).IsFolded := by
  cases held with
  | none => exact hlater
  | some earlier => exact Datum.isFolded_overlay earlier later (hheld earlier rfl) hlater

/-- The fields of what may be there, if it is folded. -/
theorem ordered_fields {held : Option Datum}
    (hheld : ∀ earlier, held = some earlier → earlier.IsFolded) :
    Fields.Ordered ((held.map Datum.fields).getD []) := by
  cases held with
  | none => exact List.Pairwise.nil
  | some earlier =>
    cases earlier with
    | table fields => exact (hheld _ rfl fields rfl).1
    | _ => exact List.Pairwise.nil

theorem ordered_knownTable (hknown : Folded known) (name : String) :
    Fields.Ordered (knownTable known name) :=
  ordered_fields fun _ hget ↦ hknown.values _ (Fields.mem_of_get?_eq_some hget)

theorem mem_of_mem_knownTable {name : String} {field : String × Datum}
    (hfield : field ∈ knownTable known name) :
    ∃ fields, (name, .table fields) ∈ known ∧ field ∈ fields := by
  rw [knownTable] at hfield
  cases hget : Fields.get? name known with
  | none => simp [hget] at hfield
  | some held =>
    cases held with
    | table fields =>
      exact ⟨fields, Fields.mem_of_get?_eq_some hget, by simpa [hget, Datum.fields] using hfield⟩
    | _ => simp [hget, Datum.fields] at hfield

section

variable {held : Option Datum} {later : Datum}

/-- A value of the later section stands over whatever was there. -/
theorem stands_united (hheld : ∀ earlier, held = some earlier → earlier.IsFolded)
    (hlater : later.IsFolded) (hvalue : Stands value key later) :
    Stands value key (united held later) := by
  have hunited := isFolded_united hheld hlater
  cases hvalue with
  | whole hleaf =>
    rw [Datum.united_of_isLeaf hleaf]
    exact .whole hleaf
  | @entry option path fields hmem hpath =>
    obtain ⟨hordered, hleaf⟩ := hlater fields rfl
    rw [Datum.fieldLeaves_of_isLeaf hleaf] at hmem
    rw [united_table held hordered] at hunited ⊢
    refine (stands_fields_iff hunited).mpr ⟨path, ?_, hpath⟩
    rw [Datum.fields, Datum.mem_overlayFields_iff (ordered_fields hheld) hordered]
    exact .inl ⟨value, hmem, Datum.united_of_isLeaf (hleaf _ hmem) _⟩

/-- A quiet section leaves the values as they are. -/
theorem stands_united_iff (hheld : ∀ earlier, held = some earlier → earlier.IsFolded)
    (hlater : later.IsFolded) (hquiet : QuietSection key later) :
    Stands value key (united held later) ↔
      ∃ earlier, held = some earlier ∧ Stands value key earlier := by
  obtain ⟨entries, rfl⟩ := hquiet.table
  obtain ⟨option, rfl⟩ := Option.ne_none_iff_exists'.mp hquiet.named
  obtain ⟨hordered, -⟩ := hlater entries rfl
  have hunited := isFolded_united hheld hlater
  have habsent : ∀ path given, Key.normal path = Key.normal option → (path, given) ∉ entries :=
    fun path given hpath hmem ↦
      hquiet.absent given ((stands_fields_iff hlater).mpr ⟨path, hmem, hpath⟩)
  have hkept : ∀ path, Key.normal path = Key.normal option →
      ((path, value) ∈ overlayFields ((held.map Datum.fields).getD []) entries ↔
        (path, value) ∈ (held.map Datum.fields).getD []) := by
    intro path hpath
    rw [Datum.mem_overlayFields_iff (ordered_fields hheld) hordered]
    simp [habsent path _ hpath]
  rw [united_table held hordered] at hunited ⊢
  rw [stands_fields_iff hunited, Datum.fields]
  cases held with
  | none =>
    refine iff_of_false ?_ (by simp)
    rintro ⟨path, hmem, hpath⟩
    exact List.not_mem_nil ((hkept path hpath).mp hmem)
  | some earlier =>
    simp only [Option.some.injEq, exists_eq_left', stands_fields_iff (hheld earlier rfl)]
    exact exists_congr fun path ↦ and_congr_left fun hpath ↦ hkept path hpath

end

/-! ### Sections over others -/

/-- What a source sets stands in the merged sections. -/
theorem sets_merge (hknown : Folded known) (hnames : (Fields.names sections).Nodup)
    (hrelax : relax known sections = .ok relaxed) (hsets : Sets id key value sections) :
    Sets id key value (overlayFields known relaxed) := by
  have hrelaxed := folded_of_relax hrelax
  obtain ⟨⟨name, later⟩, hmem, hname, hvalue⟩ := (sets_relax_iff hnames hrelax).mpr hsets
  refine ⟨(name, united (Fields.get? name known) later), ?_, hname, ?_⟩
  · rw [Datum.mem_overlayFields_iff hknown.ordered hrelaxed.ordered]
    exact .inl ⟨later, hmem, rfl⟩
  · refine stands_united (fun earlier hget ↦ ?_) (hrelaxed.values _ hmem) hvalue
    exact hknown.values _ (Fields.mem_of_get?_eq_some hget)

/-- A quiet source leaves the values as they are. -/
theorem sets_merge_iff (hknown : Folded known) (hnames : (Fields.names sections).Nodup)
    (hrelax : relax known sections = .ok relaxed) (hquiet : Quiet id key sections) :
    Sets id key value (overlayFields known relaxed) ↔ Sets id key value known := by
  have hrelaxed := folded_of_relax hrelax
  have hquietRelaxed := quiet_relax hnames hrelax hquiet
  have hfolded : ∀ name earlier, Fields.get? name known = some earlier → earlier.IsFolded :=
    fun name earlier hget ↦ hknown.values _ (Fields.mem_of_get?_eq_some hget)
  have hunited : ∀ name later, (name, later) ∈ relaxed → Key.normal name = Key.normal id →
      (Stands value key (united (Fields.get? name known) later) ↔
        ∃ earlier, Fields.get? name known = some earlier ∧ Stands value key earlier) :=
    fun name later hmem hname ↦
      stands_united_iff (hfolded name) (hrelaxed.values _ hmem) (hquietRelaxed _ hmem hname)
  constructor
  · rintro ⟨⟨name, held⟩, hmem, hname, hvalue⟩
    rw [Datum.mem_overlayFields_iff hknown.ordered hrelaxed.ordered] at hmem
    obtain ⟨later, hlater, rfl⟩ | ⟨-, hmem⟩ := hmem
    · obtain ⟨earlier, hget, hearlier⟩ := (hunited name later hlater hname).mp hvalue
      exact ⟨(name, earlier), Fields.mem_of_get?_eq_some hget, hname, hearlier⟩
    · exact ⟨(name, held), hmem, hname, hvalue⟩
  · rintro ⟨⟨name, held⟩, hmem, hname, hvalue⟩
    by_cases hnew : name ∈ Fields.names relaxed
    · obtain ⟨later, hlater⟩ := Fields.mem_names_iff.mp hnew
      have hget := (Fields.get?_eq_some_iff hknown.ordered.nodup_names).mpr hmem
      refine ⟨(name, united (Fields.get? name known) later), ?_, hname,
        (hunited name later hlater hname).mpr ⟨held, hget, hvalue⟩⟩
      rw [Datum.mem_overlayFields_iff hknown.ordered hrelaxed.ordered]
      exact .inl ⟨later, hlater, rfl⟩
    · refine ⟨(name, held), ?_, hname, hvalue⟩
      rw [Datum.mem_overlayFields_iff hknown.ordered hrelaxed.ordered]
      exact .inr ⟨hnew, hmem⟩

/-! ### One spelling -/

/-- In folded sections that spell a key in one way it has one value. -/
theorem OneWay.unique (honce : OneWay id key sections) (hfolded : Folded sections)
    {first second : Datum} (hfirst : Sets id key first sections)
    (hsecond : Sets id key second sections) : first = second := by
  obtain ⟨⟨name, held⟩, hgiven, hname, hfirst⟩ := hfirst
  obtain ⟨other, hother, hsame, hsecond⟩ := hsecond
  obtain rfl : (name, held) = other :=
    List.inj_on_of_nodup_map hfolded.ordered.nodup_names hgiven hother
      (honce.section_once (name, held) hgiven other hother hname hsame)
  cases hfirst with
  | whole hleaf => exact ((stands_of_isLeaf hleaf).mp hsecond).2
  | @entry option path fields hmem hpath =>
    obtain ⟨_, route, ⟨⟩, hother, hroute⟩ := stands_table_iff.mp hsecond
    obtain ⟨hordered, hleaf⟩ := hfolded.values _ hgiven fields rfl
    have hspelled := honce.key_once option rfl name fields hgiven hname _ hmem _ hother hpath hroute
    rw [Datum.fieldLeaves_of_isLeaf hleaf] at hmem hother
    exact (Prod.mk.inj (List.inj_on_of_nodup_map hordered.nodup_names hmem hother hspelled)).2

/-- A name that has one spelling among known fields, and one among those of a source, has one when
they are put over each other. -/
theorem onceFor_merge {name : String} {own results : List (String × Datum)}
    (hknown : OnceFor name known) (hown : OnceFor name own)
    (hspelled : ∀ result ∈ results, ∃ field ∈ own,
      Spelled (Fields.names known) (Fields.names own) field.1 result.1) :
    OnceFor name (known ++ results) := by
  -- A result is spelled as it is known, or as the source spells it where it is not known.
  have hcases : ∀ result ∈ results, Key.normal result.1 = Key.normal name →
      (∃ held ∈ known, held.1 = result.1) ∨ (∀ used ∈ known, Key.normal used.1 ≠ Key.normal name) ∧
        ∃ field ∈ own, Key.normal field.1 = Key.normal name ∧ field.1 = result.1 := by
    intro result hresult hname
    obtain ⟨field, hfield, hspelling⟩ := hspelled result hresult
    have hsame : Key.normal field.1 = Key.normal name := hspelling.normal.symm.trans hname
    by_cases hused : ∃ used ∈ known, Key.normal used.1 = Key.normal name
    · obtain ⟨used, hused, husedName⟩ := hused
      have hone : ∀ other ∈ Fields.names own, Key.normal other = Key.normal field.1 →
          other = field.1 :=
        fun other hother hform ↦ onceFor_iff_names.mp hown other hother field.1
          (List.mem_map_of_mem hfield) (hform.trans hsame) hsame
      have hmem :=
        hspelling.single hone used.1 (List.mem_map_of_mem hused) (husedName.trans hsame.symm)
      exact .inl (List.mem_map.mp hmem)
    · have hnone : ∀ used ∈ known, Key.normal used.1 ≠ Key.normal name := by simpa using hused
      have hunused : ∀ used ∈ Fields.names known, Key.normal used ≠ Key.normal field.1 := by
        rw [Fields.names, List.forall_mem_map, hsame]
        exact hnone
      exact .inr ⟨hnone, field, hfield, hsame, (hspelling.unused hunused).symm⟩
  have hacross : ∀ held ∈ known, ∀ result ∈ results, Key.normal held.1 = Key.normal name →
      Key.normal result.1 = Key.normal name → held.1 = result.1 := by
    intro held hheld result hresult hone htwo
    obtain ⟨used, hused, heq⟩ | ⟨hnone, -⟩ := hcases result hresult htwo
    · exact (hknown held hheld used hused hone (heq ▸ htwo)).trans heq
    · exact absurd hone (hnone held hheld)
  refine onceFor_append_iff.mpr ⟨hknown, fun first hfirst second hsecond hone htwo ↦ ?_, hacross⟩
  obtain ⟨held, hheld, heq⟩ | ⟨hnone, field, hfield, hname, heq⟩ := hcases first hfirst hone
  · exact heq.symm.trans (hacross held hheld second hsecond (heq ▸ hone) htwo)
  · obtain ⟨held, hheld, hsame⟩ | ⟨-, other, hother, hotherName, hsame⟩ :=
      hcases second hsecond htwo
    · exact absurd (hsame ▸ htwo) (hnone held hheld)
    · exact heq.symm.trans ((hown field hfield other hother hname hotherName).trans hsame)

/-- A key that is spelled in one way is so in the table that is known under a name. -/
theorem OneWay.onceFor_knownTable {option name : String} (hknown : OneWay id (some option) known)
    (hfolded : Folded known) (hname : Key.normal name = Key.normal id) :
    OnceFor option (knownTable known name) := by
  have hnone : OnceFor option ([] : List (String × Datum)) := by simp [OnceFor]
  rw [knownTable]
  cases hget : Fields.get? name known with
  | none => exact hnone
  | some held =>
    cases held with
    | table fields =>
      have hmem := Fields.mem_of_get?_eq_some hget
      have honce := hknown.key_once option rfl name fields hmem hname
      rwa [Datum.fieldLeaves_of_isLeaf (hfolded.values _ hmem fields rfl).2] at honce
    | _ => exact hnone

/-- Where known sections and those of a source spell a key in one way, so do the merged ones. -/
theorem OneWay.merge (hknown : OneWay id key known) (hfolded : Folded known)
    (hsource : OneWay id key sections) (hnames : (Fields.names sections).Nodup)
    (hrelax : relax known sections = .ok relaxed) :
    OneWay id key (overlayFields known relaxed) := by
  have hrelaxed := folded_of_relax hrelax
  have hmerged := hfolded.overlayFields hrelaxed
  obtain ⟨-, hentries⟩ := exists_relaxes hnames hrelax
  constructor
  · exact Datum.onceFor_overlayFields.mpr (onceFor_merge hknown.section_once hsource.section_once
      (exists_spelled_of_relax hnames hrelax))
  · rintro option rfl name fields hfields hname
    rw [Datum.fieldLeaves_of_isLeaf (hmerged.values _ hfields fields rfl).2]
    rw [Datum.mem_overlayFields_iff hfolded.ordered hrelaxed.ordered] at hfields
    obtain ⟨later, hlater, hunited⟩ | ⟨-, hkept⟩ := hfields
    · obtain ⟨⟨first, value⟩, hgiven, hrelaxes⟩ := hentries _ hlater
      have hfirst := hrelaxes.spelled.normal.symm.trans hname
      cases hrelaxes with
      | leaf _ hleaf =>
        exact absurd ((Datum.united_of_isLeaf hleaf _).symm.trans hunited) (hleaf fields)
      | @table _ _ source entries _ spelling hkeys hperm hordered =>
        obtain rfl := Datum.table.inj ((united_table _ hordered).symm.trans hunited)
        exact Datum.onceFor_overlayFields.mpr
          (onceFor_merge (hknown.onceFor_knownTable hfolded hname)
            (hsource.key_once option rfl first source hgiven hfirst)
            (exists_spelled_of_perm hkeys hperm))
    · have honce := hknown.key_once option rfl name fields hkept hname
      rwa [Datum.fieldLeaves_of_isLeaf (hfolded.values _ hkept fields rfl).2] at honce

/-! ### Keys as they are spelled -/

/-- Sections have a value under an id, or under a key of it, written in this way. -/
def Writes (name : String) : Option String → Datum → List (String × Datum) → Prop
  | none, value, sections => value.IsLeaf ∧ (name, value) ∈ sections
  | some path, value, sections =>
    ∃ fields, (name, .table fields) ∈ sections ∧ (path, value) ∈ fieldLeaves "" fields

theorem Writes.sets {name : String} {path : Option String}
    (hwrites : Writes name path value sections) : Sets name path value sections := by
  cases path with
  | none => exact ⟨(name, value), hwrites.2, rfl, .whole hwrites.1⟩
  | some path =>
    obtain ⟨fields, hfields, hmem⟩ := hwrites
    exact ⟨(name, .table fields), hfields, rfl, .entry hmem rfl⟩

/-- The tables of folded sections have no tables in them. -/
theorem writes_some_iff (hfolded : Folded sections) {name path : String} :
    Writes name (some path) value sections ↔
      ∃ fields, (name, .table fields) ∈ sections ∧ (path, value) ∈ fields :=
  exists_congr fun fields ↦ and_congr_right fun hfields ↦ by
    rw [Datum.fieldLeaves_of_isLeaf (hfolded.values _ hfields fields rfl).2]

/-- A quiet source brings no values. -/
theorem writes_of_merge {name : String} {path : Option String} (hknown : Folded known)
    (hnames : (Fields.names sections).Nodup) (hrelax : relax known sections = .ok relaxed)
    (hquiet : Quiet name path sections)
    (hwrites : Writes name path value (overlayFields known relaxed)) :
    Writes name path value known := by
  have hrelaxed := folded_of_relax hrelax
  have hquietRelaxed := quiet_relax hnames hrelax hquiet
  have hmerged := hknown.overlayFields hrelaxed
  cases path with
  | none =>
    obtain ⟨hleaf, hmem⟩ := hwrites
    rw [Datum.mem_overlayFields_iff hknown.ordered hrelaxed.ordered] at hmem
    obtain ⟨later, hlater, -⟩ | ⟨-, hkept⟩ := hmem
    · exact absurd rfl (hquietRelaxed _ hlater rfl).named
    · exact ⟨hleaf, hkept⟩
  | some path =>
    obtain ⟨fields, hfields, hmem⟩ := (writes_some_iff hmerged).mp hwrites
    rw [Datum.mem_overlayFields_iff hknown.ordered hrelaxed.ordered] at hfields
    obtain ⟨later, hlater, hunited⟩ | ⟨-, hkept⟩ := hfields
    · have hsection := hquietRelaxed _ hlater rfl
      obtain ⟨entries, rfl⟩ := hsection.table
      obtain ⟨hordered, hleaf⟩ := hrelaxed.values _ hlater entries rfl
      obtain rfl := Datum.table.inj ((united_table _ hordered).symm.trans hunited)
      obtain ⟨given, hgiven, -⟩ | ⟨-, hmem⟩ :=
        (Datum.mem_overlayFields_iff (ordered_knownTable hknown name) hordered).mp hmem
      · refine absurd (Stands.entry ?_ rfl) (hsection.absent given)
        rwa [Datum.fieldLeaves_of_isLeaf hleaf]
      · obtain ⟨held, hheld, hmem⟩ := mem_of_mem_knownTable hmem
        exact (writes_some_iff hknown).mpr ⟨held, hheld, hmem⟩
    · exact (writes_some_iff hknown).mpr ⟨fields, hkept, hmem⟩

/-- A name that a source has is found as it is spelled in what comes out, or nowhere there. -/
theorem spelled_self_or_absent {name spelling : String} {own results : List (String × Datum)}
    (hknown : OnceFor name known)
    (hspelled : Spelled (Fields.names known) (Fields.names own) name spelling)
    (hresults : ∀ result ∈ results, ∃ field ∈ own,
      Spelled (Fields.names known) (Fields.names own) field.1 result.1) :
    spelling = name ∨ name ∉ Fields.names known ∧ name ∉ Fields.names results := by
  by_cases hother : ∃ other ∈ Fields.names own, Key.normal other = Key.normal name ∧ other ≠ name
  · obtain ⟨other, hmem, hsame, hne⟩ := hother
    exact .inl (hspelled.several other hmem hsame hne)
  have hone : ∀ other ∈ Fields.names own, Key.normal other = Key.normal name → other = name := by
    intro other hmem hsame
    by_contra hne
    exact hother ⟨other, hmem, hsame, hne⟩
  by_cases hused : ∃ used ∈ Fields.names known, Key.normal used = Key.normal name
  · obtain ⟨used, hmem, hsame⟩ := hused
    have hspelling := hspelled.single hone used hmem hsame
    by_cases hname : name ∈ Fields.names known
    · exact .inl (onceFor_iff_names.mp hknown spelling hspelling name hname hspelled.normal rfl)
    · refine .inr ⟨hname, fun hresult ↦ hname ?_⟩
      obtain ⟨value, hvalue⟩ := Fields.mem_names_iff.mp hresult
      obtain ⟨field, hfield, hspelledField⟩ := hresults _ hvalue
      have hfieldName : field.1 = name :=
        hone field.1 (List.mem_map_of_mem hfield) hspelledField.normal.symm
      exact (hfieldName ▸ hspelledField).single hone used hmem hsame
  · exact .inl (hspelled.unused fun used hmem hsame ↦ hused ⟨used, hmem, hsame⟩)

/-- What is found under a name that a source has is the value of the source, over the known one. -/
theorem united_of_overlay {name spelling : String} {value found : Datum}
    {own results : List (String × Datum)} (hordered : Fields.Ordered known)
    (hresults : Fields.Ordered results) (hknown : OnceFor name known)
    (hspelled : Spelled (Fields.names known) (Fields.names own) name spelling)
    (hall : ∀ result ∈ results, ∃ field ∈ own,
      Spelled (Fields.names known) (Fields.names own) field.1 result.1)
    (hvalue : (spelling, value) ∈ results) (hfound : (name, found) ∈ overlayFields known results) :
    spelling = name ∧ united (Fields.get? name known) value = found := by
  rw [Datum.mem_overlayFields_iff hordered hresults] at hfound
  obtain rfl | ⟨hnew, habsent⟩ := spelled_self_or_absent hknown hspelled hall
  · obtain ⟨given, hgiven, hunited⟩ | ⟨habsent, -⟩ := hfound
    · have hpair := List.inj_on_of_nodup_map hresults.nodup_names hgiven hvalue rfl
      exact ⟨rfl, (Prod.mk.inj hpair).2 ▸ hunited⟩
    · exact absurd (List.mem_map_of_mem hvalue) habsent
  · obtain ⟨given, hgiven, -⟩ | ⟨-, hkept⟩ := hfound
    · exact absurd (List.mem_map_of_mem hgiven) habsent
    · exact absurd (List.mem_map_of_mem hkept) hnew

/-- What a source sets a key to is the only value under this key, as it is spelled, if the known
sections spell it in one way. -/
theorem writes_merge_eq {name : String} {path : Option String} {found : Datum}
    (hknown : Folded known) (honce : OneWay name path known)
    (hnames : (Fields.names sections).Nodup) (hrelax : relax known sections = .ok relaxed)
    (hsource : Writes name path value sections)
    (hwrites : Writes name path found (overlayFields known relaxed)) : found = value := by
  have hrelaxed := folded_of_relax hrelax
  have hmerged := hknown.overlayFields hrelaxed
  obtain ⟨hgiven, -⟩ := exists_relaxes hnames hrelax
  have hover : ∀ {given found}, (name, given) ∈ sections →
      (name, found) ∈ overlayFields known relaxed →
      ∃ later, SectionRelaxes known (Fields.names sections) (name, given) (name, later) ∧
        united (Fields.get? name known) later = found := by
    intro given found hmem hfound
    obtain ⟨⟨spelling, later⟩, hlater, hrelaxes⟩ := hgiven _ hmem
    obtain ⟨rfl, hunited⟩ := united_of_overlay hknown.ordered hrelaxed.ordered honce.section_once
      hrelaxes.spelled (exists_spelled_of_relax hnames hrelax) hlater hfound
    exact ⟨later, hrelaxes, hunited⟩
  cases path with
  | none =>
    obtain ⟨later, hrelaxes, hunited⟩ := hover hsource.2 hwrites.2
    cases hrelaxes with
    | leaf _ hleaf => rw [← hunited, Datum.united_of_isLeaf hleaf]
    | @table _ _ fields => exact absurd rfl (hsource.1 fields)
  | some path =>
    obtain ⟨fields, hfields, hvalue⟩ := hsource
    obtain ⟨merged, hmergedFields, hfound⟩ := (writes_some_iff hmerged).mp hwrites
    obtain ⟨later, hrelaxes, hunited⟩ := hover hfields hmergedFields
    cases hrelaxes with
    | leaf _ hleaf => exact absurd rfl (hleaf fields)
    | @table _ _ _ entries _ spelling hkeys hperm hordered =>
      obtain rfl := Datum.table.inj ((united_table _ hordered).symm.trans hunited)
      have hentry : (spelling path, value) ∈ entries :=
        hperm.mem_iff.mpr (List.mem_map.mpr ⟨_, hvalue, rfl⟩)
      obtain ⟨-, hunited⟩ := united_of_overlay (ordered_knownTable hknown name) hordered
        (honce.onceFor_knownTable hknown rfl) (hkeys path (List.mem_map_of_mem hvalue))
        (exists_spelled_of_perm hkeys hperm) hentry hfound
      rw [← hunited, Datum.united_of_isLeaf (Datum.isLeaf_of_mem_fieldLeaves "" fields _ hvalue)]

end Connectors.Relaxed
