import Connectors.Proofs.Key
import Connectors.Proofs.Sections.Folded

/-!
# What relaxing keeps

The sections of a source are relaxed before they are merged: their tables are folded, and their ids
and keys take the spellings in use. Nothing is lost on the way (`Relaxed.relax_keeps_leaves`). Every
section comes out as one section and every leaf of a table as one entry, with its value, and no two
of them in one place (`Relaxed.SectionRelaxes`). A name that has no second spelling in the source
takes one that is in use for it, and names of one normal form keep their own spellings
(`Relaxed.Spelled`).

Relaxing fails exactly for a section in which two leaves have one path. Paths are the dotted keys of
leaves, but for what stands below the empty key at the top of a section: its paths do without the
point that the dotted keys begin with (`Datum.sameLeaf_dottedFields`,
`Datum.dottedFields_of_named`). There two leaves may have one path with different dotted keys, and
one dotted key with different paths (`Relaxed.relax_nameless`).
-/

set_option autoImplicit false
set_option relaxedAutoImplicit false

namespace Connectors

/-! ### Paths and dotted keys -/

namespace Datum

/-- One leaf under two names of one normal form. -/
def SameLeaf (first second : String × Datum) : Prop :=
  first.2 = second.2 ∧ Key.normal first.1 = Key.normal second.1

theorem normal_pathTo {above path : String} (habove : Key.normal above = Key.normal path)
    (key : String) : Key.normal (above ++ key) = Key.normal (pathTo path key) := by
  unfold pathTo
  split
  · next hempty =>
    obtain rfl : path = "" := String.isEmpty_iff.mp hempty
    rw [Key.normal_append, habove, ← Key.normal_append, String.empty_append]
  · rw [Key.normal_append, Key.normal_append, Key.normal_append_point, habove]

mutual

theorem sameLeaf_dotted {key path : String} (hkey : Key.normal key = Key.normal path)
    (value : Datum) : List.Forall₂ SameLeaf (dotted key value) (leaves path value) := by
  by_cases htable : ∃ fields, value = .table fields
  · obtain ⟨fields, rfl⟩ := htable
    rw [dotted, leaves]
    exact sameLeaf_dottedFields ((Key.normal_append_point key).trans hkey) fields
  · have hleaf : value.IsLeaf := not_exists.mp htable
    rw [dotted_of_isLeaf hleaf, leaves_of_isLeaf hleaf]
    exact .cons ⟨rfl, hkey⟩ .nil

/-- Folding and flattening name each leaf with one normal form. -/
theorem sameLeaf_dottedFields {above path : String} (habove : Key.normal above = Key.normal path)
    (fields : List (String × Datum)) :
    List.Forall₂ SameLeaf (dottedFields above fields) (fieldLeaves path fields) := by
  match fields with
  | [] => exact .nil
  | (key, value) :: rest =>
    rw [dottedFields, fieldLeaves]
    exact List.rel_append (sameLeaf_dotted (normal_pathTo habove key) value)
      (sameLeaf_dottedFields habove rest)

end

end Datum

namespace Relaxed

open Datum (dottedFields fieldLeaves IsLeaf)

/-! ### Spellings -/

/-- The spelling that a name of a source takes, where `known` names are in use and the source has
names of its `own`. -/
structure Spelled (known own : List String) (name spelling : String) : Prop where
  /-- It is a spelling of the name. -/
  normal : Key.normal spelling = Key.normal name
  /-- A name with a second spelling in the source stays as it is. -/
  several : ∀ other ∈ own, Key.normal other = Key.normal name → other ≠ name → spelling = name
  /-- A name without one takes a spelling in use, if there is one. -/
  single : (∀ other ∈ own, Key.normal other = Key.normal name → other = name) →
    ∀ used ∈ known, Key.normal used = Key.normal name → spelling ∈ known
  /-- A name that is not in use stays as it is. -/
  unused : (∀ used ∈ known, Key.normal used ≠ Key.normal name) → spelling = name

theorem Spelled.of_perm {known own others : List String} {name spelling : String}
    (hspelled : Spelled known own name spelling) (hown : own.Perm others) :
    Spelled known others name spelling := by
  obtain ⟨hnormal, hseveral, hsingle, hunused⟩ := hspelled
  exact ⟨hnormal, fun other hother ↦ hseveral other (hown.mem_iff.mpr hother),
    fun hothers ↦ hsingle fun other hother ↦ hothers other (hown.mem_iff.mp hother), hunused⟩

variable {known sections relaxed : List (String × Datum)}

/-- A name of a source is spelled once when it is the only one of its normal form. -/
theorem spelledOnce_iff {fields : List (String × Datum)} {name : String}
    (hnames : (Fields.names fields).Nodup) (hname : name ∈ Fields.names fields) :
    spelledOnce fields name = true ↔
      ∀ other ∈ Fields.names fields, Key.normal other = Key.normal name → other = name := by
  obtain ⟨value, hvalue⟩ := Fields.mem_names_iff.mp hname
  constructor
  · intro honce other hother hsame
    obtain ⟨held, hheld⟩ := Fields.mem_names_iff.mp hother
    obtain ⟨only, hfilter⟩ := List.length_eq_one_iff.mp (by simpa [spelledOnce] using honce)
    have hone : (name, value) ∈ [only] :=
      hfilter ▸ List.mem_filter.mpr ⟨hvalue, Key.agree_iff.mpr rfl⟩
    have htwo : (other, held) ∈ [only] :=
      hfilter ▸ List.mem_filter.mpr ⟨hheld, Key.agree_iff.mpr hsame⟩
    rw [List.mem_singleton] at hone htwo
    exact congrArg Prod.fst (htwo.trans hone.symm)
  · intro hothers
    have honly : Spelling.Only name name fields := fun field hfield hsame ↦
      hothers field.1 (List.mem_map_of_mem hfield) hsame
    rw [spelledOnce, Spelling.filter_eq_get? hnames rfl honly,
      (Fields.get?_eq_some_iff hnames).mpr hvalue]
    rfl

/-- The spelling in use for a name is one of the known names, and there is one unless no known name
has the normal form. -/
theorem spelling?_cases (known : List (String × Datum)) (name : String) :
    spelling? known name = none ∧ (∀ used ∈ Fields.names known, Key.normal used ≠ Key.normal name) ∨
      ∃ used ∈ Fields.names known, Key.normal used = Key.normal name ∧
        spelling? known name = some used := by
  unfold spelling?
  cases hlast : (known.filter fun field ↦ Key.agree field.1 name).getLast? with
  | none =>
    refine .inl ⟨rfl, fun used hused hsame ↦ ?_⟩
    obtain ⟨value, hvalue⟩ := Fields.mem_names_iff.mp hused
    rw [List.getLast?_eq_none_iff, List.filter_eq_nil_iff] at hlast
    exact hlast (used, value) hvalue (Key.agree_iff.mpr hsame)
  | some field =>
    obtain ⟨hfield, hagree⟩ := List.mem_filter.mp (List.mem_of_getLast? hlast)
    exact .inr ⟨field.1, List.mem_map_of_mem hfield, Key.agree_iff.mp hagree, rfl⟩

theorem spelled_respelled {fields : List (String × Datum)} {name : String}
    (hnames : (Fields.names fields).Nodup) (hname : name ∈ Fields.names fields) :
    Spelled (Fields.names known) (Fields.names fields) name (respelled known fields name) := by
  have honce := spelledOnce_iff hnames hname
  refine ⟨normal_respelled, fun other hother hsame hne ↦ ?_, fun hsingle used hused hsame ↦ ?_,
    fun hunused ↦ ?_⟩
  · rw [respelled, if_neg fun hspelled ↦ hne (honce.mp hspelled other hother hsame)]
  · obtain ⟨-, hnone⟩ | ⟨spelling, hspelling, -, hfound⟩ := spelling?_cases known name
    · exact absurd hsame (hnone used hused)
    · rw [respelled, if_pos (honce.mpr hsingle), hfound]
      exact hspelling
  · obtain ⟨hnone, -⟩ | ⟨spelling, hspelling, hsame, -⟩ := spelling?_cases known name
    · rw [respelled, hnone]
      exact ite_self _
    · exact absurd hsame (hunused spelling hspelling)

/-! ### One section -/

/-- Fields in order stay as they are where no names are in use. -/
theorem respell_nil {fields : List (String × Datum)} (hordered : Fields.Ordered fields) :
    respell [] fields = fields := by
  have hsame : ∀ name, respelled [] fields name = name := fun name ↦ ite_self _
  simp only [respell, hsame, List.map_id']
  exact hordered.ofList_eq

/-- The table that is known under a name, empty if there is none. -/
def knownTable (known : List (String × Datum)) (name : String) : List (String × Datum) :=
  ((Fields.get? name known).map Datum.fields).getD []

theorem respellSection_table {name : String} {entries : List (String × Datum)}
    (hordered : Fields.Ordered entries) :
    respellSection known name (.table entries) =
      .table (respell (knownTable known name) entries) := by
  unfold respellSection knownTable
  cases Fields.get? name known with
  | none => exact congrArg Datum.table (respell_nil hordered).symm
  | some value =>
    cases value with
    | table fields => rfl
    | _ => exact congrArg Datum.table (respell_nil hordered).symm

/-- What a section of a source becomes, where `ids` are those of the source. -/
inductive SectionRelaxes (known : List (String × Datum)) (ids : List String) :
    String × Datum → String × Datum → Prop
  /-- What is no table stays as it is, under an id that may be spelled otherwise. -/
  | leaf {id name : String} {value : Datum} (hname : Spelled (Fields.names known) ids id name)
      (hleaf : value.IsLeaf) : SectionRelaxes known ids (id, value) (name, value)
  /-- Each leaf of a table becomes one entry, under a key in the spelling that the known table of
  the resulting id uses. -/
  | table {id name : String} {fields entries : List (String × Datum)}
      (hname : Spelled (Fields.names known) ids id name) (key : String → String)
      (hkeys : ∀ path ∈ Fields.names (fieldLeaves "" fields),
        Spelled (Fields.names (knownTable known name)) (Fields.names (fieldLeaves "" fields)) path
          (key path))
      (hentries : entries.Perm ((fieldLeaves "" fields).map fun leaf ↦ (key leaf.1, leaf.2)))
      (hordered : Fields.Ordered entries) :
      SectionRelaxes known ids (id, .table fields) (name, .table entries)

theorem sectionRelaxes_of_fold {ids : List String} {id name : String} {value folded : Datum}
    (hname : Spelled (Fields.names known) ids id name) (hfold : fold id value = .ok folded) :
    SectionRelaxes known ids (id, value) (name, respellSection known name folded) := by
  have hcases := fold_cases id value
  rw [hfold] at hcases
  cases hcases with
  | leaf hleaf =>
    have hsame : respellSection known name value = value := by
      cases value with
      | table fields => exact absurd rfl (hleaf fields)
      | _ => rfl
    rw [hsame]
    exact .leaf hname hleaf
  | @table fields entries hvalue hperm hordered =>
    subst hvalue
    rw [respellSection_table hordered]
    have hnames : (Fields.names entries).Nodup := hordered.nodup_names
    have hown : (Fields.names entries).Perm (Fields.names (fieldLeaves "" fields)) := hperm.map _
    refine .table hname (respelled (knownTable known name) entries) (fun path hpath ↦ ?_) ?_
      (Fields.ordered_ofList _)
    · exact (spelled_respelled hnames (hown.mem_iff.mpr hpath)).of_perm hown
    · exact (respell_perm_respelled hnames).trans (hperm.map _)

/-! ### All sections -/

/-- A section is a table in which two leaves have one path. -/
def Repeats (given : String × Datum) : Prop :=
  ∃ fields, given.2 = .table fields ∧ ¬(Fields.names (fieldLeaves "" fields)).Nodup

theorem not_nodup_of_occurrences {path : String} {values : List (String × Datum)}
    (htwice : 2 ≤ occurrences path values) : ¬(Fields.names values).Nodup := by
  intro hnodup
  have honce := List.nodup_iff_count_le_one.mp hnodup path
  exact absurd (htwice.trans honce) (by decide)

/-- A section that repeats a path does not fold. -/
theorem not_repeats_of_fold {given : String × Datum} {folded : Datum}
    (hfold : fold given.1 given.2 = .ok folded) : ¬Repeats given := by
  rintro ⟨fields, hvalue, hrepeats⟩
  have hcases := fold_cases given.1 given.2
  rw [hfold] at hcases
  cases hcases with
  | leaf hleaf => exact hleaf fields hvalue
  | @table others entries hothers hperm hordered =>
    obtain rfl := Datum.table.inj (hothers.symm.trans hvalue)
    exact hrepeats ((hperm.map _).nodup_iff.mp hordered.nodup_names)

/-- Relaxing fails for a path that two leaves of a section have. -/
theorem relax_eq_error {fault : LayerFault} (hrelax : relax known sections = .error fault) :
    ∃ id fields path, (id, .table fields) ∈ sections ∧
      2 ≤ occurrences path (fieldLeaves "" fields) ∧ fault = .setTwice id path := by
  obtain ⟨folded, hfolded, -⟩ | ⟨⟨id, value⟩, hgiven, fault', hfault, hall⟩ :=
    foldAll_cases sections
  · simp [relax_eq, hfolded, Except.map] at hrelax
  · obtain rfl : fault' = fault := by simpa [relax_eq, hall, Except.map] using hrelax
    have hcases := fold_cases id value
    rw [hfault] at hcases
    cases hcases with
    | @twice fields path hvalue htwice => exact ⟨id, fields, path, hvalue ▸ hgiven, htwice, rfl⟩

/-- What comes out where relaxing succeeds: the sections of the source, one by one. -/
theorem relax_eq_ok (hnames : (Fields.names sections).Nodup)
    (hrelax : relax known sections = .ok relaxed) :
    (∀ given ∈ sections, ¬Repeats given) ∧ Fields.Ordered relaxed ∧
      ∃ results, relaxed.Perm results ∧
        List.Forall₂ (SectionRelaxes known (Fields.names sections)) sections results := by
  cases hfolded : foldAll sections with
  | error fault => simp [relax_eq, hfolded, Except.map] at hrelax
  | ok folded =>
    obtain rfl : inSpellingsOf known folded = relaxed := by
      simpa [relax_eq, hfolded, Except.map] using hrelax
    have hfolds := forall₂_of_foldAll hfolded
    have hsame : Fields.names folded = Fields.names sections := names_foldAll hfolds
    have hfoldedNames : (Fields.names folded).Nodup := hsame ▸ hnames
    have hrespelled : (inSpellingsOf known folded).Perm _ :=
      (respell_perm_respelled hfoldedNames).map _
    have honce := hfolds.imp fun given result hfold ↦ And.intro (not_repeats_of_fold hfold.2) hfold
    refine ⟨((List.forall₂_and_left _ _).mp honce).1, ?_, _, hrespelled, ?_⟩
    · exact List.pairwise_map.mpr (Fields.ordered_ofList _ : Fields.Ordered (respell known folded))
    · rw [List.map_map, List.forall₂_map_right_iff, ← hsame]
      -- the ids are renamed by what all sections of the source are called
      have hids : ∀ given ∈ sections, given.1 ∈ Fields.names folded := fun given hgiven ↦
        hsame ▸ List.mem_map_of_mem hgiven
      refine ((List.forall₂_and_left _ _).mpr ⟨hids, hfolds⟩).imp ?_
      rintro ⟨id, value⟩ ⟨name, result⟩ ⟨hid, rfl, hfold⟩
      exact sectionRelaxes_of_fold (spelled_respelled hfoldedNames hid) hfold

/-- What relaxing keeps of the sections of a source. It fails exactly for a section in which two
leaves have one path, and its fault tells the path. Otherwise every section comes out once, in one
place: what is no table as it stands, and a table with one entry for each leaf, with its value. Ids
and keys are spelled as `Spelled` says. The path of a leaf has the normal form of its dotted key,
and is the dotted key itself in a section without a table under the empty key. -/
theorem relax_keeps_leaves (hnames : (Fields.names sections).Nodup) :
    ((∃ fault, relax known sections = .error fault) ↔ ∃ given ∈ sections, Repeats given) ∧
      (∀ fault, relax known sections = .error fault →
        ∃ id fields path, (id, .table fields) ∈ sections ∧
          2 ≤ occurrences path (fieldLeaves "" fields) ∧ fault = .setTwice id path) ∧
      (∀ relaxed, relax known sections = .ok relaxed → Fields.Ordered relaxed ∧
        ∃ results, relaxed.Perm results ∧
          List.Forall₂ (SectionRelaxes known (Fields.names sections)) sections results) ∧
      ∀ given ∈ sections, ∀ fields, given.2 = .table fields →
        List.Forall₂ Datum.SameLeaf (dottedFields "" fields) (fieldLeaves "" fields) ∧
          ((∀ field ∈ fields, field.1 = "" → field.2.IsLeaf) →
            dottedFields "" fields = fieldLeaves "" fields) := by
  refine ⟨⟨?_, ?_⟩, fun _ ↦ relax_eq_error, fun _ hrelax ↦ (relax_eq_ok hnames hrelax).2,
    fun _ _ fields _ ↦ ⟨Datum.sameLeaf_dottedFields rfl fields, Datum.dottedFields_of_named⟩⟩
  · rintro ⟨fault, hrelax⟩
    obtain ⟨id, fields, path, hgiven, htwice, -⟩ := relax_eq_error hrelax
    exact ⟨_, hgiven, fields, rfl, not_nodup_of_occurrences htwice⟩
  · rintro ⟨given, hgiven, hrepeats⟩
    cases hrelax : relax known sections with
    | error fault => exact ⟨fault, rfl⟩
    | ok relaxed => exact absurd hrepeats ((relax_eq_ok hnames hrelax).1 given hgiven)

/-- A source spells two ids and one key otherwise than they are known, and spells another key in two
ways, one of them in a table. One of its sections is no table. -/
theorem relax_keeps_leaves_orders :
    let known : List (String × Datum) := [("aws2-kinesis", .table [("streamName", .text "orders")]),
      ("orders", .table [("proxy-host", .text "mq.local")])]
    let sections : List (String × Datum) :=
      [("AWS2_KINESIS", .table [("stream-name", .text "events")]),
        ("Orders", .table [("proxy", .table [("host", .text "mq.prod"), ("port", .int 5672)]),
          ("proxyPort", .int 5671)]),
        ("region", .text "eu")]
    let relaxed : List (String × Datum) :=
      [("aws2-kinesis", .table [("streamName", .text "events")]),
        ("orders", .table [("proxy-host", .text "mq.prod"), ("proxy.port", .int 5672),
          ("proxyPort", .int 5671)]),
        ("region", .text "eu")]
    (Fields.names sections).Nodup ∧ relax known sections = .ok relaxed ∧
      (¬∃ given ∈ sections, Repeats given) ∧ ∃ results, relaxed.Perm results ∧
        List.Forall₂ (SectionRelaxes known ["AWS2_KINESIS", "Orders", "region"])
          sections results := by
  intro known sections relaxed
  have hnames : (Fields.names sections).Nodup := by decide
  have hrelax : relax known sections = .ok relaxed := by decide +kernel
  obtain ⟨hfails, -, hkeeps, -⟩ := @relax_keeps_leaves known sections hnames
  refine ⟨hnames, hrelax, fun hrepeats ↦ ?_, (hkeeps relaxed hrelax).2⟩
  obtain ⟨fault, hfault⟩ := hfails.mpr hrepeats
  cases hrelax.symm.trans hfault

/-- A table under the empty key at the top of a section. Relaxing fails for two leaves whose dotted
keys are `.host` and `host`, and takes two whose dotted key is `.host` for different ones. -/
theorem relax_nameless :
    let apart : List (String × Datum) :=
      [("", .table [("host", .text "mq.local")]), ("host", .text "mq.prod")]
    let alike : List (String × Datum) :=
      [("", .table [("host", .text "mq.local")]), (".host", .text "mq.prod")]
    Fields.names (dottedFields "" apart) = [".host", "host"] ∧
      relax [] [("orders", .table apart)] = .error (.setTwice "orders" "host") ∧
      Fields.names (dottedFields "" alike) = [".host", ".host"] ∧
      relax [] [("orders", .table alike)] =
        .ok [("orders", .table [(".host", .text "mq.prod"), ("host", .text "mq.local")])] := by
  decide +kernel

end Relaxed

end Connectors
