import Connectors.Proofs.Loader.Reloading
import Connectors.Proofs.Sections.Precedence
import Connectors.Proofs.Sections.Routes

/-!
# The last source that sets a key

Of sources that are merged the last one that sets a key is the one that counts (`Layer.Prevails`,
`Layer.prevails_mergeAll`). Outside the sections a key is a route, and the value that stands there
is the one of the last source that sets it (`Layer.at?_mergeAll`). A section, or a key of one, is
set to the value of the last source that has it (`Layer.sets_mergeAll`). No other value is left
under the key as this source writes it if no source before spells it in several ways
(`Layer.writes_mergeAll_eq`), and none in any spelling if this source does not either
(`Layer.sets_mergeAll_iff`).

Later sources have to be quiet about the key: a table in the place of a value, or a value in the
place of a table, takes it away with what is there.
-/

set_option autoImplicit false
set_option relaxedAutoImplicit false

namespace Connectors.Layer

open Relaxed (Folded Sets Writes Quiet OneWay relax)
open Datum (at? Fits)

variable {known fields source result : List (String × Datum)}

/-! ### One source over a layer -/

theorem sections_of_none (hnone : Fields.get? componentsKey source = none) :
    sections (.ok source) = [] := by
  rw [sections, hnone]

theorem sections_of_isLeaf {value : Datum} (hget : Fields.get? componentsKey source = some value)
    (hleaf : value.IsLeaf) : sections (.ok source) = [] := by
  rw [sections_ok, Relaxed.knownTable, hget]
  exact Datum.fields_of_isLeaf hleaf

/-- What a source does to the sections of a layer. -/
inductive SectionsOver (known source : List (String × Datum)) : List (String × Datum) → Prop
  /-- Its sections are relaxed and put over them. -/
  | merged {relaxed : List (String × Datum)}
      (hrelax : relax known (sections (.ok source)) = .ok relaxed) :
    SectionsOver known source (Datum.overlayFields known relaxed)
  /-- Something else in the place of sections takes them away. -/
  | replaced {value : Datum} (hget : Fields.get? componentsKey source = some value)
      (hleaf : value.IsLeaf) : SectionsOver known source []

theorem sectionsOver_of_relaxedMerge (hordered : Fields.Ordered source)
    (hmerge : relaxedMerge (.ok fields) (.ok source) = .ok result) :
    SectionsOver (sections (.ok fields)) source (sections (.ok result)) := by
  obtain ⟨given, hrelaxed, rfl⟩ := exists_of_relaxedMerge hmerge
  have hheld := sections_ok fields
  have hresult := sections_ok (Datum.overlayFields fields given)
  rw [Relaxed.knownTable] at hheld hresult
  rw [hresult]
  generalize sections (.ok fields) = known at hrelaxed hheld ⊢
  obtain ⟨sections, relaxedSections, hget, hrelax, rfl⟩ | ⟨hnone, rfl⟩ := relaxed_cases hrelaxed
  · have hput : Fields.Ordered (Fields.put componentsKey (Datum.table relaxedSections) source) :=
      Fields.ordered_put hordered
    rw [Datum.get?_overlayFields hput.nodup_names, Fields.get?_put_self]
    simp only [Option.map_some, Option.getD_some]
    rw [Relaxed.united_table _ (Relaxed.folded_of_relax hrelax).ordered, ← hheld]
    rw [← sections_eq hget] at hrelax
    exact .merged hrelax
  · rw [Datum.get?_overlayFields hordered.nodup_names]
    cases hget : Fields.get? componentsKey source with
    | none =>
      simp only [← hheld]
      have hrelax : relax known (Layer.sections (.ok source)) = .ok [] := by
        rw [sections_of_none hget]
        rfl
      exact .merged hrelax
    | some value =>
      have hleaf : value.IsLeaf := fun sections hvalue ↦ hnone sections (hvalue ▸ hget)
      simp only [Option.map_some, Option.getD_some, Datum.united_of_isLeaf hleaf,
        Datum.fields_of_isLeaf hleaf]
      exact .replaced hget hleaf

/-- The ids of an orderly source are in order. -/
theorem nodup_sections (horderly : (Datum.table source).Orderly) :
    (Fields.names (sections (.ok source))).Nodup := by
  have hordered : Fields.Ordered (sections (.ok source)) := by
    rw [sections_ok, Relaxed.knownTable]
    cases hget : Fields.get? componentsKey source with
    | none => exact List.Pairwise.nil
    | some value =>
      have hvalue := Datum.orderly_of_get? horderly hget
      cases value with
      | table given => exact (Datum.orderly_table_iff.mp hvalue).1
      | _ => exact List.Pairwise.nil
  exact hordered.nodup_names

section Sections

variable {id : String} {key : Option String} {value : Datum}

/-- A source says nothing about a component, or a key of it, and puts nothing else in the place of
the sections. -/
structure QuietSource (id : String) (key : Option String) (source : List (String × Datum)) :
    Prop where
  /-- The sections are in a table. -/
  table : ∀ value, Fields.get? componentsKey source = some value →
    ∃ sections, value = .table sections
  /-- They are quiet. -/
  quiet : Quiet id key (sections (.ok source))

variable (hknown : Folded (sections (.ok fields))) (horderly : (Datum.table source).Orderly)
  (hmerge : relaxedMerge (.ok fields) (.ok source) = .ok result)

section Setting

include horderly hmerge

/-- The sections of a source that sets something are put over those of the layer. -/
theorem exists_of_sets (hsets : Sets id key value (sections (.ok source))) :
    ∃ relaxed, relax (sections (.ok fields)) (sections (.ok source)) = .ok relaxed ∧
      sections (.ok result) = Datum.overlayFields (sections (.ok fields)) relaxed := by
  have hover := sectionsOver_of_relaxedMerge (Datum.orderly_table_iff.mp horderly).1 hmerge
  generalize sections (.ok result) = merged at hover ⊢
  cases hover with
  | merged hrelax => exact ⟨_, hrelax, rfl⟩
  | replaced hget hleaf => simp [sections_of_isLeaf hget hleaf, Sets] at hsets

/-- So are those of a quiet source. -/
theorem QuietSource.exists_relax (hquiet : QuietSource id key source) :
    ∃ relaxed, relax (sections (.ok fields)) (sections (.ok source)) = .ok relaxed ∧
      sections (.ok result) = Datum.overlayFields (sections (.ok fields)) relaxed := by
  have hover := sectionsOver_of_relaxedMerge (Datum.orderly_table_iff.mp horderly).1 hmerge
  generalize sections (.ok result) = merged at hover ⊢
  cases hover with
  | merged hrelax => exact ⟨_, hrelax, rfl⟩
  | replaced hget hleaf =>
    obtain ⟨given, hgiven⟩ := hquiet.table _ hget
    exact absurd hgiven (hleaf given)

end Setting

include hknown horderly hmerge

/-- What a source sets is set afterwards. -/
theorem sets_relaxedMerge (hsets : Sets id key value (sections (.ok source))) :
    Sets id key value (sections (.ok result)) := by
  obtain ⟨relaxed, hrelax, hresult⟩ := exists_of_sets horderly hmerge hsets
  rw [hresult]
  exact Relaxed.sets_merge hknown (nodup_sections horderly) hrelax hsets

/-- A quiet source leaves the values as they are. -/
theorem sets_relaxedMerge_iff (hquiet : QuietSource id key source) :
    Sets id key value (sections (.ok result)) ↔ Sets id key value (sections (.ok fields)) := by
  obtain ⟨relaxed, hrelax, hresult⟩ := hquiet.exists_relax horderly hmerge
  rw [hresult]
  exact Relaxed.sets_merge_iff hknown (nodup_sections horderly) hrelax hquiet.quiet

/-- A quiet source brings no values. -/
theorem writes_of_relaxedMerge (hquiet : QuietSource id key source)
    (hwrites : Writes id key value (sections (.ok result))) :
    Writes id key value (sections (.ok fields)) := by
  obtain ⟨relaxed, hrelax, hresult⟩ := hquiet.exists_relax horderly hmerge
  rw [hresult] at hwrites
  exact Relaxed.writes_of_merge hknown (nodup_sections horderly) hrelax hquiet.quiet hwrites

/-- Under a key that a source writes no other value is left, if the key was spelled in one way
before. -/
theorem writes_relaxedMerge_eq (honce : OneWay id key (sections (.ok fields)))
    (hsource : Writes id key value (sections (.ok source))) {found : Datum}
    (hwrites : Writes id key found (sections (.ok result))) : found = value := by
  obtain ⟨relaxed, hrelax, hresult⟩ := exists_of_sets horderly hmerge hsource.sets
  rw [hresult] at hwrites
  exact Relaxed.writes_merge_eq hknown honce (nodup_sections horderly) hrelax hsource hwrites

/-- A source that spells a key in one way keeps it spelled in one way. -/
theorem oneWay_relaxedMerge (honce : OneWay id key (sections (.ok fields)))
    (hsource : OneWay id key (sections (.ok source))) : OneWay id key (sections (.ok result)) := by
  have hover := sectionsOver_of_relaxedMerge (Datum.orderly_table_iff.mp horderly).1 hmerge
  generalize sections (.ok result) = merged at hover ⊢
  cases hover with
  | merged hrelax => exact honce.merge hknown hsource (nodup_sections horderly) hrelax
  | replaced => exact ⟨by simp [Spelling.OnceFor], by simp⟩

end Sections

/-! ### Routes outside the sections -/

/-- A route that does not lead into the sections. -/
def OutsideSections (route : List String) : Prop :=
  ∀ name rest, route ≠ componentsKey :: name :: rest

/-- Outside the sections a source has its values at the ends of the routes that it fits, and leaves
what stands at the others. -/
theorem at?_of_relaxedMerge {route : List String} (houtside : OutsideSections route)
    (horderly : (Datum.table source).Orderly) (hfits : Fits route (.table source))
    (hmerge : relaxedMerge (.ok fields) (.ok source) = .ok result) :
    at? route (.table result) = (at? route (.table source)).or (at? route (.table fields)) := by
  obtain ⟨given, hrelaxed, rfl⟩ := exists_of_relaxedMerge hmerge
  have hordered := (Datum.orderly_table_iff.mp horderly).1
  cases route with
  | nil => exact absurd hfits (by simp [Fits])
  | cons name rest =>
    have hgiven : Fields.Ordered given ∧ Fields.get? name given = Fields.get? name source := by
      obtain ⟨sections, relaxedSections, hget, -, rfl⟩ | ⟨-, rfl⟩ := relaxed_cases hrelaxed
      · refine ⟨Fields.ordered_put hordered, Fields.get?_put_of_ne _ _ ?_⟩
        rintro rfl
        -- The route ends at the sections, where it would need a value that is no table.
        cases rest with
        | nil =>
          obtain ⟨_, ⟨⟩, hfound⟩ := Datum.fits_cons_iff.mp hfits
          exact Datum.fits_nil_iff.mp (hfound _ hget) sections rfl
        | cons next rest => exact houtside next rest rfl
      · exact ⟨hordered, rfl⟩
    rw [← Datum.at?_overlay_of_fits horderly hfits, Datum.overlay_tables, at?, at?,
      Datum.get?_overlayFields hgiven.1.nodup_names,
      Datum.get?_overlayFields hordered.nodup_names, hgiven.2]

/-! ### All sources -/

variable {earlier later : List (List (String × Datum))}

theorem mergeAll_concat (sources : List (List (String × Datum))) (source : List (String × Datum)) :
    mergeAll (sources ++ [source]) = (mergeAll sources).relaxedMerge (.ok source) := by
  rw [mergeAll, mergeAll, List.foldl_append]
  rfl

theorem exists_of_mergeAll_concat {sources : List (List (String × Datum))}
    (hmerge : mergeAll (sources ++ [source]) = .ok fields) :
    ∃ before, mergeAll sources = .ok before ∧
      relaxedMerge (.ok before) (.ok source) = .ok fields := by
  rw [mergeAll_concat] at hmerge
  obtain ⟨⟨before, hbefore⟩, -⟩ := eq_ok_of_relaxedMerge hmerge
  exact ⟨before, hbefore, hbefore ▸ hmerge⟩

theorem folded_mergeAll {sources : List (List (String × Datum))}
    (hordered : ∀ source ∈ sources, Fields.Ordered source)
    (hmerge : mergeAll sources = .ok fields) : Folded (sections (.ok fields)) := by
  rw [← hmerge]
  refine List.foldlRecOn (motive := fun merged : Layer ↦ Folded merged.sections) _ _
    Relaxed.folded_nil fun merged hmerged source hsource ↦
      folded_relaxedMerge hmerged fun given hgiven ↦ ?_
  exact Except.ok.inj hgiven ▸ hordered source hsource

/-- What a source brings about and later ones keep is there in the end. -/
theorem mergeAll_induction {motive : List (String × Datum) → Prop}
    (hordered : ∀ other ∈ earlier ++ source :: later, Fields.Ordered other)
    (hset : ∀ before after, mergeAll earlier = .ok before → Folded (sections (.ok before)) →
      relaxedMerge (.ok before) (.ok source) = .ok after → motive after)
    (hkeep : ∀ other ∈ later, ∀ before after, Folded (sections (.ok before)) →
      relaxedMerge (.ok before) (.ok other) = .ok after → motive before → motive after)
    (hmerge : mergeAll (earlier ++ source :: later) = .ok fields) : motive fields := by
  -- Sources are merged from the left, so the induction takes the later ones from their end.
  induction later using List.reverseRecOn generalizing fields with
  | nil =>
    obtain ⟨before, hbefore, hlast⟩ := exists_of_mergeAll_concat hmerge
    exact hset before fields hbefore
      (folded_mergeAll (fun other hother ↦ hordered other (by simp [hother])) hbefore) hlast
  | append_singleton later other ih =>
    rw [← List.cons_append, ← List.append_assoc] at hmerge hordered
    obtain ⟨before, hbefore, hlast⟩ := exists_of_mergeAll_concat hmerge
    have hothers := fun given hgiven ↦ hordered given (List.mem_append_left _ hgiven)
    exact hkeep other (by simp) before fields (folded_mergeAll hothers hbefore) hlast
      (ih hothers (fun given hgiven ↦ hkeep given (List.mem_append_left _ hgiven)) hbefore)

section LastSource

variable {id : String} {key : Option String} {value : Datum}
  (horderly : ∀ other ∈ earlier ++ source :: later, (Datum.table other).Orderly)
  (hmerge : mergeAll (earlier ++ source :: later) = .ok fields)

include horderly hmerge

/-- Outside the sections the value of the last source that sets a route stands at its end. -/
theorem at?_mergeAll {route : List String} (houtside : OutsideSections route)
    (hat : at? route (.table source) = some value) (hleaf : value.IsLeaf)
    (hlater : ∀ other ∈ later, Fits route (.table other) ∧ at? route (.table other) = none) :
    at? route (.table fields) = some value := by
  refine mergeAll_induction (motive := fun fields ↦ at? route (.table fields) = some value)
    (fun other hother ↦ (Datum.orderly_table_iff.mp (horderly other hother)).1)
    (fun before after _ _ hover ↦ ?_) (fun other hother before after _ hover hbefore ↦ ?_) hmerge
  · have hfits := Datum.fits_of_at? hat hleaf
    rw [at?_of_relaxedMerge houtside (horderly source (by simp)) hfits hover, hat, Option.some_or]
  · obtain ⟨hfits, hnone⟩ := hlater other hother
    rw [at?_of_relaxedMerge houtside (horderly other (by simp [hother])) hfits hover, hnone,
      Option.none_or, hbefore]

/-- What a source sets stays set where the later ones are quiet. -/
theorem sets_mergeAll (hsets : Sets id key value (sections (.ok source)))
    (hlater : ∀ other ∈ later, QuietSource id key other) :
    Sets id key value (sections (.ok fields)) := by
  refine mergeAll_induction (motive := fun fields ↦ Sets id key value (sections (.ok fields)))
    (fun other hother ↦ (Datum.orderly_table_iff.mp (horderly other hother)).1)
    (fun before after _ hfolded hover ↦ ?_)
    (fun other hother before after hfolded hover hbefore ↦ ?_) hmerge
  · exact sets_relaxedMerge hfolded (horderly source (by simp)) hover hsets
  · exact (sets_relaxedMerge_iff hfolded (horderly other (by simp [hother])) hover
      (hlater other hother)).mpr hbefore

end LastSource

/-- Sources that spell a key in one way each spell it in one way together. -/
theorem oneWay_mergeAll {id : String} {key : Option String} {sources : List (List (String × Datum))}
    (horderly : ∀ source ∈ sources, (Datum.table source).Orderly)
    (honce : ∀ source ∈ sources, OneWay id key (sections (.ok source)))
    (hmerge : mergeAll sources = .ok fields) : OneWay id key (sections (.ok fields)) := by
  induction sources using List.reverseRecOn generalizing fields with
  | nil =>
    obtain rfl := Except.ok.inj hmerge
    exact ⟨by simp [sections_of_holds holds_defaults, Spelling.OnceFor],
      by simp [sections_of_holds holds_defaults]⟩
  | append_singleton sources source ih =>
    obtain ⟨before, hbefore, hlast⟩ := exists_of_mergeAll_concat hmerge
    have hothers := fun given hgiven ↦ horderly given (List.mem_append_left [source] hgiven)
    have hfolded := folded_mergeAll
      (fun given hgiven ↦ (Datum.orderly_table_iff.mp (hothers given hgiven)).1) hbefore
    exact oneWay_relaxedMerge hfolded (horderly source (by simp)) hlast
      (ih hothers (fun given hgiven ↦ honce given (List.mem_append_left _ hgiven)) hbefore)
      (honce source (by simp))

section Unique

variable {id : String} {key : Option String} {value : Datum}
  (horderly : ∀ other ∈ earlier ++ source :: later, (Datum.table other).Orderly)
  (hlater : ∀ other ∈ later, QuietSource id key other)
  (hmerge : mergeAll (earlier ++ source :: later) = .ok fields)

include horderly hlater hmerge

/-- Under a key that the last source writes it is the only value, if no source before it spells the
key in several ways. -/
theorem writes_mergeAll_eq (honce : ∀ other ∈ earlier, OneWay id key (sections (.ok other)))
    (hsource : Writes id key value (sections (.ok source))) {found : Datum}
    (hwrites : Writes id key found (sections (.ok fields))) : found = value := by
  refine mergeAll_induction
    (motive := fun fields ↦ Writes id key found (sections (.ok fields)) → found = value)
    (fun other hother ↦ (Datum.orderly_table_iff.mp (horderly other hother)).1)
    (fun before after hbefore hfolded hover hafter ↦ ?_)
    (fun other hother before after hfolded hover heq hafter ↦ ?_) hmerge hwrites
  · have hknown :=
      oneWay_mergeAll (fun other hother ↦ horderly other (by simp [hother])) honce hbefore
    exact writes_relaxedMerge_eq hfolded (horderly source (by simp)) hover hknown hsource hafter
  · exact heq (writes_of_relaxedMerge hfolded (horderly other (by simp [hother])) hover
      (hlater other hother) hafter)

/-- What the last source sets a key to is its only value, if no source up to this one spells the key
in several ways. -/
theorem sets_mergeAll_iff
    (honce : ∀ other ∈ earlier ++ [source], OneWay id key (sections (.ok other)))
    (hsets : Sets id key value (sections (.ok source))) (found : Datum) :
    Sets id key found (sections (.ok fields)) ↔ found = value := by
  have hfirst := fun other (hother : other ∈ earlier ++ [source]) ↦ horderly other (by
    rw [List.append_cons]
    exact List.mem_append_left _ hother)
  refine mergeAll_induction
    (motive := fun fields ↦ Sets id key found (sections (.ok fields)) ↔ found = value)
    (fun other hother ↦ (Datum.orderly_table_iff.mp (horderly other hother)).1)
    (fun before after hbefore hfolded hover ↦ ?_)
    (fun other hother before after hfolded hover hiff ↦ ?_) hmerge
  · have hafter : mergeAll (earlier ++ [source]) = .ok after := by
      rw [mergeAll_concat, hbefore, hover]
    have hvalue := sets_relaxedMerge hfolded (horderly source (by simp)) hover hsets
    have hunique := oneWay_mergeAll hfirst honce hafter
    have hfoldedAfter := folded_mergeAll
      (fun other hother ↦ (Datum.orderly_table_iff.mp (hfirst other hother)).1) hafter
    exact ⟨fun hfound ↦ hunique.unique hfoldedAfter hfound hvalue, fun heq ↦ heq ▸ hvalue⟩
  · exact (sets_relaxedMerge_iff hfolded (horderly other (by simp [hother])) hover
      (hlater other hother)).trans hiff

end Unique

/-- What the merged settings have of a source, in what later sources leave alone. -/
structure Prevails (earlier : List (List (String × Datum))) (source : List (String × Datum))
    (later : List (List (String × Datum))) (fields : List (String × Datum)) : Prop where
  /-- Outside the sections its values stand at the ends of their routes. -/
  elsewhere : ∀ route value, OutsideSections route → at? route (.table source) = some value →
    value.IsLeaf → (∀ other ∈ later, Fits route (.table other) ∧ at? route (.table other) = none) →
    at? route (.table fields) = some value
  /-- A value that it writes is set, in some spelling. -/
  sets : ∀ id key value, Writes id key value (sections (.ok source)) →
    (∀ other ∈ later, QuietSource id key other) → Sets id key value (sections (.ok fields))
  /-- No other value is left under this key, if no source before it spells the key in several
  ways. -/
  writes : ∀ id key value, Writes id key value (sections (.ok source)) →
    (∀ other ∈ later, QuietSource id key other) →
    (∀ other ∈ earlier, OneWay id key (sections (.ok other))) →
    ∀ found, Writes id key found (sections (.ok fields)) → found = value
  /-- No other value is left in any spelling, if this source spells the key in one way as well. -/
  only : ∀ id key value, Writes id key value (sections (.ok source)) →
    (∀ other ∈ later, QuietSource id key other) →
    (∀ other ∈ earlier ++ [source], OneWay id key (sections (.ok other))) →
    ∀ found, Sets id key found (sections (.ok fields)) ↔ found = value

/-- Each source prevails over the ones before it. -/
theorem prevails_mergeAll
    (horderly : ∀ other ∈ earlier ++ source :: later, (Datum.table other).Orderly)
    (hmerge : mergeAll (earlier ++ source :: later) = .ok fields) :
    Prevails earlier source later fields where
  elsewhere _ _ houtside hat hleaf hlater := at?_mergeAll horderly hmerge houtside hat hleaf hlater
  sets _ _ _ hwrites hlater := sets_mergeAll horderly hmerge hwrites.sets hlater
  writes _ _ _ hwrites hlater honce _ hfound :=
    writes_mergeAll_eq horderly hlater hmerge honce hwrites hfound
  only _ _ _ hwrites hlater honce := sets_mergeAll_iff horderly hlater hmerge honce hwrites.sets

end Connectors.Layer
