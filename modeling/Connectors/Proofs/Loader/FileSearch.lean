import Connectors.Proofs.Loader.LastSource
import Connectors.Proofs.Toml.Documents

/-!
# Which files are merged

A loader without a file of its own goes through its positions: the search paths in turn, and in each
of them the base names in turn. It reads the profile's variants at all positions up to the first one
with a base file, and then this base file (`Loader.Selects`, `Loader.selects_filesFound`). What
stands at later positions does not matter (`Loader.mergeFiles_congr`), and there is a warning if no
position has a base file.

So the base file is the last source of all and the variants come in the order of their positions.
What that means for the keys that several of them set is told by `Loader.mergeFiles_of_search`, and
where it does not hold by `Loader.base_overruled`.
-/

set_option autoImplicit false
set_option relaxedAutoImplicit false

namespace Connectors.Loader

open Layer (sections QuietSource OutsideSections mergeAll)
open Relaxed (Sets Writes OneWay)
open Datum (at? Fits)

/-! ### Positions -/

/-- The files that are read of those at some positions, and whether there is a base file. -/
inductive Selects (present : String → Bool) (positions : List (String × String)) :
    List String → Bool → Prop
  /-- The first base file, and the variants at its position and before it. -/
  | found {before after : List (String × String)} {variant base : String}
    (hpositions : positions = before ++ (variant, base) :: after)
    (hbefore : ∀ position ∈ before, present position.2 = false) (hbase : present base = true) :
    Selects present positions
      (((before ++ [(variant, base)]).map (·.1)).filter present ++ [base]) true
  /-- All variants where there is no base file. -/
  | missing (hnone : ∀ position ∈ positions, present position.2 = false) :
    Selects present positions ((positions.map (·.1)).filter present) false

variable {present others : String → Bool} {before after : List (String × String)}
  {variant base : String}

theorem filesFound_append (hbefore : ∀ position ∈ before, present position.2 = false)
    (rest : List (String × String)) : filesFound present (before ++ rest) =
      ((before.map (·.1)).filter present ++ (filesFound present rest).1,
        (filesFound present rest).2) := by
  induction before with
  | nil => rfl
  | cons position before ih =>
    obtain ⟨variant, base⟩ := position
    obtain ⟨hbase, hrest⟩ := List.forall_mem_cons.mp hbefore
    rw [List.cons_append, filesFound, if_neg (by simpa using hbase), ih hrest]
    by_cases hvariant : present variant = true <;> simp [hvariant]

/-- What a search selects. -/
theorem selects_filesFound (present : String → Bool) (positions : List (String × String)) :
    Selects present positions
      (filesFound present positions).1 (filesFound present positions).2 := by
  cases hfind : positions.find? fun position ↦ present position.2 with
  | none =>
    have hnone : ∀ position ∈ positions, present position.2 = false := by simpa using hfind
    have hfound := filesFound_append hnone []
    rw [List.append_nil] at hfound
    rw [hfound]
    simpa [filesFound] using Selects.missing hnone
  | some position =>
    obtain ⟨hbase, before, after, rfl, hbefore⟩ := List.find?_eq_some_iff_append.mp hfind
    obtain ⟨variant, base⟩ := position
    have hnone : ∀ position ∈ before, present position.2 = false := by simpa using hbefore
    have hselects : Selects present (before ++ (variant, base) :: after) _ true :=
      .found rfl hnone hbase
    have hfirst : (if present variant then [variant] else []) = [variant].filter present := by
      cases hvariant : present variant <;> simp [hvariant]
    rw [filesFound_append hnone, filesFound, if_pos hbase, hfirst]
    simpa using hselects

/-- There is a base file among the files that are selected if there is one at any position. -/
theorem Selects.found_iff {positions : List (String × String)} {files : List String} {found : Bool}
    (hselects : Selects present positions files found) :
    found = true ↔ ∃ position ∈ positions, present position.2 = true := by
  cases hselects with
  | @found before after variant base hpositions _ hbase =>
    exact iff_of_true rfl ⟨(variant, base), by simp [hpositions], hbase⟩
  | missing hnone => exact iff_of_false Bool.false_ne_true (by simpa using hnone)

/-- A search ends at a position with a base file. What is found depends on what is present up to
there, and not on the positions after it. -/
theorem filesFound_congr (hbase : present base = true)
    (hagree : ∀ position ∈ before ++ [(variant, base)],
      others position.1 = present position.1 ∧ others position.2 = present position.2)
    (after later : List (String × String)) :
    filesFound others (before ++ (variant, base) :: after) =
      filesFound present (before ++ (variant, base) :: later) := by
  induction before with
  | nil =>
    obtain ⟨hvariant, hsame⟩ := hagree (variant, base) (by simp)
    simp only [List.nil_append, filesFound, hsame, hvariant, hbase, if_true]
  | cons position before ih =>
    obtain ⟨⟨hvariant, hsame⟩, hrest⟩ := List.forall_mem_cons.mp hagree
    simp only [List.cons_append, filesFound, hsame, hvariant, ih hrest]

/-! ### Files -/

variable {around : Surroundings} {loader : Loader}

theorem orderly_fileLayer {files : FileTree} {path : String} {source : List (String × Datum)}
    (hsource : fileLayer files path = .ok source) : (Datum.table source).Orderly := by
  rw [fileLayer] at hsource
  split at hsource
  · rename_i text _
    cases hparse : Toml.parse? text with
    | none => simp [hparse] at hsource
    | some entries =>
      obtain rfl : entries = source := by simpa [hparse] using hsource
      exact Toml.orderly_parse? hparse
  · obtain rfl := Except.ok.inj hsource
    exact Datum.orderly_table_iff.mpr ⟨List.Pairwise.nil, by simp⟩

/-- The positions that a loader goes through. -/
def searched (around : Surroundings) (loader : Loader) : List (String × String) :=
  positions loader.profile (loader.places around)

/-- The warning that there is no base file. -/
def noBaseFile (around : Surroundings) (loader : Loader) : Event :=
  .warn "No configuration file found, using defaults"
    [("paths", Text.quotedList (loader.places around))]

/-- The files that are read, merged over the defaults. -/
def mergeRead (around : Surroundings) (loader : Loader) : Layer :=
  (loader.filesRead around).foldl
    (fun merged path ↦ merged.relaxedMerge (fileLayer around.files path))
    (.ok (Config.fields {}))

/-- What a loader without a file of its own does with the files it finds. -/
theorem mergeFiles_of_none (hfile : loader.file = none) : loader.mergeFiles around =
    ⟨if (filesFound around.files.has (loader.searched around)).2 then []
      else [loader.noBaseFile around], .ok (loader.mergeRead around)⟩ := by
  rw [mergeFiles, mergeRead, filesRead, hfile]
  rfl

theorem filesRead_of_none (hfile : loader.file = none) :
    loader.filesRead around = (filesFound around.files.has (loader.searched around)).1 := by
  rw [filesRead, hfile]
  rfl

/-- No file at a position after one with a base file matters. -/
theorem mergeFiles_congr (hfile : loader.file = none)
    (hsearched : loader.searched around = before ++ (variant, base) :: after)
    (hbase : around.files.has base = true) {files : FileTree}
    (hagree : ∀ position ∈ before ++ [(variant, base)],
      files.find position.1 = around.files.find position.1 ∧
        files.find position.2 = around.files.find position.2) :
    loader.mergeFiles { around with files } = loader.mergeFiles around := by
  have hhas : ∀ position ∈ before ++ [(variant, base)],
      files.has position.1 = around.files.has position.1 ∧
        files.has position.2 = around.files.has position.2 := by
    intro position hposition
    obtain ⟨hvariant, hsame⟩ := hagree position hposition
    simp only [FileTree.has, hvariant, hsame, and_self]
  have hsame : loader.searched { around with files } = loader.searched around := rfl
  have hwarning : loader.noBaseFile { around with files } = loader.noBaseFile around := rfl
  have hfound : filesFound files.has (loader.searched around) =
      filesFound around.files.has (loader.searched around) := by
    rw [hsearched, filesFound_congr hbase hhas]
  have hread : loader.filesRead { around with files } = loader.filesRead around := by
    rw [filesRead_of_none hfile, filesRead_of_none hfile, hsame, hfound]
  have hlayers :
      ∀ path ∈ loader.filesRead around, fileLayer files path = fileLayer around.files path := by
    intro path hpath
    -- A file can be named at a later position as well, so the later positions are left out first.
    rw [filesRead_of_none hfile, hsearched,
      filesFound_congr hbase (fun _ _ ↦ ⟨rfl, rfl⟩) after []] at hpath
    obtain ⟨position, hposition, hmem⟩ := List.mem_flatMap.mp (mem_of_mem_filesFound hpath)
    obtain ⟨hvariant, hsame⟩ := hagree position hposition
    rw [fileLayer, fileLayer]
    rcases List.mem_pair.mp hmem with rfl | rfl
    · rw [hvariant]
    · rw [hsame]
  have hmerged : loader.mergeRead { around with files } = loader.mergeRead around := by
    rw [mergeRead, mergeRead, hread]
    exact List.foldl_ext _ _ _ fun merged path hpath ↦
      congrArg merged.relaxedMerge (hlayers path hpath)
  rw [mergeFiles_of_none hfile, mergeFiles_of_none hfile, hsame, hwarning, hfound, hmerged]

/-- Files that can be merged all hold a source. -/
theorem exists_sources {files : FileTree} {paths : List String} {fields : List (String × Datum)}
    (hmerge : paths.foldl (fun (merged : Layer) path ↦ merged.relaxedMerge (fileLayer files path))
      (.ok (Config.fields {})) = .ok fields) :
    ∃ sources, List.Forall₂ (fun path source ↦ fileLayer files path = .ok source) paths sources ∧
      mergeAll sources = .ok fields := by
  induction paths using List.reverseRecOn generalizing fields with
  | nil => exact ⟨[], .nil, hmerge⟩
  | append_singleton paths path ih =>
    rw [List.foldl_append, List.foldl_cons, List.foldl_nil] at hmerge
    obtain ⟨⟨before, hbefore⟩, source, hsource⟩ := Layer.eq_ok_of_relaxedMerge hmerge
    obtain ⟨sources, hall, hsources⟩ := ih hbefore
    refine ⟨sources ++ [source], List.rel_append hall (.cons hsource .nil), ?_⟩
    rw [Layer.mergeAll_concat, hsources, ← hsource, ← hbefore, hmerge]

/-- Which files are merged where no file is named: the variants of the profile at the positions up
to the first base file, and this base file as the last one, one over the other. There is a warning
exactly if no position has a base file, and what stands at positions after a base file does not
matter. Of the files that are read each one prevails over those before it, in what the later ones
leave alone. -/
theorem mergeFiles_of_search (hfile : loader.file = none) :
    (∃ found, Selects around.files.has (loader.searched around) (loader.filesRead around) found) ∧
    (loader.mergeFiles around).value = .ok (loader.mergeRead around) ∧
    (loader.mergeFiles around).events =
      (if ∃ position ∈ loader.searched around, around.files.has position.2 = true then []
        else [loader.noBaseFile around]) ∧
    (∀ before variant base after, loader.searched around = before ++ (variant, base) :: after →
      around.files.has base = true → ∀ files : FileTree,
      (∀ position ∈ before ++ [(variant, base)],
        files.find position.1 = around.files.find position.1 ∧
          files.find position.2 = around.files.find position.2) →
      loader.mergeFiles { around with files } = loader.mergeFiles around) ∧
    ∀ fields, (loader.mergeFiles around).value = .ok (.ok fields) → ∃ sources,
      List.Forall₂ (fun path source ↦ fileLayer around.files path = .ok source)
        (loader.filesRead around) sources ∧
      ∀ earlier source later, sources = earlier ++ source :: later →
        Layer.Prevails earlier source later fields := by
  have hselects := selects_filesFound around.files.has (loader.searched around)
  refine ⟨⟨_, filesRead_of_none hfile ▸ hselects⟩, ?_, ?_, ?_, fun fields hvalue ↦ ?_⟩
  · rw [mergeFiles_of_none hfile]
  · rw [mergeFiles_of_none hfile]
    exact if_congr hselects.found_iff rfl rfl
  · exact fun before variant base after hsearched hbase files hagree ↦
      mergeFiles_congr hfile hsearched hbase hagree
  · rw [mergeFiles_of_none hfile] at hvalue
    obtain ⟨sources, hall, hmerge⟩ := exists_sources (Except.ok.inj hvalue)
    have horderly : ∀ source ∈ sources, (Datum.table source).Orderly := fun source hsource ↦
      let ⟨_, _, hlayer⟩ := (Relaxed.exists_of_forall₂ hall).2 source hsource
      orderly_fileLayer hlayer
    refine ⟨sources, hall, fun earlier source later hsources ↦ ?_⟩
    subst hsources
    exact Layer.prevails_mergeAll horderly hmerge

/-- Two variants and a base file, and a file in a later place that could not even be read. The base
file has the level, and the option has the value of the later variant, which spells it in its own
way. -/
theorem mergeFiles_of_search_orders :
    let around : Surroundings := { files := .ofList [
      ("etc/conflux.development.toml",
        "[logging]\nlevel = \"trace\"\n[components.orders]\nproxy-host = \"mq.local\"\n"),
      ("etc/config.development.toml", "[components.Orders]\nproxyHost = \"mq.dev\"\n"),
      ("etc/config.toml", "[logging]\nlevel = \"warn\"\n"), ("home/conflux.toml", "[")] }
    let loader : Loader := { searchPaths := ["etc", "home"], usesEnvironment := false }
    loader.filesRead around =
        ["etc/conflux.development.toml", "etc/config.development.toml", "etc/config.toml"] ∧
      (loader.mergeFiles around).events = [] ∧
      ∃ fields, (loader.mergeFiles around).value = .ok (.ok fields) ∧
        at? ["logging", "level"] (.table fields) = some (.text "warn") ∧
        ∀ found, Sets "Orders" (some "proxyHost") found (sections (.ok fields)) ↔
          found = .text "mq.dev" := by
  intro around loader
  let first : List (String × Datum) := [(componentsKey, .table [("orders", .table
    [("proxy-host", .text "mq.local")])]), ("logging", .table [("level", .text "trace")])]
  let second : List (String × Datum) := [(componentsKey, .table [("Orders", .table
    [("proxyHost", .text "mq.dev")])])]
  let base : List (String × Datum) := [("logging", .table [("level", .text "warn")])]
  have hread : loader.filesRead around =
      ["etc/conflux.development.toml", "etc/config.development.toml", "etc/config.toml"] := by
    decide +kernel
  have hfirst : fileLayer around.files "etc/conflux.development.toml" = .ok first := by
    decide +kernel
  have hsecond : fileLayer around.files "etc/config.development.toml" = .ok second := by
    decide +kernel
  have hbase : fileLayer around.files "etc/config.toml" = .ok base := by decide +kernel
  obtain ⟨-, hmerge, hevents, -, hvalue⟩ := @mergeFiles_of_search around loader rfl
  refine ⟨hread, ?_, ?_⟩
  · rw [hevents, if_pos (by decide +kernel)]
  have hmerged : (loader.mergeRead around).isOk = true := by decide +kernel
  cases hfields : loader.mergeRead around with
  | error fault => simp [hfields, Except.isOk, Except.toBool] at hmerged
  | ok fields =>
    have hfiles : (loader.mergeFiles around).value = .ok (.ok fields) := by
      rw [hmerge, hfields]
    obtain ⟨sources, hall, hprevails⟩ := hvalue fields hfiles
    obtain rfl : sources = [first, second, base] := by
      rw [hread] at hall
      obtain _ | ⟨hone, _ | ⟨htwo, _ | ⟨hthree, _ | _⟩⟩⟩ := hall
      rw [Except.ok.inj (hone.symm.trans hfirst), Except.ok.inj (htwo.symm.trans hsecond),
        Except.ok.inj (hthree.symm.trans hbase)]
    have hlast := hprevails [first, second] base [] rfl
    have hvariant := hprevails [first] second [base] rfl
    have hlevel : at? ["logging", "level"] (.table base) = some (.text "warn") := by decide +kernel
    have hsingle : ∀ name fields, Spelling.OnceFor "proxyHost" (Datum.fieldLeaves "" fields) →
        OneWay "Orders" (some "proxyHost") [(name, .table fields)] := by
      intro name fields hfields
      refine ⟨by simp [Spelling.OnceFor], ?_⟩
      rintro option ⟨⟩ other held hmem -
      obtain ⟨-, ⟨⟩⟩ := Prod.mk.inj (List.mem_singleton.mp hmem)
      exact hfields
    have honce : ∀ other ∈ [first] ++ [second],
        OneWay "Orders" (some "proxyHost") (sections (.ok other)) := by
      simp only [List.cons_append, List.nil_append, List.forall_mem_cons]
      exact ⟨hsingle _ _ (by decide +kernel), hsingle _ _ (by decide +kernel), by simp⟩
    have hwrites : Writes "Orders" (some "proxyHost") (.text "mq.dev") (sections (.ok second)) :=
      ⟨_, List.mem_singleton.mpr rfl, by decide +kernel⟩
    have hquiet : QuietSource "Orders" (some "proxyHost") base := by
      have hnone : Fields.get? componentsKey base = none := by decide +kernel
      refine ⟨fun value hvalue ↦ ?_, ?_⟩
      · rw [hnone] at hvalue
        cases hvalue
      · rw [Layer.sections_of_none hnone]
        exact fun given hgiven ↦ absurd hgiven List.not_mem_nil
    exact ⟨fields, hfiles, hlast.elsewhere _ _ (by simp [OutsideSections, componentsKey]) hlevel
      (by simp [Datum.IsLeaf]) (by simp),
      hvariant.only _ _ _ hwrites (by simpa using hquiet) honce⟩

/-- A variant spells an option in two ways, and the base file sets one of these keys. Its value
comes out under the other key, and the key that both files set keeps the value of the variant. A
switch that the base file turns off stays on in this way. -/
theorem base_overruled :
    let variant := "conflux.development.toml"
    let base := "conflux.toml"
    let around : Surroundings := { files := .ofList [
      (variant, "[components.orders]\nproxy-host = \"mq.local\"\nproxyHost = \"mq.dev\"\n"),
      (base, "[components.orders]\nproxy-host = \"mq.prod\"\n")] }
    let switched : Surroundings := { files := .ofList [
      (variant, "[components.orders]\nenabled = true\nenabled_ = \"always\"\n"),
      (base, "[components.orders]\nenabled = false\n")] }
    let loader : Loader := { usesEnvironment := false }
    loader.filesRead around = [variant, base] ∧
      fileLayer around.files variant = .ok [(componentsKey, .table [("orders", .table
        [("proxy-host", .text "mq.local"), ("proxyHost", .text "mq.dev")])])] ∧
      fileLayer around.files base = .ok [(componentsKey, .table [("orders", .table
        [("proxy-host", .text "mq.prod")])])] ∧
      (loader.load around).value = .ok { components := [("orders", .table
        [("proxy-host", .text "mq.local"), ("proxyHost", .text "mq.prod")])] } ∧
      fileLayer switched.files base = .ok [(componentsKey, .table [("orders", .table
        [("enabled", .bool false)])])] ∧
      (loader.load switched).value.bind Config.sections =
        .ok [⟨"orders", true, [("enabled_", "false")]⟩] := by
  decide +kernel

end Connectors.Loader
