import Connectors.Proofs.Sections.Routes
import Connectors.Toml.Document

/-!
# The tables of a document

The tables that are read from a document have their names in order, at any depth
(`Toml.orderly_parse?`). A table that is still being built lists its entries as they come; it is put
in order when it is turned into data. So all that has to hold while a document is read is that the
values that are complete are orderly (`Toml.Tree.Sound`). Every way to add to a document keeps this
(`Toml.Tree.keepsSound_descend`), and what a reader of values gives has it (`Toml.gives_sound`).
-/

set_option autoImplicit false
set_option relaxedAutoImplicit false

namespace Connectors.Toml

/-! ### Trees -/

namespace Tree

mutual

/-- The complete values in a tree are orderly. Those below an array of tables do not matter, since
the array becomes a list. -/
def Sound : Tree → Prop
  | leaf value => value.Orderly
  | table _ entries => SoundEntries entries
  | tables _ => True

/-- The complete values in entries are orderly. -/
def SoundEntries : List (String × Tree) → Prop
  | [] => True
  | (_, tree) :: rest => Sound tree ∧ SoundEntries rest

end

mutual

theorem orderly_datum (tree : Tree) (hsound : tree.Sound) : tree.datum.Orderly := by
  match tree with
  | leaf value =>
    rw [datum]
    exact hsound
  | table _ entries =>
    rw [datum]
    exact orderly_entriesDatum entries hsound
  | tables items =>
    rw [datum]
    exact trivial

/-- The table of sound entries is orderly, whatever the order of the entries. -/
theorem orderly_entriesDatum (entries : List (String × Tree)) (hsound : SoundEntries entries) :
    (Datum.table (entriesDatum entries)).Orderly := by
  match entries with
  | [] =>
    rw [entriesDatum]
    exact Datum.orderly_table_iff.mpr ⟨List.Pairwise.nil, by simp⟩
  | (name, tree) :: rest =>
    obtain ⟨htree, hrest⟩ := hsound
    obtain ⟨hordered, hvalues⟩ := Datum.orderly_table_iff.mp (orderly_entriesDatum rest hrest)
    rw [entriesDatum]
    refine Datum.orderly_table_iff.mpr ⟨Fields.ordered_put hordered, fun field hfield ↦ ?_⟩
    rcases Fields.mem_of_mem_put hfield with rfl | hfield
    · exact orderly_datum tree htree
    · exact hvalues field hfield

end

variable {entries changed : List (String × Tree)} {name : String} {tree : Tree}

theorem soundEntries_iff : SoundEntries entries ↔ ∀ entry ∈ entries, entry.2.Sound := by
  induction entries with
  | nil => simp [SoundEntries]
  | cons entry rest ih => rw [SoundEntries, ih, List.forall_mem_cons]

theorem sound_of_lookup (hsound : SoundEntries entries)
    (hlookup : entries.lookup name = some tree) : tree.Sound := by
  obtain ⟨before, after, hentries, -⟩ := List.lookup_eq_some_iff.mp hlookup
  exact soundEntries_iff.mp hsound (name, tree) (by simp [hentries])

theorem soundEntries_put (hsound : SoundEntries entries) (htree : tree.Sound) :
    SoundEntries (put name tree entries) := by
  induction entries with
  | nil => exact ⟨htree, trivial⟩
  | cons entry rest ih =>
    obtain ⟨hfirst, hrest⟩ := hsound
    rw [put]
    split
    · exact ⟨htree, hrest⟩
    · exact ⟨hfirst, ih hrest⟩

/-- A change to a table that keeps it sound. -/
def KeepsSound (change : Origin → List (String × Tree) → Option (List (String × Tree))) : Prop :=
  ∀ origin entries changed, SoundEntries entries → change origin entries = some changed →
    SoundEntries changed

/-- A change at the end of a path keeps the whole document sound. -/
theorem keepsSound_descend (created : Origin)
    {change : Origin → List (String × Tree) → Option (List (String × Tree))}
    (hchange : KeepsSound change) (path : List String) :
    KeepsSound (descend created change path) := by
  induction path with
  | nil => exact hchange
  | cons name path ih =>
    intro origin entries changed hsound hdescend
    rw [descend] at hdescend
    split at hdescend
    · obtain ⟨inner, hinner, rfl⟩ := Option.map_eq_some_iff.mp hdescend
      exact soundEntries_put hsound (ih created [] inner trivial hinner)
    · exact absurd hdescend (Option.some_ne_none _).symm
    · rename_i held inner hlookup
      split_ifs at hdescend
      obtain ⟨changedInner, hinner, rfl⟩ := Option.map_eq_some_iff.mp hdescend
      exact soundEntries_put hsound (ih _ _ _ (sound_of_lookup hsound hlookup) hinner)
    · exact absurd hdescend (Option.some_ne_none _).symm
    · obtain ⟨last, -, rfl⟩ := Option.map_eq_some_iff.mp hdescend
      exact soundEntries_put hsound trivial

theorem keepsSound_addValue (path : List String) (name : String) (htree : tree.Sound) :
    KeepsSound (addValue path name tree) := by
  refine keepsSound_descend _ (fun origin entries changed hsound hadd ↦ ?_) path
  split_ifs at hadd
  obtain rfl := Option.some.inj hadd
  exact soundEntries_put hsound htree

theorem keepsSound_addTable (path : List String) (name : String) :
    KeepsSound (addTable path name) := by
  refine keepsSound_descend _ (fun origin entries changed hsound hadd ↦ ?_) path
  split at hadd
  · obtain rfl := Option.some.inj hadd
    exact soundEntries_put hsound trivial
  · rename_i inner hlookup
    obtain rfl := Option.some.inj hadd
    have htree : Sound (.table .implied inner) := sound_of_lookup hsound hlookup
    exact soundEntries_put hsound htree
  · exact absurd hadd (Option.some_ne_none _).symm

theorem keepsSound_addItem (path : List String) (name : String) :
    KeepsSound (addItem path name) := by
  refine keepsSound_descend _ (fun origin entries changed hsound hadd ↦ ?_) path
  split at hadd
  · obtain rfl := Option.some.inj hadd
    exact soundEntries_put hsound trivial
  · obtain rfl := Option.some.inj hadd
    exact soundEntries_put hsound trivial
  · exact absurd hadd (Option.some_ne_none _).symm

end Tree

/-! ### Readers -/

namespace Reader

/-- Whatever a reader reads has a property. -/
def Gives {α : Type} (property : α → Prop) (reader : Reader α) : Prop :=
  ∀ cs value rest, reader cs = some (value, rest) → property value

variable {α β : Type} {property : α → Prop} {other : β → Prop}

theorem gives_refuse : Gives property refuse := fun _ _ _ hread ↦ by cases hread

theorem gives_pure {value : α} (hvalue : property value) : Gives property (pure value) := by
  rintro cs found rest hread
  obtain ⟨rfl, -⟩ := Prod.mk.inj (Option.some.inj hread)
  exact hvalue

theorem Gives.bind {first : Reader β} {next : β → Reader α} (hfirst : Gives other first)
    (hnext : ∀ value, other value → Gives property (next value)) :
    Gives property (first >>= next) := by
  intro cs value rest hread
  obtain ⟨⟨found, between⟩, hfound, hread⟩ := Option.bind_eq_some_iff.mp hread
  exact hnext found (hfirst cs found between hfound) between value rest hread

/-- What comes before the last reader does not matter if that gives the property in any case. -/
theorem gives_bind {first : Reader β} {next : β → Reader α}
    (hnext : ∀ value, Gives property (next value)) : Gives property (first >>= next) :=
  have hfirst : Gives (fun _ ↦ True) first := fun _ _ _ _ ↦ trivial
  hfirst.bind fun value _ ↦ hnext value

theorem gives_ite {condition : Prop} [Decidable condition] {first second : Reader α}
    (hfirst : Gives property first) (hsecond : Gives property second) :
    Gives property (if condition then first else second) := by
  split
  · exact hfirst
  · exact hsecond

theorem gives_either {first second : Reader α} (hfirst : Gives property first)
    (hsecond : Gives property second) : Gives property (either first second) := by
  intro cs value rest hread
  rcases Option.or_eq_some_iff.mp hread with hread | ⟨-, hread⟩
  · exact hfirst cs value rest hread
  · exact hsecond cs value rest hread

end Reader

open Reader

/-! ### Values -/

theorem orderly_time (text : String) : (Datum.table [(timeField, .text text)]).Orderly :=
  Datum.orderly_table_iff.mpr ⟨List.pairwise_singleton _ _, by simp [Datum.Orderly]⟩

theorem gives_integer : Gives Datum.Orderly integer := by
  have hbounded :
      ∀ negative base digits, Gives Datum.Orderly (boundedInteger negative base digits) :=
    fun negative base digits ↦ gives_ite (gives_pure trivial) gives_refuse
  refine gives_bind fun hex ↦ gives_ite (gives_bind (hbounded _ _)) ?_
  refine gives_bind fun octal ↦ gives_ite (gives_bind (hbounded _ _)) ?_
  refine gives_bind fun binary ↦ gives_ite (gives_bind (hbounded _ _)) ?_
  exact gives_bind fun negative ↦ gives_bind (hbounded _ _)

theorem gives_float : Gives Datum.Orderly float := by
  refine gives_bind fun negative ↦ gives_bind fun infinite ↦ gives_ite (gives_pure trivial) ?_
  refine gives_bind fun noNumber ↦ gives_ite (gives_pure trivial) ?_
  refine gives_bind fun whole ↦ gives_bind fun fraction ↦ ?_
  have hpower : ∀ (power : Option Int) (code : Nat), Gives Datum.Orderly
      (if code = Binary64.infiniteCode ∧ ¬negative then refuse
        else pure (.float ⟨negative, code⟩)) :=
    fun power code ↦ gives_ite gives_refuse (gives_pure trivial)
  exact gives_ite (gives_bind fun power ↦ hpower power _) (gives_bind fun power ↦ hpower power _)

theorem gives_scalar : Gives Datum.Orderly scalar := by
  have htime : Gives Datum.Orderly time := gives_bind fun _ ↦ gives_pure (orderly_time _)
  intro cs value rest hread
  unfold scalar at hread
  split at hread
  · exact gives_bind (fun _ ↦ gives_pure trivial) _ _ _ hread
  · exact gives_bind (fun _ ↦ gives_pure trivial) _ _ _ hread
  · exact gives_bind (fun _ ↦ gives_pure trivial) _ _ _ hread
  · exact gives_bind (fun _ ↦ gives_pure trivial) _ _ _ hread
  · exact gives_either htime (gives_either gives_float gives_integer) _ _ _ hread

/-- The readers of values give sound trees. The entries of a table within a line are added one after
another, and stay sound. -/
theorem gives_sound (bound depth : Nat) : Gives Tree.Sound (value bound depth) ∧
    (∀ read, Gives Tree.Sound (items bound depth read)) ∧
    ∀ read, Tree.SoundEntries read → Gives Tree.Sound (inlineEntries bound depth read) := by
  induction bound generalizing depth with
  | zero =>
    refine ⟨?_, fun read ↦ ?_, fun read _ ↦ ?_⟩
    · rw [value]
      exact gives_refuse
    · rw [items]
      exact gives_refuse
    · rw [inlineEntries]
      exact gives_refuse
  | succ bound ih =>
    refine ⟨?_, fun read ↦ ?_, fun read hread ↦ ?_⟩
    · obtain ⟨-, hitems, hentries⟩ := ih (depth - 1)
      have hempty : (Datum.table []).Orderly :=
        Datum.orderly_table_iff.mpr ⟨List.Pairwise.nil, by simp⟩
      rw [value]
      refine gives_bind fun cs ↦ ?_
      split
      · exact gives_ite (gives_bind fun _ ↦ gives_bind fun _ ↦ hitems _)
          (gives_bind fun _ ↦ hitems _)
      · have hinner : Gives Tree.Sound (do
            skipSpace
            if ← accept ['\x7d'] then return .leaf (.table [])
            inlineEntries bound (depth - 1) []) :=
          gives_bind fun _ ↦ gives_bind fun _ ↦ gives_ite (gives_pure hempty) (hentries [] trivial)
        exact gives_ite (gives_bind fun _ ↦ gives_bind fun _ ↦ hinner) (gives_bind fun _ ↦ hinner)
      · exact gives_scalar.bind fun _ hscalar ↦ gives_pure hscalar
    · obtain ⟨-, hitems, -⟩ := ih depth
      rw [items]
      refine gives_bind fun _ ↦ gives_bind fun _ ↦ gives_bind fun _ ↦
        gives_ite (gives_pure trivial) ?_
      refine gives_bind fun item ↦ gives_bind fun _ ↦ gives_bind fun _ ↦ gives_bind fun _ ↦ ?_
      exact gives_ite (hitems _) (gives_bind fun _ ↦ gives_pure trivial)
    · obtain ⟨hvalue, -, hentries⟩ := ih depth
      rw [inlineEntries]
      refine gives_bind fun (path, last) ↦ gives_bind fun _ ↦ gives_bind fun _ ↦
        gives_bind fun _ ↦ ?_
      refine hvalue.bind fun entry hentry ↦ gives_bind fun _ ↦ ?_
      split
      · exact gives_refuse
      · rename_i entries hadd
        have hsound := Tree.keepsSound_addValue path last hentry _ _ _ hread hadd
        refine gives_bind fun _ ↦ gives_ite (hentries entries hsound)
          (gives_bind fun _ ↦ gives_pure ?_)
        exact Tree.orderly_datum (.table .header entries) hsound

/-! ### Lines -/

/-- What was read so far is sound. -/
def Progress.Sound (progress : Progress) : Prop :=
  Tree.SoundEntries progress.entries

theorem gives_header {progress : Progress} (hsound : progress.Sound) :
    Gives Progress.Sound (header progress) := by
  refine gives_bind fun _ ↦ gives_bind fun isItem ↦ gives_bind fun (path, last) ↦ ?_
  refine gives_bind fun _ ↦ gives_bind fun _ ↦ ?_
  have hchange : Tree.KeepsSound ((if isItem then Tree.addItem else Tree.addTable) path last) := by
    cases isItem
    · exact Tree.keepsSound_addTable path last
    · exact Tree.keepsSound_addItem path last
  dsimp only
  cases hadd :
      (if isItem then Tree.addItem else Tree.addTable) path last .header progress.entries with
  | none => exact gives_refuse
  | some entries => exact gives_pure (hchange _ _ _ hsound hadd)

theorem gives_assignment {progress : Progress} (hsound : progress.Sound) :
    Gives Progress.Sound (assignment progress) := by
  refine gives_bind fun (path, last) ↦ gives_bind fun _ ↦ gives_bind fun _ ↦ gives_bind fun _ ↦ ?_
  refine gives_bind fun cs ↦ (gives_sound _ _).1.bind fun entry hentry ↦ ?_
  dsimp only
  split
  · rename_i entries hadd
    have hchange := Tree.keepsSound_addValue path last hentry
    exact gives_pure (Tree.keepsSound_descend .implied hchange progress.header _ _ _ hsound hadd)
  · exact gives_refuse

theorem gives_lines (bound : Nat) {progress : Progress} (hsound : progress.Sound) :
    Gives Progress.Sound (lines bound progress) := by
  induction bound generalizing progress with
  | zero =>
    rw [lines]
    exact gives_refuse
  | succ bound ih =>
    rw [lines]
    refine gives_bind fun _ ↦ gives_bind fun cs ↦ ?_
    -- Whatever a line is, only its end is read after it, and then the lines below.
    extract_lets goOn
    have hafter : ∀ after : Progress, after.Sound → Gives Progress.Sound (goOn after) := by
      intro after hsound
      refine gives_bind fun _ ↦ gives_bind fun _ ↦ gives_bind fun cs ↦ ?_
      split
      · exact gives_pure hsound
      · split
        · exact gives_bind fun _ ↦ ih hsound
        · exact gives_refuse
    split
    · exact (gives_pure hsound).bind hafter
    · exact (gives_pure hsound).bind hafter
    · exact (gives_pure hsound).bind hafter
    · exact (gives_pure hsound).bind hafter
    · exact (gives_header hsound).bind hafter
    · exact (gives_assignment hsound).bind hafter

/-- The tables of a document have their names in order, at any depth. -/
theorem orderly_parse? {text : String} {entries : List (String × Datum)}
    (hparse : parse? text = some entries) : (Datum.table entries).Orderly := by
  rw [parse?, Option.map_eq_some_iff] at hparse
  obtain ⟨⟨progress, rest⟩, hlines, rfl⟩ := hparse
  have hempty : Progress.Sound ⟨[], []⟩ := trivial
  exact Tree.orderly_entriesDatum progress.entries (gives_lines _ hempty _ _ _ hlines)

end Connectors.Toml
