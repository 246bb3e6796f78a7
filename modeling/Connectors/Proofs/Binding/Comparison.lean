import Connectors.Proofs.Binding.Reference
import Connectors.Proofs.Fields

/-!
# Two bindings side by side

Some properties of binding are about two bindings: what is given differs in one respect and what
comes out is to be compared. Binding sees the raw values only through the entries that lead to each
option and through the keys that lead nowhere, so a comparison is made option by option.

Where the options resolve in the same way, the answers and the reports are the same (`bind_congr`),
which covers raw values in another order (`bind_perm`). Where each option resolves to alike
outcomes, the answers are alike, place by place (`bind_alike`), and where they report the same
besides, the reports are the same (`bind_events_congr`).

Raw values are a map: no key stands twice, and a key is looked up. Two maps with the same keys can
be put in one order, so that entries under the same key stand at the same place
(`RawValues.exists_aligned`). Between such maps it is enough to compare the options, since the same
keys lead nowhere (`bind_alike_of_aligned`).
-/

set_option autoImplicit false
set_option relaxedAutoImplicit false

namespace Connectors

open Traversal (Alike Each)

/-! ### Raw values as a map -/

namespace RawValues

/-- No key stands twice. -/
def Distinct (raw : RawValues) : Prop :=
  (raw.map (·.1)).Nodup

instance (raw : RawValues) : Decidable raw.Distinct :=
  inferInstanceAs (Decidable (raw.map (·.1)).Nodup)

/-- Two maps have the same keys, with values under each key that are related. -/
def Alongside (rel : String → RawValue → RawValue → Prop) (raw other : RawValues) : Prop :=
  ∀ key, Option.Rel (rel key) (raw.lookup key) (other.lookup key)

/-- Entries stand under the same key and have values that are related. -/
def EntryRel (rel : String → RawValue → RawValue → Prop) (entry other : String × RawValue) : Prop :=
  entry.1 = other.1 ∧ rel entry.1 entry.2 other.2

/-- The entries of a map with the same keys can be put in the order of the first. -/
theorem exists_aligned {rel : String → RawValue → RawValue → Prop} {raw other : RawValues}
    (hraw : raw.Distinct) (hother : other.Distinct) (halong : Alongside rel raw other) :
    ∃ aligned : RawValues, aligned.Perm other ∧ List.Forall₂ (EntryRel rel) raw aligned := by
  have hpartner : ∀ entry ∈ raw, ∃ value,
      other.lookup entry.1 = some value ∧ rel entry.1 entry.2 value := by
    intro entry hentry
    have hlookup : raw.lookup entry.1 = some entry.2 := (lookup_eq_some_iff_mem hraw).mpr hentry
    have hrel := halong entry.1
    rw [hlookup] at hrel
    generalize other.lookup entry.1 = found at hrel
    cases hrel with
    | some hvalue => exact ⟨_, rfl, hvalue⟩
  let align (entry : String × RawValue) : String × RawValue :=
    (entry.1, (other.lookup entry.1).getD entry.2)
  have hkeys : (raw.map align).map (·.1) = raw.map (·.1) := by
    simp [align, Function.comp_def]
  refine ⟨raw.map align, ?_, ?_⟩
  · have haligned : (raw.map align).Nodup := List.Nodup.of_map (·.1) (hkeys ▸ hraw)
    refine (List.perm_ext_iff_of_nodup haligned (List.Nodup.of_map Prod.fst hother)).mpr ?_
    rintro ⟨key, value⟩
    constructor
    · intro hmem
      obtain ⟨entry, hentry, halign⟩ := List.mem_map.mp hmem
      obtain ⟨found, hfound, -⟩ := hpartner entry hentry
      simp only [align, hfound, Option.getD_some, Prod.mk.injEq] at halign
      obtain ⟨rfl, rfl⟩ := halign
      exact (lookup_eq_some_iff_mem hother).mp hfound
    · intro hmem
      have hfound := (lookup_eq_some_iff_mem hother).mpr hmem
      have hrel := halong key
      rw [hfound] at hrel
      generalize hlookup : raw.lookup key = held at hrel
      cases hrel with
      | @some first _ _ =>
        refine List.mem_map.mpr ⟨(key, first), (lookup_eq_some_iff_mem hraw).mp hlookup, ?_⟩
        simp [align, hfound]
  · rw [List.forall₂_map_right_iff, List.forall₂_same]
    intro entry hentry
    obtain ⟨found, hfound, hrel⟩ := hpartner entry hentry
    exact ⟨rfl, by simpa [align, hfound] using hrel⟩

theorem alongside_of_aligned {rel : String → RawValue → RawValue → Prop} {raw other : RawValues}
    (haligned : List.Forall₂ (EntryRel rel) raw other) : raw.Alongside rel other := by
  intro key
  induction haligned with
  | nil => exact .none
  | @cons entry entry' _ _ hentry _ ih =>
    rw [List.lookup_cons, List.lookup_cons, ← hentry.1]
    by_cases hkey : key = entry.1
    · simpa [hkey] using Option.Rel.some hentry.2
    · have hbeq : (key == entry.1) = false := by simpa using hkey
      simpa [hbeq] using ih

/-- Maps that are aligned have the same keys in the same order. -/
theorem map_fst_eq {rel : String → RawValue → RawValue → Prop} {raw other : RawValues}
    (haligned : List.Forall₂ (EntryRel rel) raw other) : raw.map (·.1) = other.map (·.1) := by
  induction haligned with
  | nil => rfl
  | cons hentry _ ih => rw [List.map_cons, List.map_cons, ih, hentry.1]

end RawValues

namespace Binder

variable {binder : Binder} {component : String} {resolver : Resolver} {spec : OptionSpec}
variable {schema : Schema} {raw other : RawValues}

/-! ### One option -/

/-- Where entries at the same place have keys of one normal form, so do those that lead to an
option. -/
theorem entriesOf_forall₂ {R : String × RawValue → String × RawValue → Prop}
    (hnormal : ∀ entry entry', R entry entry' → Key.normal entry.1 = Key.normal entry'.1)
    (hraw : List.Forall₂ R raw other) (spec : OptionSpec) :
    List.Forall₂ R (entriesOf raw spec) (entriesOf other spec) := by
  refine List.rel_filter (fun entry entry' hentry ↦ ?_) hraw
  show Key.agree entry.1 spec.name = true ↔ Key.agree entry'.1 spec.name = true
  rw [Key.agree_iff, Key.agree_iff, hnormal entry entry' hentry]

/-- Of aligned maps the entries that lead to an option are aligned. -/
theorem entriesOf_aligned {rel : String → RawValue → RawValue → Prop}
    (haligned : List.Forall₂ (RawValues.EntryRel rel) raw other) (spec : OptionSpec) :
    List.Forall₂ (RawValues.EntryRel rel) (entriesOf raw spec) (entriesOf other spec) :=
  entriesOf_forall₂ (fun _ _ hentry ↦ congrArg Key.normal hentry.1) haligned spec

/-- The values of options that resolve from as many entries are alike if they are for a single
entry, and if the refusals of several entries are. -/
theorem resolve_alike {E : BindError → BindError → Prop}
    {V : Option OptionValue → Option OptionValue → Prop} {entries others : RawValues}
    {R : String × RawValue → String × RawValue → Prop} (hentries : List.Forall₂ R entries others)
    (herror : ∀ error, E error error) (hslot : ∀ slot, V slot slot)
    (hone : ∀ entry other, R entry other → Alike E (fun value value' ↦ V (some value) (some value'))
      (coerce component resolver spec entry.2) (coerce component resolver spec other.2))
    (hseveral : E (.conflictingKeys component spec.name ((entries.map (·.1)).mergeSort (· ≤ ·)))
      (.conflictingKeys component spec.name ((others.map (·.1)).mergeSort (· ≤ ·)))) :
    Alike E V (binder.resolve component resolver spec entries).value
      (binder.resolve component resolver spec others).value := by
  cases hentries with
  | nil => exact .refl herror hslot _
  | @cons entry other _ _ hfirst hrest =>
    cases hrest with
    | nil => exact (hone entry other hfirst).map fun _ _ hvalue ↦ hvalue
    | cons => exact .error hseveral

/-- What an option reports depends on the keys that lead to it. -/
theorem resolve_events_congr {entries others : RawValues}
    (hkeys : entries.map (·.1) = others.map (·.1)) :
    (binder.resolve component resolver spec entries).events =
      (binder.resolve component resolver spec others).events := by
  match entries, others with
  | [], [] => rfl
  | [(key, _)], [(_, _)] =>
    obtain rfl : key = _ := by simpa using hkeys
    rfl
  | _ :: _ :: _, _ :: _ :: _ => rfl

/-! ### All options -/

/-- Options that report the same and resolve to alike outcomes report the same up to the first that
is refused. -/
theorem reports_congr {E : BindError → BindError → Prop}
    {V : OptionSpec → Option OptionValue → Option OptionValue → Prop}
    {first second : OptionSpec → Logged (Except BindError (Option OptionValue))}
    {options : List OptionSpec}
    (hevents : ∀ spec ∈ options, (first spec).events = (second spec).events)
    (hvalues : ∀ spec ∈ options, Alike E (V spec) (first spec).value (second spec).value) :
    reports first options = reports second options := by
  induction options with
  | nil => rfl
  | cons spec rest ih =>
    obtain ⟨hevent, hevents⟩ := List.forall_mem_cons.mp hevents
    obtain ⟨hvalue, hvalues⟩ := List.forall_mem_cons.mp hvalues
    simp only [reports, hevent, ih hevents hvalues]
    generalize (first spec).value = outcome at hvalue
    generalize (second spec).value = outcome' at hvalue
    cases hvalue <;> rfl

/-- Bindings whose options report the same and resolve to alike outcomes report the same. -/
theorem bind_events_congr {E : BindError → BindError → Prop}
    {V : OptionSpec → Option OptionValue → Option OptionValue → Prop}
    (hkeys : ∀ spec ∈ schema.options,
      (entriesOf raw spec).map (·.1) = (entriesOf other spec).map (·.1))
    (hvalues : ∀ spec ∈ schema.options, Alike E (V spec)
      (binder.resolved schema.id resolver raw spec)
      (binder.resolved schema.id resolver other spec)) :
    (binder.bind schema raw resolver).events = (binder.bind schema other resolver).events := by
  rw [bind_events, bind_events]
  exact reports_congr (fun spec hspec ↦ resolve_events_congr (hkeys spec hspec)) hvalues

/-- Bindings whose options resolve to alike outcomes, and whose first stray keys are refused alike,
have alike answers. -/
theorem bind_alike {E : BindError → BindError → Prop}
    {V : OptionSpec → Option OptionValue → Option OptionValue → Prop}
    (hvalues : ∀ spec ∈ schema.options, Alike E (V spec)
      (binder.resolved schema.id resolver raw spec) (binder.resolved schema.id resolver other spec))
    (hstray : Option.Rel (fun key key' ↦
      E (.unknownOption schema.id key) (.unknownOption schema.id key'))
      (strayKeys schema raw).head? (strayKeys schema other).head?) :
    Alike E (fun bound bound' ↦ bound.schema = schema ∧ bound'.schema = schema ∧
        Each V schema.options bound.values bound'.values)
      (binder.bind schema raw resolver).value (binder.bind schema other resolver).value := by
  rw [bind_value, bind_value]
  have hall := Traversal.mapM_alike hvalues
  generalize schema.options.mapM (binder.resolved schema.id resolver raw) = outcome at hall
  generalize schema.options.mapM (binder.resolved schema.id resolver other) = outcome' at hall
  cases hall with
  | error herror => exact .error herror
  | ok heach =>
    simp only [Except.bind]
    cases binder.unknownKeys with
    | lenient => exact .ok ⟨rfl, rfl, heach⟩
    | strict =>
      generalize strayKeys schema raw = stray at hstray
      generalize strayKeys schema other = stray' at hstray
      match stray, stray', hstray with
      | [], [], _ => exact .ok ⟨rfl, rfl, heach⟩
      | _ :: _, _ :: _, .some herror => exact .error herror

/-- Keys in another order leave the same keys stray. -/
theorem strayKeys_congr (hkeys : (raw.map (·.1)).Perm (other.map (·.1))) :
    strayKeys schema raw = strayKeys schema other :=
  mergeSort_eq_of_perm (hkeys.filter _)

/-- Bindings of aligned maps report the same and have alike answers if each option resolves to alike
outcomes. The keys are the same, so those that lead nowhere are refused in the same words. -/
theorem bind_alike_of_aligned {rel : String → RawValue → RawValue → Prop}
    {E : BindError → BindError → Prop}
    {V : OptionSpec → Option OptionValue → Option OptionValue → Prop}
    (haligned : List.Forall₂ (RawValues.EntryRel rel) raw other) (herror : ∀ error, E error error)
    (hvalues : ∀ spec ∈ schema.options, Alike E (V spec)
      (binder.resolved schema.id resolver raw spec)
      (binder.resolved schema.id resolver other spec)) :
    (binder.bind schema raw resolver).events = (binder.bind schema other resolver).events ∧
      Alike E (fun bound bound' ↦ bound.schema = schema ∧ bound'.schema = schema ∧
          Each V schema.options bound.values bound'.values)
        (binder.bind schema raw resolver).value (binder.bind schema other resolver).value := by
  constructor
  · exact bind_events_congr (fun spec _ ↦ RawValues.map_fst_eq (entriesOf_aligned haligned spec))
      hvalues
  · apply bind_alike hvalues
    rw [strayKeys_congr (List.Perm.of_eq (RawValues.map_fst_eq haligned))]
    cases (strayKeys schema other).head? with
    | none => exact .none
    | some key => exact .some (herror (.unknownOption schema.id key))

/-- Bindings whose options resolve in the same way, with the same stray keys, are the same. -/
theorem bind_congr {resolver' : Resolver}
    (hresolve : ∀ spec ∈ schema.options,
      binder.resolve schema.id resolver spec (entriesOf raw spec) =
        binder.resolve schema.id resolver' spec (entriesOf other spec))
    (hstray : strayKeys schema raw = strayKeys schema other) :
    binder.bind schema raw resolver = binder.bind schema other resolver' := by
  have hvalue : (binder.bind schema raw resolver).value =
      (binder.bind schema other resolver').value := by
    rw [bind_value, bind_value, hstray]
    congr 1
    exact Traversal.mapM_congr fun spec hspec ↦ congrArg Logged.value (hresolve spec hspec)
  have hevents : (binder.bind schema raw resolver).events =
      (binder.bind schema other resolver').events := by
    rw [bind_events, bind_events]
    refine reports_congr (E := Eq) (V := fun _ ↦ Eq) (fun spec hspec ↦ ?_) fun spec hspec ↦ ?_
    · rw [hresolve spec hspec]
    · rw [hresolve spec hspec]
      exact .refl (fun _ ↦ rfl) (fun _ ↦ rfl) _
  calc binder.bind schema raw resolver
      = ⟨(binder.bind schema other resolver').events,
          (binder.bind schema other resolver').value⟩ := by rw [← hevents, ← hvalue]
    _ = binder.bind schema other resolver' := rfl

/-- Raw values in another order are bound to the same answer, with the same reports. -/
theorem bind_perm (hraw : raw.Perm other) :
    binder.bind schema raw resolver = binder.bind schema other resolver :=
  bind_congr (fun _ _ ↦ resolve_perm (hraw.filter _)) (strayKeys_congr (hraw.map _))

end Binder

end Connectors
