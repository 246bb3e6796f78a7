import Connectors.Proofs.Binding.Comparison
import Connectors.Proofs.Binding.RoundTrip

/-!
# What shows of secrets

The value of a secret option is hidden from messages and logs. This is a statement about two
bindings: what is given for secret options differs, and what shows is to be the same.

Where the texts for secret options read as values of them, nothing shows of which values these are
(`bind_hides_secrets`). The reports are the same, and so is the refusal if there is one; otherwise
the diagnostic forms, the redacted properties and the values of the other options are the same. A
secret option that is read gets a value either way, and both renderings put the mark for secrets in
its place (`Bound.filterMap_presentAmong_congr`).
-/

set_option autoImplicit false
set_option relaxedAutoImplicit false

namespace Connectors

open Traversal (Alike Each)

/-! ### Renderings without secrets -/

namespace Bound

/-- Two places of an option show the same: both are filled or both are empty, and they hold the same
unless the option is secret. -/
def ShowsAlike (spec : OptionSpec) (slot slot' : Option OptionValue) : Prop :=
  slot.isSome = slot'.isSome ∧ (spec.secret = false → slot = slot')

theorem ShowsAlike.refl (spec : OptionSpec) (slot : Option OptionValue) :
    ShowsAlike spec slot slot :=
  ⟨rfl, fun _ ↦ rfl⟩

/-- A rendering of values that is the same for all values of a secret option does not tell apart
places that show the same. -/
theorem filterMap_presentAmong_congr {γ : Type} {rendering : OptionSpec × OptionValue → Option γ}
    (hsecret : ∀ spec value value', spec.secret = true →
      rendering (spec, value) = rendering (spec, value'))
    {options : List OptionSpec} {values values' : List (Option OptionValue)}
    (heach : Each ShowsAlike options values values') :
    (presentAmong options values).filterMap rendering =
      (presentAmong options values').filterMap rendering := by
  induction heach with
  | nil => rfl
  | @cons spec slot slot' options values values' hslot _ ih =>
    have hfirst : slot.toList.filterMap (fun value ↦ rendering (spec, value)) =
        slot'.toList.filterMap fun value ↦ rendering (spec, value) := by
      obtain ⟨hfilled, hsame⟩ := hslot
      by_cases hspec : spec.secret = true
      · match slot, slot', hfilled with
        | none, none, _ => rfl
        | some value, some value', _ =>
          simp only [Option.toList_some, List.filterMap_cons, hsecret spec value value' hspec]
      · rw [hsame (by simpa using hspec)]
    simp only [presentAmong_cons, List.filterMap_append, List.filterMap_map, Function.comp_def, ih,
      hfirst]

variable {bound bound' : Bound}

theorem describe_congr (hschema : bound.schema = bound'.schema)
    (heach : Each ShowsAlike bound.schema.options bound.values bound'.values) :
    bound.describe = bound'.describe := by
  unfold describe
  rw [present_eq, present_eq, ← hschema, ← List.filterMap_eq_map,
    filterMap_presentAmong_congr (fun spec value value' hsecret ↦ ?_) heach]
  simp [hsecret]

theorem redactedProperties_congr (hschema : bound.schema = bound'.schema)
    (heach : Each ShowsAlike bound.schema.options bound.values bound'.values) :
    bound.redactedProperties = bound'.redactedProperties := by
  unfold redactedProperties
  rw [present_eq, present_eq, ← hschema,
    filterMap_presentAmong_congr (fun spec value value' hsecret ↦ ?_) heach]
  simp [hsecret]

end Bound

namespace Binder

variable {binder : Binder} {component : String} {resolver : Resolver} {spec : OptionSpec}
variable {schema : Schema} {raw other : RawValues}

/-! ### Texts that read as values of secret options -/

/-- A value is given as a text that reads as one of an option. -/
def Readable (spec : OptionSpec) (value : RawValue) : Prop :=
  ∃ text read, value = .text text ∧ spec.kind.parse text = .ok read

/-- What is given under a key is the same, or the key leads to a secret option that is read from
text and both are texts that read as values of it. -/
def SecretsApart (schema : Schema) (key : String) (value value' : RawValue) : Prop :=
  value = value' ∨ ∃ spec ∈ schema.options, spec.secret = true ∧ spec.kind.isScalar = true ∧
    Key.agree key spec.name = true ∧ Readable spec value ∧ Readable spec value'

theorem Readable.coerce_eq_ok {value : RawValue} (hvalue : Readable spec value) :
    ∃ read, coerce component resolver spec value = .ok read := by
  obtain ⟨text, read, rfl, hparse⟩ := hvalue
  have hcoerces : Coerces component resolver spec (.text text) (.ok read) :=
    .text (OptionKind.ne_object_of_parse hparse) (.value hparse)
  exact ⟨read, (coerces_iff.mp hcoerces).symm⟩

/-- A single entry for an option of a schema, given twice with secrets apart, is taken both times
and shows the same, or has one outcome. -/
theorem coerce_secretsApart (hspec : spec ∈ schema.options) {entry entry' : String × RawValue}
    (hagree : Key.agree entry.1 spec.name = true)
    (hentry : RawValues.EntryRel (SecretsApart schema) entry entry') :
    Alike Eq (fun value value' ↦ Bound.ShowsAlike spec (some value) (some value'))
      (coerce component resolver spec entry.2) (coerce component resolver spec entry'.2) := by
  rcases hentry.2 with hsame | ⟨owner, howner, hsecret, -, hleads, hreadable, hreadable'⟩
  · rw [hsame]
    exact .refl (fun _ ↦ rfl) (fun value ↦ .refl spec (some value)) _
  · have hforms : Key.normal spec.name = Key.normal owner.name :=
      (Key.agree_iff.mp hagree).symm.trans (Key.agree_iff.mp hleads)
    obtain rfl : spec = owner := schema.eq_of_normal_eq hspec howner hforms
    obtain ⟨value, hvalue⟩ : ∃ value, coerce component resolver spec entry.2 = .ok value :=
      hreadable.coerce_eq_ok
    obtain ⟨value', hvalue'⟩ : ∃ value, coerce component resolver spec entry'.2 = .ok value :=
      hreadable'.coerce_eq_ok
    rw [hvalue, hvalue']
    exact .ok ⟨rfl, fun hplain ↦ by simp [hsecret] at hplain⟩

/-- An option of a schema shows the same whichever of two maps with secrets apart it is resolved
from, or is refused for the same reason. -/
theorem resolved_secretsApart (hspec : spec ∈ schema.options)
    (haligned : List.Forall₂ (RawValues.EntryRel (SecretsApart schema)) raw other) :
    Alike Eq (Bound.ShowsAlike spec) (binder.resolved component resolver raw spec)
      (binder.resolved component resolver other spec) := by
  have hentries := entriesOf_aligned haligned spec
  have hkeys := RawValues.map_fst_eq hentries
  have hagree : ∀ entry ∈ entriesOf raw spec, Key.agree entry.1 spec.name = true := fun _ hentry ↦
    (List.mem_filter.mp hentry).2
  refine resolve_alike ((List.forall₂_and_left _ _).mpr ⟨hagree, hentries⟩) (fun _ ↦ rfl)
    (Bound.ShowsAlike.refl spec) (fun entry entry' hentry ↦ ?_) (by rw [hkeys])
  exact coerce_secretsApart hspec hentry.1 hentry.2

/-- Nothing shows of the values of secret options. Let two maps of raw values have the same keys and
differ only in texts for secret options, all of which read as values of these. Then both are bound
with the same reports, and either refused for the same reason or bound to configurations with the
same diagnostic form, the same redacted properties and the same values of all options that are not
secret. -/
theorem bind_hides_secrets (hraw : raw.Distinct) (hother : other.Distinct)
    (hapart : raw.Alongside (SecretsApart schema) other) :
    (binder.bind schema raw resolver).events = (binder.bind schema other resolver).events ∧
      ((∃ error, (binder.bind schema raw resolver).value = .error error ∧
          (binder.bind schema other resolver).value = .error error) ∨
        ∃ bound bound', (binder.bind schema raw resolver).value = .ok bound ∧
          (binder.bind schema other resolver).value = .ok bound' ∧
          bound.describe = bound'.describe ∧
          bound.redactedProperties = bound'.redactedProperties ∧
          ∀ (index : Nat) (spec : OptionSpec), schema.options[index]? = some spec →
            spec.secret = false → bound.values[index]? = bound'.values[index]?) := by
  obtain ⟨aligned, hperm, haligned⟩ := RawValues.exists_aligned hraw hother hapart
  rw [← bind_perm hperm]
  have hvalues : ∀ spec ∈ schema.options, Alike Eq (Bound.ShowsAlike spec)
      (binder.resolved schema.id resolver raw spec)
      (binder.resolved schema.id resolver aligned spec) := fun spec hspec ↦
    resolved_secretsApart hspec haligned
  obtain ⟨hevents, halike⟩ := bind_alike_of_aligned haligned (fun _ ↦ rfl) hvalues
  refine ⟨hevents, ?_⟩
  generalize (binder.bind schema raw resolver).value = outcome at halike
  generalize (binder.bind schema aligned resolver).value = outcome' at halike
  cases halike with
  | @error error _ herror => exact .inl ⟨error, rfl, by rw [herror]⟩
  | @ok bound bound' hbound =>
    obtain ⟨hschema, hschema', heach⟩ := hbound
    have hsame : bound.schema = bound'.schema := hschema.trans hschema'.symm
    have hplaces : Each Bound.ShowsAlike bound.schema.options bound.values bound'.values :=
      hschema ▸ heach
    refine .inr ⟨bound, bound', rfl, rfl, Bound.describe_congr hsame hplaces,
      Bound.redactedProperties_congr hsame hplaces, fun index spec hspec hplain ↦ ?_⟩
    obtain ⟨slot, slot', hslot, hslot', hshows⟩ := heach.getElem? hspec
    rw [hslot, hslot', hshows.2 hplain]

/-- A component with secrets of several kinds. -/
def vault : Schema where
  id := "vault"
  options := [{ name := "pin", kind := .int, secret := true, deprecated := true },
    { name := "mode", kind := .enum ["OPEN", "SEALED"], secret := true },
    { name := "key", kind := .object "Key", secret := true },
    { name := "note", kind := .string }]
  indexed := by decide +kernel

/-- Two pins, which are bound to different configurations that show the same, and are reported in
the same words as values for a deprecated option. -/
theorem bind_hides_secrets_vault :
    let raw : RawValues := [("note", .text "n"), ("p.in", .text "1234"), ("stray", .text "s")]
    let other : RawValues := [("note", .text "n"), ("p.in", .text "-7"), ("stray", .text "s")]
    let binder : Binder := {}
    let bound (pin : Int) : Bound :=
      ⟨vault, [some (.int pin), none, none, some (.string "n")]⟩
    raw.Distinct ∧ other.Distinct ∧ raw.Alongside (SecretsApart vault) other ∧
      (binder.bind vault raw .none).value = .ok (bound 1234) ∧
      (binder.bind vault other .none).value = .ok (bound (-7)) ∧
      (binder.bind vault raw .none).events = (binder.bind vault other .none).events ∧
      (bound 1234).describe = (bound (-7)).describe ∧
      (bound 1234).redactedProperties = (bound (-7)).redactedProperties := by
  intro raw other binder bound
  have hraw : raw.Distinct := by decide
  have hother : other.Distinct := by decide
  have hapart : raw.Alongside (SecretsApart vault) other := by
    refine RawValues.alongside_of_aligned (.cons ⟨rfl, .inl rfl⟩ (.cons ⟨rfl, .inr ?_⟩
      (.cons ⟨rfl, .inl rfl⟩ .nil)))
    refine ⟨_, List.mem_cons_self, rfl, rfl, by decide +kernel, ?_, ?_⟩
    · exact ⟨"1234", .int 1234, rfl, by decide +kernel⟩
    · exact ⟨"-7", .int (-7), rfl, by decide +kernel⟩
  have hbind : (binder.bind vault raw .none).value = .ok (bound 1234) := by decide +kernel
  have hbind' : (binder.bind vault other .none).value = .ok (bound (-7)) := by decide +kernel
  obtain ⟨hevents, ⟨error, hrefused, -⟩ | ⟨first, second, hfirst, hsecond, hshown, hredacted, -⟩⟩ :=
    @bind_hides_secrets binder .none vault raw other hraw hother hapart
  · exact absurd (hbind.symm.trans hrefused) (by simp)
  · obtain rfl := Except.ok.inj (hbind.symm.trans hfirst)
    obtain rfl := Except.ok.inj (hbind'.symm.trans hsecond)
    exact ⟨hraw, hother, hapart, hbind, hbind', hevents, hshown, hredacted⟩

end Binder

end Connectors
