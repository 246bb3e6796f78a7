import Connectors.Proofs.Binding.Secrecy

/-!
# What a refusal says of a secret

A refusal quotes what was given: the text that does not read, the constant that is not allowed, the
name that leads to no object. For a secret option that is read from text it quotes the mark for
secrets instead, so two texts that are both refused are refused in the same words
(`ReadsText.eq_of_secret`).

An option that holds an object does not know the mark, and neither does a later reader of a
constant (`Bound.parseEnum`). What holds of every secret option is that refusals of one variant
differ at most in what they quote (`refusals_of_secret`); that they do differ there, for a reference
and for a constant, is shown at the schema `vault` (`secret_quoted`).

A refusal of a binding names the option it is about (`BindError.option?`), and is what this option
resolves to (`resolved_of_refused`), so that two refusals are compared at the option itself.
-/

set_option autoImplicit false
set_option relaxedAutoImplicit false

namespace Connectors

/-! ### What an error is about and what it quotes -/

namespace BindError

/-- The option that an error is about. -/
def option? : BindError → Option String
  | missingRequired _ option => some option
  | typeCoercion _ option _ _ => some option
  | invalidEnumValue _ option _ _ => some option
  | unknownOption _ _ => none
  | unresolvedReference _ option _ => some option
  | conflictingKeys _ option _ => some option

/-- The error with the mark for secrets in place of the value or the name that it quotes. -/
def withoutValue : BindError → BindError
  | typeCoercion component option _ expected => .typeCoercion component option redacted expected
  | invalidEnumValue component option _ allowed =>
    .invalidEnumValue component option redacted allowed
  | unresolvedReference component option _ => .unresolvedReference component option redacted
  | error => error

end BindError

/-- Refusals of a reading under one schema differ at most in the constant that they quote. -/
theorem Bound.parseEnum_withoutValue {α : Type} {read : String → Option α} {bound bound' : Bound}
    {name : String} {error error' : BindError} (hschema : bound.schema = bound'.schema)
    (herror : bound.parseEnum read name = .error error)
    (herror' : bound'.parseEnum read name = .error error') :
    error.withoutValue = error'.withoutValue := by
  unfold parseEnum component at herror herror'
  rw [hschema] at herror
  generalize bound.enum? name = held at herror
  generalize bound'.enum? name = held' at herror'
  cases held with
  | none => cases herror
  | some constant =>
    cases held' with
    | none => cases herror'
    | some constant' =>
      cases hread : read constant with
      | some value => simp [hread] at herror
      | none =>
        cases hread' : read constant' with
        | some value => simp [hread'] at herror'
        | none =>
          simp only [hread, Except.error.injEq] at herror
          simp only [hread', Except.error.injEq] at herror'
          rw [← herror, ← herror']
          rfl

namespace Binder

variable {binder : Binder} {component : String} {resolver : Resolver} {spec : OptionSpec}
variable {schema : Schema} {raw other : RawValues}

/-- What is given under a key is the same, or the key leads to the option and both are texts. -/
def TextApart (spec : OptionSpec) (key : String) (value value' : RawValue) : Prop :=
  value = value' ∨ Key.agree key spec.name = true ∧
    ∃ text text', value = .text text ∧ value' = .text text'

/-- Two bindings that are refused for one option by errors of one variant are refused by errors that
agree, if what is given differs in the text for that option only. -/
def RefusalsAgree (agree : BindError → BindError → Prop) (binder : Binder) (schema : Schema)
    (resolver : Resolver) (spec : OptionSpec) : Prop :=
  ∀ raw other : RawValues, raw.Distinct → other.Distinct → raw.Alongside (TextApart spec) other →
    ∀ error error', (binder.bind schema raw resolver).value = .error error →
      (binder.bind schema other resolver).value = .error error' →
      error.option? = some spec.name → error'.option? = some spec.name →
      error.ctorIdx = error'.ctorIdx → agree error error'

/-- Two bindings that succeed have constants of an option refused by errors that agree, if what is
given differs in the text for that option only. -/
def ReadingsAgree (agree : BindError → BindError → Prop) (binder : Binder) (schema : Schema)
    (resolver : Resolver) (spec : OptionSpec) : Prop :=
  ∀ raw other : RawValues, raw.Distinct → other.Distinct → raw.Alongside (TextApart spec) other →
    ∀ bound bound', (binder.bind schema raw resolver).value = .ok bound →
      (binder.bind schema other resolver).value = .ok bound' →
      ∀ (α : Type) (read : String → Option α) (name : String), Key.agree name spec.name = true →
        ∀ error error', bound.parseEnum read name = .error error →
          bound'.parseEnum read name = .error error' → agree error error'

/-! ### Which option is refused -/

theorem ReadsText.option?_eq {text : String} {error : BindError}
    (hread : ReadsText component spec text (.error error)) : error.option? = some spec.name := by
  cases hread <;> rfl

theorem TakesObject.option?_eq {reference : ObjectRef} {error : BindError}
    (htake : TakesObject component spec reference (.error error)) :
    error.option? = some spec.name := by
  cases htake
  rfl

theorem Coerces.option?_eq {value : RawValue} {error : BindError}
    (hcoerces : Coerces component resolver spec value (.error error)) :
    error.option? = some spec.name := by
  cases hcoerces with
  | text _ hread => exact hread.option?_eq
  | unresolved => rfl
  | named _ _ htake => exact htake.option?_eq
  | object htake => exact htake.option?_eq

/-- What is refused when an option is resolved is that option. -/
theorem Resolves.option?_eq {entries : RawValues} {error : BindError}
    (hresolves : binder.Resolves component resolver spec entries (.error error)) :
    error.option? = some spec.name := by
  rcases hresolves.of_error with ⟨text, hread⟩ | rfl | ⟨key, raw, -, hcoerces⟩ | ⟨-, keys, rfl⟩
  · exact hread.option?_eq
  · rfl
  · exact hcoerces.option?_eq
  · rfl

/-- A binding that is refused for an option is refused by what the option resolves to. -/
theorem resolved_of_refused (hspec : spec ∈ schema.options) {error : BindError}
    (hbind : (binder.bind schema raw resolver).value = .error error)
    (hoption : error.option? = some spec.name) :
    binder.resolved schema.id resolver raw spec = .error error := by
  cases (bind_value_eq_iff schema raw _).mp hbind with
  | @refused before after refused _ hoptions _ hrefused =>
    have hmem : refused ∈ schema.options := by simp [hoptions]
    have hname : refused.name = spec.name :=
      Option.some.inj (hrefused.option?_eq.symm.trans hoption)
    obtain rfl := schema.eq_of_normal_eq hmem hspec (congrArg Key.normal hname)
    exact (resolves_iff.mp hrefused).symm
  | unknown => cases hoption

/-! ### What the refusal says -/

/-- Refusals of an option differ at most in what they quote, and not at all if the option is read
from text. -/
structure QuoteApart (spec : OptionSpec) (error error' : BindError) : Prop where
  withoutValue : error.withoutValue = error'.withoutValue
  scalar : spec.kind.isScalar = true → error = error'

theorem QuoteApart.refl (spec : OptionSpec) (error : BindError) : QuoteApart spec error error :=
  ⟨rfl, fun _ ↦ rfl⟩

/-- The refusals of two texts by a secret option that is read from text are the same. -/
theorem ReadsText.eq_of_secret (hsecret : spec.secret = true) {text text' : String}
    {error error' : BindError} (hread : ReadsText component spec text (.error error))
    (hread' : ReadsText component spec text' (.error error')) : error = error' := by
  have hshown : ∀ text, shown spec text = redacted := fun text ↦ by simp [shown, hsecret]
  cases hread with
  | notAllowed hkind _ =>
    cases hread' with
    | notAllowed hkind' _ =>
      obtain rfl := OptionKind.enum.inj (hkind.symm.trans hkind')
      rw [hshown, hshown]
    | malformed hkind' _ => exact absurd hkind (hkind' _)
  | malformed hkind _ =>
    cases hread' with
    | notAllowed hkind' _ => exact absurd hkind' (hkind _)
    | malformed _ _ => rw [hshown, hshown]

/-- A secret option that holds an object quotes a name that leads nowhere and the type of an object
that does not fit; with other texts these are other quotes. -/
theorem Coerces.quoteApart (hsecret : spec.secret = true) {text text' : String}
    {error error' : BindError}
    (hcoerces : Coerces component resolver spec (.text text) (.error error))
    (hcoerces' : Coerces component resolver spec (.text text') (.error error'))
    (hvariant : error.ctorIdx = error'.ctorIdx) : QuoteApart spec error error' := by
  have hobject : ∀ {typeName}, spec.kind = .object typeName → ¬ spec.kind.isScalar = true := by
    intro typeName hkind
    simp [hkind, OptionKind.isScalar]
  cases hcoerces with
  | text hkind hread =>
    cases hcoerces' with
    | text _ hread' =>
      obtain rfl := hread.eq_of_secret hsecret hread'
      exact .refl spec error
    | unresolved hkind' _ => exact absurd hkind' (hkind _)
    | named hkind' _ _ => exact absurd hkind' (hkind _)
  | unresolved hkind _ =>
    cases hcoerces' with
    | text hkind' _ => exact absurd hkind (hkind' _)
    | unresolved _ _ => exact ⟨rfl, fun hscalar ↦ absurd hscalar (hobject hkind)⟩
    | named _ _ htake' =>
      cases htake'
      cases hvariant
  | named hkind _ htake =>
    cases htake
    cases hcoerces' with
    | text hkind' _ => exact absurd hkind (hkind' _)
    | unresolved _ _ => cases hvariant
    | named _ _ htake' =>
      cases htake'
      exact ⟨rfl, fun hscalar ↦ absurd hscalar (hobject hkind)⟩

/-- What a secret option resolves to from two maps that differ in the text for it. -/
theorem resolved_quoteApart (hsecret : spec.secret = true)
    (haligned : List.Forall₂ (RawValues.EntryRel (TextApart spec)) raw other)
    {error error' : BindError}
    (hresolved : binder.resolved component resolver raw spec = .error error)
    (hresolved' : binder.resolved component resolver other spec = .error error')
    (hvariant : error.ctorIdx = error'.ctorIdx) : QuoteApart spec error error' := by
  have hentries := entriesOf_aligned haligned spec
  have hkeys := RawValues.map_fst_eq hentries
  have hsame : error = error' → QuoteApart spec error error' := fun heq ↦ heq ▸ .refl spec error
  unfold resolved at hresolved hresolved'
  generalize entriesOf raw spec = entries at hentries hkeys hresolved
  generalize entriesOf other spec = others at hentries hkeys hresolved'
  cases hentries with
  | nil => exact hsame (Except.error.inj (hresolved.symm.trans hresolved'))
  | @cons entry entry' _ _ hentry hrest =>
    cases hrest with
    | nil =>
      have hcoerce := coerce_eq_error hresolved
      have hcoerce' := coerce_eq_error hresolved'
      rcases hentry.2 with hvalue | ⟨-, text, text', htext, htext'⟩
      · rw [hvalue] at hcoerce
        exact hsame (Except.error.inj (hcoerce.symm.trans hcoerce'))
      · rw [htext] at hcoerce
        rw [htext'] at hcoerce'
        exact (coerces_iff.mpr hcoerce.symm).quoteApart hsecret
          (coerces_iff.mpr hcoerce'.symm) hvariant
    | cons =>
      simp only [resolve, Except.error.injEq] at hresolved hresolved'
      exact hsame (by rw [← hresolved, ← hresolved', hkeys])

/-! ### What bindings say -/

theorem RefusalsAgree.imp {agree agree' : BindError → BindError → Prop}
    (hagree : RefusalsAgree agree binder schema resolver spec)
    (himp : ∀ error error', agree error error' → agree' error error') :
    RefusalsAgree agree' binder schema resolver spec :=
  fun raw other hraw hother hapart error error' hbind hbind' hoption hoption' hvariant ↦
    himp error error'
      (hagree raw other hraw hother hapart error error' hbind hbind' hoption hoption' hvariant)

theorem refusalsAgree_quoteApart (hspec : spec ∈ schema.options) (hsecret : spec.secret = true) :
    RefusalsAgree (QuoteApart spec) binder schema resolver spec := by
  intro raw other hraw hother hapart error error' hbind hbind' hoption hoption' hvariant
  obtain ⟨aligned, hperm, haligned⟩ := RawValues.exists_aligned hraw hother hapart
  rw [← bind_perm hperm] at hbind'
  exact resolved_quoteApart hsecret haligned (resolved_of_refused hspec hbind hoption)
    (resolved_of_refused hspec hbind' hoption') hvariant

/-- What refusals say of the text for a secret option. If the option is read from text, they say
nothing of it. Whatever the option holds, refusals of one variant differ at most in what they quote,
and so do the refusals of a constant by a later reader. -/
theorem refusals_of_secret (hspec : spec ∈ schema.options) (hsecret : spec.secret = true) :
    (spec.kind.isScalar = true → RefusalsAgree Eq binder schema resolver spec) ∧
      RefusalsAgree (fun error error' ↦ error.withoutValue = error'.withoutValue) binder schema
        resolver spec ∧
      ReadingsAgree (fun error error' ↦ error.withoutValue = error'.withoutValue) binder schema
        resolver spec := by
  have hrefusals : RefusalsAgree (QuoteApart spec) binder schema resolver spec :=
    refusalsAgree_quoteApart hspec hsecret
  refine ⟨fun hscalar ↦ hrefusals.imp fun _ _ hquote ↦ hquote.scalar hscalar,
    hrefusals.imp fun _ _ hquote ↦ hquote.withoutValue, ?_⟩
  intro raw other _ _ _ bound bound' hbind hbind' α read name _ error error' herror herror'
  have hschema : bound.schema = bound'.schema :=
    (schema_of_bind_eq_ok hbind).trans (schema_of_bind_eq_ok hbind').symm
  exact Bound.parseEnum_withoutValue hschema herror herror'

/-- Two pins that are no numbers are refused in the same words. -/
theorem refusals_of_secret_vault :
    let pin : OptionSpec := { name := "pin", kind := .int, secret := true, deprecated := true }
    let raw : RawValues := [("pin", .text "12ab")]
    let other : RawValues := [("pin", .text "34cd")]
    let binder : Binder := {}
    pin ∈ vault.options ∧ pin.secret = true ∧ RefusalsAgree Eq binder vault .none pin ∧
      ∃ error, (binder.bind vault raw .none).value = .error error ∧
        (binder.bind vault other .none).value = .error error := by
  intro pin raw other binder
  have hpin : pin ∈ vault.options := List.mem_cons_self
  obtain ⟨hscalar, -, -⟩ := @refusals_of_secret binder .none pin vault hpin rfl
  have hagree : RefusalsAgree Eq binder vault .none pin := hscalar rfl
  have hapart : raw.Alongside (TextApart pin) other :=
    RawValues.alongside_of_aligned (.cons ⟨rfl, .inr ⟨by decide +kernel, _, _, rfl, rfl⟩⟩ .nil)
  have hbind : (binder.bind vault raw .none).value =
      .error (.typeCoercion "vault" "pin" redacted .int) := by decide +kernel
  have hbind' : (binder.bind vault other .none).value =
      .error (.typeCoercion "vault" "pin" redacted .int) := by decide +kernel
  have hsame := hagree raw other (by decide) (by decide) hapart _ _ hbind hbind' rfl rfl rfl
  exact ⟨hpin, rfl, hagree, _, hbind, hsame ▸ hbind'⟩

/-- A reference to an unknown object is quoted though the option is secret, and so is a constant
that a later reader refuses: with other texts the errors are other ones. -/
theorem secret_quoted :
    let key : OptionSpec := { name := "key", kind := .object "Key", secret := true }
    let mode : OptionSpec := { name := "mode", kind := .enum ["OPEN", "SEALED"], secret := true }
    let binder : Binder := {}
    key ∈ vault.options ∧ key.secret = true ∧ ¬ RefusalsAgree Eq binder vault .none key ∧
      mode ∈ vault.options ∧ mode.secret = true ∧ ¬ ReadingsAgree Eq binder vault .none mode := by
  intro key mode binder
  refine ⟨by decide +kernel, rfl, fun hagree ↦ ?_, by decide +kernel, rfl, fun hagree ↦ ?_⟩
  · have hbind : ∀ text ∈ ["hunter2", "letmein"],
        (binder.bind vault [("key", .text text)] .none).value =
          .error (.unresolvedReference "vault" "key" text) := by decide +kernel
    have hsame := hagree [("key", .text "hunter2")] [("key", .text "letmein")] (by decide)
      (by decide)
      (RawValues.alongside_of_aligned (.cons ⟨rfl, .inr ⟨by decide +kernel, _, _, rfl, rfl⟩⟩ .nil))
      _ _ (hbind _ (by simp)) (hbind _ (by simp)) rfl rfl rfl
    exact absurd hsame (by decide +kernel)
  · have hbind : ∀ constant ∈ ["OPEN", "SEALED"],
        (binder.bind vault [("mode", .text constant)] .none).value =
          .ok ⟨vault, [none, some (.enum constant), none, none]⟩ := by decide +kernel
    have hsame := hagree [("mode", .text "OPEN")] [("mode", .text "SEALED")] (by decide) (by decide)
      (RawValues.alongside_of_aligned (.cons ⟨rfl, .inr ⟨by decide +kernel, _, _, rfl, rfl⟩⟩ .nil))
      _ _ (hbind _ (by simp)) (hbind _ (by simp)) Unit (fun _ ↦ none) "mode" (by decide +kernel)
      (.invalidEnumValue "vault" "mode" "OPEN" ["OPEN", "SEALED"])
      (.invalidEnumValue "vault" "mode" "SEALED" ["OPEN", "SEALED"])
      (by decide +kernel) (by decide +kernel)
    exact absurd hsame (by decide +kernel)

end Binder

end Connectors
