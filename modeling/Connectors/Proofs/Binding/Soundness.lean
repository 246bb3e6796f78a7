import Connectors.Proofs.Binding.Values
import Connectors.Proofs.Options.Integers

/-!
# What a bound configuration guarantees

Whoever reads a bound configuration relies on it without looking again: a place for each option of
the schema, in each place a value of the option's kind or nothing, and nothing only where the option
may be left open. `Fills` says this of one place, and `bind_sound` of all places of a configuration
that binding answers with.

A value enters a place by one of several ways. A text, whether given or a default, is read by the
rules of the kind and so has its shape and range (`OptionKind.fits_of_parse`). An object that is
given, or found by its name, is checked for the type declared. An object that is found by its type
is not checked again, so here the guarantee is that of the resolver (`Resolver.Honest`).
-/

set_option autoImplicit false
set_option relaxedAutoImplicit false

namespace Connectors

/-- An integer is one that 32 or 64 bits with a sign hold, whichever its value stands for. -/
def OptionValue.InRange : OptionValue → Prop
  | .int value => -2147483648 ≤ value ∧ value ≤ 2147483647
  | .long value => -9223372036854775808 ≤ value ∧ value ≤ 9223372036854775807
  | _ => True

/-- A value that is read by the rules of a kind has the shape of the kind and lies in its range. -/
theorem OptionKind.fits_of_parse {kind : OptionKind} {text : String} {value : OptionValue}
    (hparse : kind.parse text = .ok value) : value.fits kind = true ∧ value.InRange := by
  cases kind with
  | bool =>
    cases hread : parseBool? text with
    | none => simp [parse, hread] at hparse
    | some truth =>
      obtain rfl : OptionValue.bool truth = value := by simpa [parse, hread] using hparse
      exact ⟨rfl, trivial⟩
  | int =>
    obtain ⟨integer, -, hword, rfl⟩ := IsInteger.int.parse_eq_ok_iff.mp hparse
    have hrange : -2147483648 ≤ integer ∧ integer ≤ 2147483647 := by
      simp only [InWord] at hword
      omega
    exact ⟨rfl, hrange⟩
  | long =>
    obtain ⟨integer, -, hword, rfl⟩ := IsInteger.long.parse_eq_ok_iff.mp hparse
    have hrange : -9223372036854775808 ≤ integer ∧ integer ≤ 9223372036854775807 := by
      simp only [InWord] at hword
      omega
    exact ⟨rfl, hrange⟩
  | string =>
    obtain rfl : OptionValue.string text = value := by simpa [parse] using hparse
    exact ⟨rfl, trivial⟩
  | list =>
    obtain rfl : OptionValue.list (listItems text) = value := by simpa [parse] using hparse
    exact ⟨rfl, trivial⟩
  | enum values =>
    by_cases hmem : text ∈ values
    · obtain rfl : OptionValue.enum text = value := by simpa [parse, hmem] using hparse
      exact ⟨by simpa [OptionValue.fits] using hmem, trivial⟩
    · simp [parse, hmem] at hparse
  | object typeName => simp [parse] at hparse

namespace Binder

variable {binder : Binder} {component : String} {resolver : Resolver} {spec : OptionSpec}

/-- What a place of a bound configuration guarantees to whoever reads the option of the place. -/
structure Fills (spec : OptionSpec) (slot : Option OptionValue) : Prop where
  /-- A value has the shape of the option's kind: a constant is one of those declared, and an object
  is offered under the type name declared. -/
  fits : ∀ value ∈ slot, value.fits spec.kind = true
  /-- An integer lies within its 32 or 64 bits. -/
  inRange : ∀ value ∈ slot, value.InRange
  /-- A required option has a value. -/
  required : spec.required = true → slot.isSome = true
  /-- An option with a default has a value. -/
  fallback : spec.fallback.isSome = true → slot.isSome = true

theorem Originates.fits {value : OptionValue} (horigin : Originates spec value) :
    value.fits spec.kind = true ∧ value.InRange := by
  rcases horigin with ⟨text, hparse⟩ | ⟨reference, rfl, hkind⟩
  · exact OptionKind.fits_of_parse hparse
  · rw [hkind]
    exact ⟨by simp [OptionValue.fits, ObjectRef.isType], trivial⟩

/-- Whatever an option gets fills its place. -/
theorem Resolves.fills (hresolver : resolver.Honest) {entries : RawValues}
    {slot : Option OptionValue}
    (hresolves : binder.Resolves component resolver spec entries (.ok slot)) : Fills spec slot := by
  cases slot with
  | none =>
    obtain ⟨-, hfallback, hrequired⟩ := hresolves.of_none
    exact ⟨by simp, by simp, by simp [hrequired], by simp [hfallback]⟩
  | some value =>
    obtain ⟨hfits, hrange⟩ := (hresolves.origin hresolver).fits
    exact ⟨by simpa using hfits, by simpa using hrange, fun _ ↦ rfl, fun _ ↦ rfl⟩

/-- A configuration that binding answers with belongs to the schema and has one place for each
option, in the order declared. Each place holds a value of the option's kind or nothing, and nothing
only if the option is neither required nor has a default. -/
theorem bind_sound {schema : Schema} {raw : RawValues} {bound : Bound}
    (hresolver : resolver = .none ∨ ∃ registry : BeanRegistry, resolver = registry.resolver)
    (hbind : (binder.bind schema raw resolver).value = .ok bound) :
    bound.schema = schema ∧ List.Forall₂ Fills schema.options bound.values := by
  cases (bind_value_eq_iff schema raw _).mp hbind with
  | bound hvalues _ =>
    refine ⟨rfl, hvalues.imp fun spec slot hresolves ↦ ?_⟩
    exact hresolves.fills (Resolver.honest_of_beans hresolver)

/-- A component with an option of most kinds and marks. -/
def exports : Schema where
  id := "exports"
  options := [{ name := "limit", kind := .int, required := true },
    { name := "mode", kind := .enum ["FULL", "DELTA"], fallback := some "FULL" },
    { name := "sink", kind := .object "Sink" },
    { name := "source", kind := .object "Source", required := true, autowired := true },
    { name := "note", kind := .string }]
  indexed := by decide +kernel

/-- The least integer of its width, a default, an object found by its name, another found by its
type, and an option left open. -/
theorem bind_sound_exports :
    let sink := ObjectRef.ofType 1 "files::Sink"
    let source := ObjectRef.ofType 2 "tables::Source"
    let resolver := ((BeanRegistry.empty.insert "out" sink).insert "in" source).resolver
    let raw : RawValues := [("SINK", .text "#bean:out"), ("li-mit", .text "-2147483648")]
    let bound : Bound := ⟨exports, [some (.int (-2147483648)), some (.enum "FULL"),
      some (.object sink), some (.object source), none]⟩
    (({} : Binder).bind exports raw resolver).value = .ok bound ∧
      List.Forall₂ Fills exports.options bound.values := by
  intro sink source resolver raw bound
  have hbind : (({} : Binder).bind exports raw resolver).value = .ok bound := by decide +kernel
  exact ⟨hbind, (bind_sound (.inr ⟨_, rfl⟩) hbind).2⟩

end Binder

end Connectors
