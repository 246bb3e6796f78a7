import Connectors.Proofs.Binding.Reference
import Connectors.Proofs.Fields

/-!
# Where bound values come from

A value of a bound configuration was read from a text by the rules of its option's kind, or it is an
object that is offered under the type declared (`Resolves.origin`). An object that is found by its
type is taken without a look at it, so this rests on the resolver giving objects of the type asked
for (`Resolver.Honest`), which every `BeanRegistry` does.
-/

set_option autoImplicit false
set_option relaxedAutoImplicit false

namespace Connectors

/-- What is found under a type name is offered under that name. -/
def Resolver.Honest (resolver : Resolver) : Prop :=
  ∀ typeName, ∀ reference ∈ resolver.findByType typeName, reference.typeName = typeName

theorem Resolver.honest_none : Resolver.none.Honest := by
  simp [Honest, none]

theorem BeanRegistry.honest_resolver (registry : BeanRegistry) : registry.resolver.Honest := by
  intro typeName reference hmem
  simpa [ObjectRef.isType] using (List.mem_filter.mp hmem).2

/-- What beans there are, they are found under the names that they are offered under. -/
theorem Resolver.honest_of_beans {resolver : Resolver}
    (hresolver : resolver = .none ∨ ∃ registry : BeanRegistry, resolver = registry.resolver) :
    resolver.Honest := by
  rcases hresolver with rfl | ⟨registry, rfl⟩
  · exact Resolver.honest_none
  · exact registry.honest_resolver

namespace Binder

variable {binder : Binder} {component : String} {resolver : Resolver} {spec : OptionSpec}

/-- A value is the content of some text, or an object of the type that the option declares. -/
def Originates (spec : OptionSpec) (value : OptionValue) : Prop :=
  (∃ text, spec.kind.parse text = .ok value) ∨
    ∃ reference, value = .object reference ∧ spec.kind = .object reference.typeName

theorem ReadsText.origin {text : String} {value : OptionValue}
    (hread : ReadsText component spec text (.ok value)) : Originates spec value := by
  cases hread with
  | value hparse => exact .inl ⟨text, hparse⟩

theorem TakesObject.origin {reference : ObjectRef} {value : OptionValue}
    (htake : TakesObject component spec reference (.ok value)) : Originates spec value := by
  cases htake with
  | offered hkind => exact .inr ⟨reference, rfl, hkind⟩

theorem Coerces.origin {raw : RawValue} {value : OptionValue}
    (hcoerces : Coerces component resolver spec raw (.ok value)) : Originates spec value := by
  cases hcoerces with
  | text _ hread => exact hread.origin
  | named _ _ htake => exact htake.origin
  | object htake => exact htake.origin

/-- Every value that an option gets originates from a text or from an object of the right type. -/
theorem Resolves.origin (hresolver : resolver.Honest) {entries : RawValues} {value : OptionValue}
    (hresolves : binder.Resolves component resolver spec entries (.ok (some value))) :
    Originates spec value := by
  rcases hresolves.of_some with ⟨text, hread⟩ | ⟨reference, rfl, hautowires⟩ |
    ⟨key, raw, -, hcoerces⟩
  · exact hread.origin
  · obtain ⟨-, -, typeName, hkind, hfound⟩ := hautowires
    have htype := hresolver typeName reference (by simp [hfound])
    exact .inr ⟨reference, rfl, htype ▸ hkind⟩
  · exact hcoerces.origin

end Binder

end Connectors
