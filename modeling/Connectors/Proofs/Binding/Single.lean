import Connectors.Proofs.Binding.Reference

/-!
# Options with one entry or with several

An option to which exactly one entry leads is bound from it (`Binder.BoundFrom`): whatever is given
for the other options, its value is the one that the entry has by the rules of its kind, and nothing
is bound if the entry has none (`boundFrom_of_only`). Where the keys of two entries lead to an
option nothing is bound at all (`bind_ne_ok_of_two`).
-/

set_option autoImplicit false
set_option relaxedAutoImplicit false

namespace Connectors.Binder

variable {binder : Binder} {schema : Schema} {resolver : Resolver} {raw : RawValues}
  {spec : OptionSpec}

/-- An option is bound from an entry. -/
structure BoundFrom (binder : Binder) (schema : Schema) (resolver : Resolver) (raw : RawValues)
    (spec : OptionSpec) (entry : String × RawValue) : Prop where
  /-- No other entry leads to the option. -/
  only : entriesOf raw spec = [entry]
  /-- In every configuration that is bound, the option has the value of the entry. -/
  value : ∀ (bound : Bound) (index : Nat), (binder.bind schema raw resolver).value =
    .ok bound → schema.options[index]? = some spec → ∃ value,
      coerce schema.id resolver spec entry.2 = .ok value ∧ bound.values[index]? = some (some value)
  /-- An entry that has no value is refused. -/
  refused : ∀ error, coerce schema.id resolver spec entry.2 = .error error →
    ∃ refusal, (binder.bind schema raw resolver).value = .error refusal

/-- A binding that succeeds has resolved each of its options. -/
theorem exists_resolved_of_bind_eq_ok (hspec : spec ∈ schema.options) {bound : Bound}
    (hbind : (binder.bind schema raw resolver).value = .ok bound) :
    ∃ value, binder.resolved schema.id resolver raw spec = .ok value := by
  obtain ⟨index, hindex⟩ := List.mem_iff_getElem?.mp hspec
  obtain ⟨value, -, hvalue⟩ := resolved_of_bind_eq_ok hbind hindex
  exact ⟨value, hvalue⟩

/-- What an option is resolved to is what it has in every configuration that is bound. -/
theorem getElem?_of_resolved {value : Option OptionValue}
    (hvalue : binder.resolved schema.id resolver raw spec = .ok value) {bound : Bound} {index : Nat}
    (hbind : (binder.bind schema raw resolver).value = .ok bound)
    (hindex : schema.options[index]? = some spec) : bound.values[index]? = some value := by
  obtain ⟨outcome, houtcome, hok⟩ := resolved_of_bind_eq_ok hbind hindex
  obtain rfl : value = outcome := Except.ok.inj (hvalue.symm.trans hok)
  exact houtcome

/-- Nothing is bound while an option is at fault. -/
theorem bind_ne_ok_of_resolved (hspec : spec ∈ schema.options) {error : BindError}
    (herror : binder.resolved schema.id resolver raw spec = .error error) (bound : Bound) :
    (binder.bind schema raw resolver).value ≠ .ok bound := by
  intro hbind
  obtain ⟨value, hvalue⟩ := exists_resolved_of_bind_eq_ok hspec hbind
  rw [herror] at hvalue
  cases hvalue

/-- The first option at fault gives the error. -/
theorem bind_eq_error_of_first {before after : List OptionSpec}
    (hoptions : schema.options = before ++ spec :: after)
    (hbefore : ∀ earlier ∈ before, ∃ value,
      binder.resolved schema.id resolver raw earlier = .ok value) {error : BindError}
    (herror : binder.resolved schema.id resolver raw spec = .error error) :
    (binder.bind schema raw resolver).value = .error error := by
  rw [bind_value, Traversal.mapM_eq_error_iff.mpr ⟨before, spec, after, hoptions, hbefore, herror⟩]
  rfl

theorem resolved_of_only {entry : String × RawValue} (honly : entriesOf raw spec = [entry]) :
    binder.resolved schema.id resolver raw spec =
      (coerce schema.id resolver spec entry.2).map some := by
  rw [resolved, honly]
  rfl

theorem boundFrom_of_only (hspec : spec ∈ schema.options) {entry : String × RawValue}
    (honly : entriesOf raw spec = [entry]) : binder.BoundFrom schema resolver raw spec entry := by
  have hresolved : binder.resolved schema.id resolver raw spec =
      (coerce schema.id resolver spec entry.2).map some := resolved_of_only honly
  refine ⟨honly, fun bound index hbind hindex ↦ ?_, fun error herror ↦ ?_⟩
  · obtain ⟨value, hvalue, hok⟩ := resolved_of_bind_eq_ok hbind hindex
    rw [hresolved] at hok
    cases hcoerce : coerce schema.id resolver spec entry.2 with
    | error error => simp [hcoerce, Except.map] at hok
    | ok read =>
      obtain rfl : some read = value := by simpa [hcoerce, Except.map] using hok
      exact ⟨read, rfl, hvalue⟩
  · cases hbind : (binder.bind schema raw resolver).value with
    | error refusal => exact ⟨refusal, rfl⟩
    | ok bound =>
      have hrefused : binder.resolved schema.id resolver raw spec = .error error := by
        rw [hresolved, herror]
        rfl
      exact absurd hbind (bind_ne_ok_of_resolved hspec hrefused bound)

/-- A text option is bound to the very text of its entry. -/
theorem BoundFrom.string {key text : String}
    (hfrom : binder.BoundFrom schema resolver raw spec (key, .text text))
    (hkind : spec.kind = .string) {bound : Bound} {index : Nat}
    (hbind : (binder.bind schema raw resolver).value = .ok bound)
    (hindex : schema.options[index]? = some spec) :
    bound.values[index]? = some (some (.string text)) := by
  obtain ⟨value, hcoerce, hvalue⟩ := hfrom.value bound index hbind hindex
  obtain rfl : OptionValue.string text = value := by
    simpa [coerce, hkind, coerceText, OptionKind.parse] using hcoerce
  exact hvalue

/-- An option to which two keys lead is in conflict over all keys that lead to it. -/
theorem resolved_of_two {first second : String × RawValue} (hfirst : first ∈ entriesOf raw spec)
    (hsecond : second ∈ entriesOf raw spec) (hne : first ≠ second) :
    binder.resolved schema.id resolver raw spec = .error (.conflictingKeys schema.id spec.name
      (((entriesOf raw spec).map (·.1)).mergeSort (· ≤ ·))) := by
  rw [resolved]
  rcases hentries : entriesOf raw spec with _ | ⟨entry, _ | ⟨another, rest⟩⟩
  · simp [hentries] at hfirst
  · rw [hentries, List.mem_singleton] at hfirst hsecond
    exact absurd (hfirst.trans hsecond.symm) hne
  · rfl

theorem bind_ne_ok_of_two (hspec : spec ∈ schema.options) {first second : String × RawValue}
    (hfirst : first ∈ entriesOf raw spec) (hsecond : second ∈ entriesOf raw spec)
    (hne : first ≠ second) (bound : Bound) : (binder.bind schema raw resolver).value ≠ .ok bound :=
  bind_ne_ok_of_resolved hspec (resolved_of_two hfirst hsecond hne) bound

end Connectors.Binder
