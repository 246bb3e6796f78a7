import Connectors.Proofs.Binding.Single
import Connectors.Proofs.Binding.Soundness
import Connectors.Proofs.Schema.Building

/-!
# Reading what was given

Raw values reach their options through groups of keys of one normal form. A configuration is read
the other way: a name is looked up among the options of the schema, and the place found is looked up
among the values. Both ways lead from a key to the same option (`Bound.get?_of_leads`), so a value
that is given in one spelling of a name is read in every spelling of it, and its content by the
reader of the option's kind (`Bound.Reads`). A name of no option reads as nothing, whether or not
something was given under it (`Bound.get?_of_nowhere`). `Binder.read_as_given` states all of this of
whatever is bound.
-/

set_option autoImplicit false
set_option relaxedAutoImplicit false

namespace Connectors

namespace Bound

variable {bound : Bound} {key : String} {index : Nat} {spec : OptionSpec}

/-- The reader of a kind finds the content of a value under a name. An object is found by whoever
asks for its concrete type. -/
inductive Reads (bound : Bound) (key : String) : OptionKind → OptionValue → Prop
  | bool {value : Bool} (hread : bound.bool? key = some value) : Reads bound key .bool (.bool value)
  | int {value : Int} (hread : bound.int? key = some value) : Reads bound key .int (.int value)
  | long {value : Int} (hread : bound.long? key = some value) : Reads bound key .long (.long value)
  | string {value : String} (hread : bound.string? key = some value) :
      Reads bound key .string (.string value)
  | list {items : List String} (hread : bound.list? key = some items) :
      Reads bound key .list (.list items)
  | enum {allowed : List String} {value : String} (hread : bound.enum? key = some value) :
      Reads bound key (.enum allowed) (.enum value)
  | object {typeName : String} {reference : ObjectRef}
      (hread : bound.object? reference.concreteType key = some reference)
      (hrequire : bound.requireObject reference.concreteType key = .ok (some reference)) :
      Reads bound key (.object typeName) (.object reference)

/-- A value of the shape of a kind is found by the reader of the kind. -/
theorem reads_of_get? {kind : OptionKind} {value : OptionValue} (hget : bound.get? key = some value)
    (hfits : value.fits kind = true) : bound.Reads key kind value := by
  match kind, value with
  | .bool, .bool value => exact .bool (by rw [bool?, hget])
  | .int, .int value => exact .int (by rw [int?, hget])
  | .long, .long value => exact .long (by rw [long?, hget])
  | .string, .string value => exact .string (by rw [string?, hget])
  | .list, .list items => exact .list (by rw [list?, hget])
  | .enum allowed, .enum value => exact .enum (by rw [enum?, hget])
  | .object typeName, .object reference =>
    exact .object (by simp [object?, hget]) (by simp [requireObject, hget])

/-- A name is read at the place of the option that it leads to. -/
theorem get?_of_leads (hleads : bound.schema.Leads key index spec) :
    bound.get? key = bound.values[index]?.join := by
  rw [get?, Schema.indexOf?_eq_some_iff.mpr ⟨spec, hleads⟩]
  rfl

/-- A name of no option reads as nothing. -/
theorem get?_of_nowhere (hnowhere : Binder.LeadsNowhere bound.schema.options key) :
    bound.get? key = none := by
  have hindex : bound.schema.indexOf? key = none := by
    refine Option.eq_none_iff_forall_ne_some.mpr fun index hindex ↦ ?_
    obtain ⟨spec, hspec, hname⟩ := Schema.indexOf?_eq_some_iff.mp hindex
    exact hnowhere spec (List.mem_of_getElem? hspec) hname.symm
  rw [get?, hindex]
  rfl

end Bound

namespace Binder

variable {binder : Binder} {schema : Schema} {resolver : Resolver} {raw : RawValues} {bound : Bound}
  {spec : OptionSpec} {entry : String × RawValue}

/-- Where something is bound, an entry that leads to an option is the only one. -/
theorem only_of_bind (hbind : (binder.bind schema raw resolver).value = .ok bound)
    (hspec : spec ∈ schema.options) (hentry : entry ∈ entriesOf raw spec) :
    entriesOf raw spec = [entry] := by
  obtain ⟨value, hvalue⟩ := exists_resolved_of_bind_eq_ok hspec hbind
  rw [resolved] at hvalue
  rcases hentries : entriesOf raw spec with _ | ⟨first, _ | ⟨second, rest⟩⟩
  · simp [hentries] at hentry
  · rw [hentries, List.mem_singleton] at hentry
    rw [hentry]
  · rw [hentries] at hvalue
    cases hvalue

/-- In a configuration that is bound, every entry whose key leads to an option is read under all
names of the same normal form, as the value that the option makes of it, and its content by the
reader of the option's kind. A name of no option reads as nothing, even if something was given under
it. -/
theorem read_as_given (hbind : (binder.bind schema raw resolver).value = .ok bound) :
    (∀ entry ∈ raw, ∀ spec ∈ schema.options, Key.normal entry.1 = Key.normal spec.name →
      ∀ key, Key.normal key = Key.normal entry.1 → ∃ value,
        Coerces schema.id resolver spec entry.2 (.ok value) ∧ bound.get? key = some value ∧
          bound.Reads key spec.kind value) ∧
    ∀ key, LeadsNowhere schema.options key → bound.get? key = none := by
  obtain rfl := schema_of_bind_eq_ok hbind
  refine ⟨fun entry hentry spec hspec hname key hkey ↦ ?_, fun key ↦ Bound.get?_of_nowhere⟩
  have hmem : entry ∈ entriesOf raw spec :=
    List.mem_filter.mpr ⟨hentry, Key.agree_iff.mpr hname⟩
  obtain ⟨index, hindex⟩ := List.mem_iff_getElem?.mp hspec
  obtain ⟨value, hcoerce, hvalue⟩ :=
    (boundFrom_of_only hspec (only_of_bind hbind hspec hmem)).value bound index hbind hindex
  have hcoerces : Coerces bound.schema.id resolver spec entry.2 (.ok value) :=
    coerces_iff.mpr hcoerce.symm
  have hleads : bound.schema.Leads key index spec := ⟨hindex, (hkey.trans hname).symm⟩
  have hget : bound.get? key = some value := by
    rw [Bound.get?_of_leads hleads, hvalue]
    rfl
  exact ⟨value, hcoerces, hget, Bound.reads_of_get? hget hcoerces.origin.fits.1⟩

/-- A number and an object are given in one spelling and read in another. What is given under a name
of no option is not read at all. -/
theorem read_as_given_exports :
    let sink := ObjectRef.ofType 1 "files::Sink"
    let source := ObjectRef.ofType 2 "tables::Source"
    let resolver := (BeanRegistry.empty.insert "in" source).resolver
    let raw : RawValues := [("SINK", .object sink), ("region", .text "eu"), ("LI_MIT", .text "+07")]
    let bound : Bound := ⟨exports, [some (.int 7), some (.enum "FULL"), some (.object sink),
      some (.object source), none]⟩
    (({} : Binder).bind exports raw resolver).value = .ok bound ∧
      bound.int? "li.mit" = some 7 ∧ bound.object? "files::Sink" "s-ink" = some sink ∧
      bound.get? "region" = none := by
  intro sink source resolver raw bound
  have hbind : (({} : Binder).bind exports raw resolver).value = .ok bound := by decide +kernel
  obtain ⟨hgiven, hnowhere⟩ := read_as_given hbind
  refine ⟨hbind, ?_, ?_, hnowhere "region" (by decide +kernel)⟩
  · obtain ⟨value, hcoerces, -, hreads⟩ := hgiven ("LI_MIT", .text "+07") (by simp [raw])
      { name := "limit", kind := .int, required := true } (by simp [exports]) (by decide +kernel)
      "li.mit" (by decide +kernel)
    cases hreads with
    | int hread => exact hread.trans (by cases coerces_iff.mp hcoerces; rfl)
  · obtain ⟨value, hcoerces, -, hreads⟩ := hgiven ("SINK", .object sink) (by simp [raw])
      { name := "sink", kind := .object "Sink" } (by simp [exports]) (by decide +kernel)
      "s-ink" (by decide +kernel)
    cases hcoerces with
    | object htake =>
      cases htake with
      | offered =>
        cases hreads with
        | object hread => exact hread

end Binder

end Connectors
