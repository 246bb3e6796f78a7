import Connectors.Proofs.Options.Integers
import Connectors.Proofs.Sections.Flattening

/-!
# Integers in a section

A section writes an integer with all its digits before an option reads it. What is written denotes
the integer (`Integer.denotes_write`), and an option of kind int or long takes the integer that a
text denotes or, if its words have no place for it, none (`Binder.coerce_integer`,
`Binder.coerce_no_integer`). So an option that an integer of a section decides has this integer or
refuses it, and never another one in its place (`ComponentSection.integers_exact`).
-/

set_option autoImplicit false
set_option relaxedAutoImplicit false

namespace Connectors

open Integer (Denotes)
open OptionKind (IsInteger InWord)

section Coercion

variable {spec : OptionSpec} {bits : Nat} {make : Int → OptionValue}

/-- An option takes the integer that its text denotes. -/
theorem Binder.coerce_integer (hkind : IsInteger spec.kind bits make) {text : String} {number : Int}
    (hdenotes : Denotes text.toList number) (hword : InWord bits number) (component : String)
    (resolver : Resolver) : coerce component resolver spec (.text text) = .ok (make number) :=
  (coerces_iff.mp (.text hkind.ne_object
    (.value (hkind.parse_eq_ok_iff.mpr ⟨number, hdenotes, hword, rfl⟩)))).symm

/-- An option refuses a text that denotes no integer of its word. -/
theorem Binder.coerce_no_integer (hkind : IsInteger spec.kind bits make) {text : String}
    (hnone : ∀ number, Denotes text.toList number → ¬ InWord bits number) (component : String)
    (resolver : Resolver) : coerce component resolver spec (.text text) =
      .error (.typeCoercion component spec.name (shown spec text) spec.kind) := by
  refine (coerces_iff.mp (.text hkind.ne_object
    (.malformed hkind.ne_enum fun value hparse ↦ ?_))).symm
  obtain ⟨number, hdenotes, hword, -⟩ := hkind.parse_eq_ok_iff.mp hparse
  exact hnone number hdenotes hword

end Coercion

namespace ComponentSection

/-- Integers are exact or refused. An option of kind int or long accepts the texts that are one or
more digits, after a sign or none, and denote an integer of 32 or 64 bits. It has this very integer,
and any other text is refused for its type. Where an integer of a section decides the option, the
option has this integer in every configuration that is bound, if its word has a place for it. If
not, the integer is refused with all its digits and nothing is bound, with this error unless an
option declared earlier is at fault. -/
theorem integers_exact {kind : OptionKind} {bits : Nat} {make : Int → OptionValue}
    (hkind : IsInteger kind bits make) :
    (∀ text value, kind.parse text = .ok value ↔
      ∃ number, Denotes text.toList number ∧ InWord bits number ∧ value = make number) ∧
    (∀ (component : String) (resolver : Resolver) (spec : OptionSpec) (text : String),
      spec.kind = kind →
        (∀ number, Denotes text.toList number → InWord bits number →
          Binder.coerce component resolver spec (.text text) = .ok (make number)) ∧
        ((∀ number, Denotes text.toList number → ¬ InWord bits number) →
          Binder.coerce component resolver spec (.text text) =
            .error (.typeCoercion component spec.name (Binder.shown spec text) kind))) ∧
    ∀ {id : String} {fields : List (String × Datum)} {component : ComponentSection},
      ofDatum id (.table fields) = .ok component →
      ∀ (binder : Binder) (schema : Schema) (resolver : Resolver) {spec : OptionSpec},
      spec ∈ schema.options → spec.kind = kind → ∀ (key : String) (value : Int),
      Decides fields spec (key, .int value) →
        (InWord bits value →
          binder.resolved schema.id resolver component.rawValues spec = .ok (some (make value)) ∧
          ∀ (bound : Bound) (index : Nat),
            (binder.bind schema component.rawValues resolver).value = .ok bound →
            schema.options[index]? = some spec →
              bound.values[index]? = some (some (make value))) ∧
        (¬ InWord bits value → ∃ error, error = .typeCoercion schema.id spec.name
            (Binder.shown spec (Integer.write value)) kind ∧
          binder.resolved schema.id resolver component.rawValues spec = .error error ∧
          (∀ bound, (binder.bind schema component.rawValues resolver).value ≠ .ok bound) ∧
          ∀ before after, schema.options = before ++ spec :: after →
            (∀ earlier ∈ before, ∃ value,
              binder.resolved schema.id resolver component.rawValues earlier = .ok value) →
            (binder.bind schema component.rawValues resolver).value = .error error) := by
  refine ⟨fun text value ↦ hkind.parse_eq_ok_iff, ?_, ?_⟩
  · rintro component resolver spec text rfl
    exact ⟨fun number hdenotes hword ↦
        Binder.coerce_integer hkind hdenotes hword component resolver,
      fun hnone ↦ Binder.coerce_no_integer hkind hnone component resolver⟩
  · rintro id fields component hread binder schema resolver spec hspec rfl key value hdecides
    obtain ⟨_, ⟨⟩, hresolved⟩ := hdecides.exists_text hread binder schema resolver
    refine ⟨fun hword ↦ ?_, fun hword ↦ ⟨_, rfl, ?_⟩⟩
    · have hvalue : binder.resolved schema.id resolver component.rawValues spec =
          .ok (some (make value)) := by
        rw [hresolved, Binder.coerce_integer hkind (Integer.denotes_write value) hword]
        rfl
      exact ⟨hvalue, fun bound index ↦ Binder.getElem?_of_resolved hvalue⟩
    · have hnone :
          ∀ number, Denotes (Integer.write value).toList number → ¬ InWord bits number := by
        intro number hdenotes
        obtain rfl := hdenotes.unique (Integer.denotes_write value)
        exact hword
      have herror : binder.resolved schema.id resolver component.rawValues spec =
          .error (.typeCoercion schema.id spec.name (Binder.shown spec (Integer.write value))
            spec.kind) := by
        rw [hresolved, Binder.coerce_no_integer hkind hnone]
        rfl
      exact ⟨herror, Binder.bind_ne_ok_of_resolved hspec herror, fun before after hoptions hbefore ↦
        Binder.bind_eq_error_of_first hoptions hbefore herror⟩

/-- A component that takes records in batches, from an offset on. -/
def batches : Schema where
  id := "batches"
  options := [{ name := "startOffset", kind := .long }, { name := "batchSize", kind := .int }]
  indexed := by decide +kernel

/-- The least integer of 64 bits is bound. The first one that is too great for 32 bits is refused
with all its digits, though the text of the least one, with zeros before it, is accepted. -/
theorem integers_exact_batches :
    let fields : List (String × Datum) :=
      [("batch", .table [("size", .int 2147483648)]), ("start-offset", .int (-9223372036854775808))]
    let component : ComponentSection := ⟨"batches", true,
      [("batch.size", "2147483648"), ("start-offset", "-9223372036854775808")]⟩
    let binder : Binder := {}
    OptionKind.int.parse "-002147483648" = .ok (.int (-2147483648)) ∧
      ofDatum "batches" (.table fields) = .ok component ∧
      binder.resolved "batches" .none component.rawValues { name := "startOffset", kind := .long } =
        .ok (some (.long (-9223372036854775808))) ∧
      (binder.bind batches component.rawValues .none).value =
        .error (.typeCoercion "batches" "batchSize" "2147483648" .int) := by
  intro fields component binder
  have hread : ofDatum "batches" (.table fields) = .ok component := by decide +kernel
  have htext : Denotes "-002147483648".toList (-2147483648) :=
    Integer.read?_eq_some_iff.mp (by decide +kernel)
  have hstart : ({ name := "startOffset", kind := .long } : OptionSpec) ∈ batches.options := by
    decide +kernel
  have hsize : ({ name := "batchSize", kind := .int } : OptionSpec) ∈ batches.options := by
    decide +kernel
  have hoffset := (((integers_exact .long).2.2 hread binder batches .none hstart rfl "start-offset"
    (-9223372036854775808) ⟨[], by decide +kernel, by simp⟩).1 (by simp [InWord])).1
  obtain ⟨_, rfl, -, -, hbind⟩ := ((integers_exact .int).2.2 hread binder batches .none hsize rfl
    "batch.size" 2147483648 ⟨[], by decide +kernel, by simp⟩).2 (by simp [InWord])
  refine ⟨((integers_exact .int).1 _ _).mpr ⟨_, htext, by simp [InWord], rfl⟩, hread, hoffset, ?_⟩
  exact hbind [{ name := "startOffset", kind := .long }] [] rfl (by simpa using ⟨_, hoffset⟩)

end ComponentSection

end Connectors
