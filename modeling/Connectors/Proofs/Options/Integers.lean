import Connectors.Options.Kind
import Connectors.Proofs.Number.Integer

/-!
# Options that hold integers

The kinds int and long read integers and differ only in the length of their words
(`OptionKind.IsInteger`). An option of such a kind takes the texts that denote an integer of its
word, and has this very integer (`OptionKind.IsInteger.parse_eq_ok_iff`), which is written and read
back as itself (`OptionKind.IsInteger.parse_text`).
-/

set_option autoImplicit false
set_option relaxedAutoImplicit false

namespace Connectors.OptionKind

open Integer (Denotes)

/-- A kind of options that hold integers, with the length of its words in bits and the value that an
integer is for such an option. -/
inductive IsInteger : OptionKind → Nat → (Int → OptionValue) → Prop
  | int : IsInteger .int 32 .int
  | long : IsInteger .long 64 .long

/-- An integer has a place in words of so many bits, of which one is the sign. -/
def InWord (bits : Nat) (value : Int) : Prop :=
  -(2 ^ (bits - 1)) ≤ value ∧ value < 2 ^ (bits - 1)

variable {kind : OptionKind} {bits : Nat} {make : Int → OptionValue}

namespace IsInteger

theorem ne_object (hkind : IsInteger kind bits make) (typeName : String) :
    kind ≠ .object typeName := by
  cases hkind <;> simp

theorem ne_enum (hkind : IsInteger kind bits make) (values : List String) :
    kind ≠ .enum values := by
  cases hkind <;> simp

/-- Both kinds read integers of a range and differ only in the range, which is that of their
words. -/
theorem exists_bounds (hkind : IsInteger kind bits make) : ∃ bounds : Integer.Bounds,
    (∀ value, bounds.least ≤ value ∧ value ≤ bounds.greatest ↔ InWord bits value) ∧
    ∀ text, kind.parse text =
      match Integer.readWithin? bounds text with
      | some value => .ok (make value)
      | none => .error .malformed := by
  cases hkind with
  | int =>
    refine ⟨Integer.word32, fun value ↦ ?_, fun text ↦ rfl⟩
    simp only [Integer.word32, InWord]
    omega
  | long =>
    refine ⟨Integer.word64, fun value ↦ ?_, fun text ↦ rfl⟩
    simp only [Integer.word64, InWord]
    omega

/-- A text is accepted exactly if it denotes an integer of the word, and is this integer. -/
theorem parse_eq_ok_iff (hkind : IsInteger kind bits make) {text : String} {value : OptionValue} :
    kind.parse text = .ok value ↔
      ∃ number, Denotes text.toList number ∧ InWord bits number ∧ value = make number := by
  obtain ⟨bounds, hbounds, hparse⟩ := hkind.exists_bounds
  have hread : ∀ number, Integer.readWithin? bounds text = some number ↔
      Denotes text.toList number ∧ InWord bits number := fun number ↦ by
    rw [Integer.readWithin?_eq_some_iff, hbounds]
  simp only [hparse, ← and_assoc, ← hread]
  cases Integer.readWithin? bounds text <;> simp [eq_comm]

/-- An integer that an option has is written and read back as itself. -/
theorem parse_text (hkind : IsInteger kind bits make) {text : String} {value : OptionValue}
    (hparse : kind.parse text = .ok value) :
    ∃ written, value.text? = some written ∧ kind.parse written = .ok value := by
  obtain ⟨number, -, hword, rfl⟩ := hkind.parse_eq_ok_iff.mp hparse
  have htext : (make number).text? = some (Integer.write number) := by
    cases hkind <;> rfl
  exact ⟨_, htext, hkind.parse_eq_ok_iff.mpr ⟨number, Integer.denotes_write number, hword, rfl⟩⟩

end IsInteger

end Connectors.OptionKind
