import Connectors.Proofs.Options.Integers
import Connectors.Proofs.Text.Pieces

/-!
# Reading a value back from its text

A value that was read from some text may be written differently: without leading zeros or a plus
sign, in lower case, without blanks around the items of a list. What is written for it reads as the
same value (`parse_text`).
-/

set_option autoImplicit false
set_option relaxedAutoImplicit false

namespace Connectors.OptionKind

theorem parseBool?_boolText (value : Bool) :
    parseBool? (OptionValue.boolText value) = some value := by
  cases value <;> decide +kernel

/-- A value that is read by the rules of a kind has a text, and that text reads as the same
value. -/
theorem parse_text {kind : OptionKind} {text : String} {value : OptionValue}
    (hparse : kind.parse text = .ok value) :
    ∃ written, value.text? = some written ∧ kind.parse written = .ok value := by
  cases kind with
  | bool =>
    cases hread : parseBool? text with
    | none => simp [parse, hread] at hparse
    | some truth =>
      obtain rfl : OptionValue.bool truth = value := by simpa [parse, hread] using hparse
      exact ⟨_, rfl, by simp [parse, parseBool?_boolText]⟩
  | int => exact IsInteger.int.parse_text hparse
  | long => exact IsInteger.long.parse_text hparse
  | string =>
    obtain rfl : OptionValue.string text = value := by simpa [parse] using hparse
    exact ⟨_, rfl, rfl⟩
  | list =>
    obtain rfl : OptionValue.list (listItems text) = value := by simpa [parse] using hparse
    have hback : listItems (Text.join "," (listItems text)) = listItems text :=
      listItems_join fun item hitem ↦ isItem_of_mem_listItems hitem
    exact ⟨_, rfl, by simp [parse, hback]⟩
  | enum values =>
    by_cases hmem : text ∈ values
    · obtain rfl : OptionValue.enum text = value := by simpa [parse, hmem] using hparse
      exact ⟨_, rfl, by simp [parse, hmem]⟩
    · simp [parse, hmem] at hparse
  | object typeName => simp [parse] at hparse

end Connectors.OptionKind
