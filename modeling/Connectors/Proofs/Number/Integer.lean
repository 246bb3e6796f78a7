import Connectors.Number.Integer
import Mathlib.Data.List.Induction
import Mathlib.Data.Nat.Digits.Defs

/-!
# Reading integers

A text `Denotes` an integer if it is one or more ASCII digits, after a sign or none, with the value
that the digits have in base ten. These texts are read, with this value, and no others
(`read?_eq_some_iff`), and a bounded integer is read from those of them whose integer lies in its
range (`readWithin?_eq_some_iff`). What is written for an integer denotes it (`denotes_write`).
-/

set_option autoImplicit false
set_option relaxedAutoImplicit false

namespace Connectors.Integer

/-! ### Digits -/

theorem isDigit_iff {c : Char} : c.isDigit = true ↔ '0' ≤ c ∧ c ≤ '9' := by
  simp [Char.isDigit, Char.le_def, UInt32.le_iff_toNat_le]

theorem digit?_eq (c : Char) :
    digit? c = if c.isDigit then some (c.toNat - '0'.toNat) else none := by
  simp only [digit?, isDigit_iff]

/-- Digits are read by their value in base ten, and nothing but digits is read. -/
theorem readDigits?_eq (value : Nat) (cs : List Char) :
    readDigits? value cs =
      if cs.all Char.isDigit then some (Nat.ofDigitChars 10 cs value) else none := by
  induction cs generalizing value with
  | nil => simp [readDigits?]
  | cons c rest ih =>
    by_cases hc : c.isDigit = true
    · have hdigit : digit? c = some (c.toNat - '0'.toNat) := by rw [digit?_eq, if_pos hc]
      rw [readDigits?, hdigit, Option.bind_some, ih, List.all_cons, hc, Bool.true_and,
        Nat.ofDigitChars_cons]
    · have hdigit : digit? c = none := by rw [digit?_eq, if_neg hc]
      simp [readDigits?, hdigit, hc]

/-! ### Texts of integers -/

/-- One or more ASCII digits. -/
def IsNumeral (digits : List Char) : Prop :=
  digits ≠ [] ∧ ∀ c ∈ digits, '0' ≤ c ∧ c ≤ '9'

/-- The value of digits in base ten, of which the last one counts ones. -/
def numeralValue (digits : List Char) : Nat :=
  Nat.ofDigits 10 (digits.reverse.map fun c ↦ c.toNat - '0'.toNat)

/-- A character sequence is a way to write an integer. -/
inductive Denotes : List Char → Int → Prop
  | unsigned {digits : List Char} (hdigits : IsNumeral digits) :
      Denotes digits (numeralValue digits)
  | positive {digits : List Char} (hdigits : IsNumeral digits) :
      Denotes ('+' :: digits) (numeralValue digits)
  | negative {digits : List Char} (hdigits : IsNumeral digits) :
      Denotes ('-' :: digits) (-(numeralValue digits : Int))

/-- Going through digits from the left gives their value. -/
theorem ofDigitChars_eq_numeralValue (digits : List Char) :
    Nat.ofDigitChars 10 digits 0 = numeralValue digits := by
  induction digits using List.reverseRecOn with
  | nil => rfl
  | append_singleton digits c ih =>
    rw [Nat.ofDigitChars_append, ih, Nat.ofDigitChars_cons, Nat.ofDigitChars_nil, numeralValue,
      numeralValue, List.reverse_append, List.reverse_singleton, List.singleton_append,
      List.map_cons, Nat.ofDigits_cons, add_comm]

theorem readNat?_eq_some_iff {digits : List Char} {value : Nat} :
    readNat? digits = some value ↔ IsNumeral digits ∧ value = numeralValue digits := by
  rw [readNat?, readDigits?_eq, ofDigitChars_eq_numeralValue, IsNumeral]
  simp only [← isDigit_iff, ← List.all_eq_true]
  cases digits with
  | nil => simp
  | cons c rest => cases (c :: rest).all Char.isDigit <;> simp [eq_comm]

theorem readNat?_toDigits (magnitude : Nat) :
    readNat? (Nat.toDigits 10 magnitude) = some magnitude := by
  have hall : (Nat.toDigits 10 magnitude).all Char.isDigit = true :=
    List.all_eq_true.mpr fun c hc ↦ Nat.isDigit_of_mem_toDigits (by decide) (by decide) hc
  simp [readNat?, readDigits?_eq, hall, Nat.toDigits_ne_nil]

/-- A sequence that begins with a digit has no sign. -/
theorem read?_of_isDigit {c : Char} (hc : c.isDigit = true) (rest : List Char) :
    read? (c :: rest) = (readNat? (c :: rest)).map Int.ofNat := by
  unfold read?
  split
  · rename_i heq
    obtain ⟨rfl, -⟩ := List.cons.inj heq
    exact absurd hc (by decide)
  · rename_i heq
    obtain ⟨rfl, -⟩ := List.cons.inj heq
    exact absurd hc (by decide)
  · rfl

/-- A text is read exactly if it denotes an integer, and then as this integer. -/
theorem read?_eq_some_iff {cs : List Char} {value : Int} :
    read? cs = some value ↔ Denotes cs value := by
  constructor
  · intro hread
    unfold read? at hread
    split at hread
    · obtain ⟨magnitude, hmagnitude, rfl⟩ := Option.map_eq_some_iff.mp hread
      obtain ⟨hdigits, rfl⟩ := readNat?_eq_some_iff.mp hmagnitude
      exact .positive hdigits
    · rename_i digits
      cases hmagnitude : readNat? digits with
      | none => simp [hmagnitude] at hread
      | some magnitude =>
        obtain ⟨hdigits, rfl⟩ := readNat?_eq_some_iff.mp hmagnitude
        obtain rfl : -(numeralValue digits : Int) = value := by simpa [hmagnitude] using hread
        exact .negative hdigits
    · obtain ⟨magnitude, hmagnitude, rfl⟩ := Option.map_eq_some_iff.mp hread
      obtain ⟨hdigits, rfl⟩ := readNat?_eq_some_iff.mp hmagnitude
      exact .unsigned hdigits
  · intro hdenotes
    cases hdenotes with
    | unsigned hdigits =>
      obtain ⟨c, rest, rfl⟩ := List.exists_cons_of_ne_nil hdigits.1
      rw [read?_of_isDigit (isDigit_iff.mpr (hdigits.2 c List.mem_cons_self)),
        readNat?_eq_some_iff.mpr ⟨hdigits, rfl⟩]
      rfl
    | positive hdigits => rw [read?, readNat?_eq_some_iff.mpr ⟨hdigits, rfl⟩]; rfl
    | negative hdigits => rw [read?, readNat?_eq_some_iff.mpr ⟨hdigits, rfl⟩]; rfl

/-- What is written is read back. -/
theorem read?_write (value : Int) : read? (write value).toList = some value := by
  cases value with
  | ofNat magnitude =>
    have hread := readNat?_toDigits magnitude
    rw [write, String.toList_ofList]
    cases hdigits : Nat.toDigits 10 magnitude with
    | nil => exact absurd hdigits Nat.toDigits_ne_nil
    | cons c rest =>
      have hc : c.isDigit = true := Nat.isDigit_of_mem_toDigits (by decide) (by decide)
        (hdigits ▸ List.mem_cons_self : c ∈ Nat.toDigits 10 magnitude)
      rw [read?_of_isDigit hc, ← hdigits, hread]
      rfl
  | negSucc magnitude =>
    rw [write, String.toList_ofList, read?, readNat?_toDigits]
    rfl

theorem Bounds.holds_iff {bounds : Bounds} {value : Int} :
    bounds.holds value = true ↔ bounds.least ≤ value ∧ value ≤ bounds.greatest := by
  simp [Bounds.holds]

/-- An integer of a range is read from the texts that denote it, and from no others. -/
theorem readWithin?_eq_some_iff {bounds : Bounds} {text : String} {value : Int} :
    readWithin? bounds text = some value ↔
      Denotes text.toList value ∧ bounds.least ≤ value ∧ value ≤ bounds.greatest := by
  rw [readWithin?, Option.filter_eq_some_iff, read?_eq_some_iff, Bounds.holds_iff]

/-- A text denotes one integer only. -/
theorem Denotes.unique {cs : List Char} {value other : Int} (hvalue : Denotes cs value)
    (hother : Denotes cs other) : value = other :=
  Option.some.inj ((read?_eq_some_iff.mpr hvalue).symm.trans (read?_eq_some_iff.mpr hother))

/-- The text written for an integer denotes it. -/
theorem denotes_write (value : Int) : Denotes (write value).toList value :=
  read?_eq_some_iff.mp (read?_write value)

end Connectors.Integer
