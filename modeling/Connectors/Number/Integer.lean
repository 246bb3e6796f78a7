/-!
# Integers as text

An integer is written as an optional sign and at least one ASCII digit (`Integer.read?`). A bounded
integer is rejected when it lies outside its range and is never wrapped (`Integer.readWithin?`).
-/

set_option autoImplicit false
set_option relaxedAutoImplicit false

namespace Connectors.Integer

/-- The value of an ASCII digit. -/
def digit? (c : Char) : Option Nat :=
  if '0' ≤ c ∧ c ≤ '9' then some (c.toNat - '0'.toNat) else none

/-- The number that `digits` continue, of which `value` was read before. -/
def readDigits? (value : Nat) : List Char → Option Nat
  | [] => some value
  | c :: rest => (digit? c).bind fun digit ↦ readDigits? (10 * value + digit) rest

/-- Reads one or more digits. -/
def readNat? (digits : List Char) : Option Nat :=
  if digits.isEmpty then none else readDigits? 0 digits

/-- Reads an optional sign and one or more digits. -/
def read? : List Char → Option Int
  | '+' :: digits => (readNat? digits).map Int.ofNat
  | '-' :: digits => (readNat? digits).map fun value ↦ -(value : Int)
  | digits => (readNat? digits).map Int.ofNat

/-- A range of integers, ends included. -/
structure Bounds where
  /-- The least integer of the range. -/
  least : Int
  /-- The greatest integer of the range. -/
  greatest : Int
deriving DecidableEq, Repr

/-- Whether an integer lies in a range. -/
def Bounds.holds (bounds : Bounds) (value : Int) : Bool :=
  bounds.least ≤ value && value ≤ bounds.greatest

/-- The integers of 32 bits with a sign. -/
def word32 : Bounds := ⟨-2147483648, 2147483647⟩

/-- The integers of 64 bits with a sign. -/
def word64 : Bounds := ⟨-9223372036854775808, 9223372036854775807⟩

/-- The integers of 64 bits without a sign. -/
def unsigned64 : Bounds := ⟨0, 18446744073709551615⟩

/-- Reads an integer of a range. -/
def readWithin? (bounds : Bounds) (text : String) : Option Int :=
  (read? text.toList).filter bounds.holds

/-- Writes an integer with its digits and, if it is negative, a sign. -/
def write (value : Int) : String :=
  match value with
  | .ofNat magnitude => String.ofList (Nat.toDigits 10 magnitude)
  | .negSucc magnitude => String.ofList ('-' :: Nat.toDigits 10 (magnitude + 1))

end Connectors.Integer
