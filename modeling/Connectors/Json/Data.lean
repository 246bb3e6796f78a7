import Connectors.Datum
import Connectors.Json.Syntax

/-!
# JSON values as data

`Json.datum?` turns a JSON value as written into a `Datum`. Of two members of one name the last one
stays, and the value is refused if a text in it names no characters, a number is too large or it
nests too deeply.

A number without point and exponent that fits 64 bits is an integer. Every other number is read by
a cheap rule (`Json.Numeral.magnitude?`): as many digits as fit 64 bits are scaled by one power of
ten, with one rounding for the digits and one for the product or quotient. The result can differ
from the nearest number in its last digit, and it is refused if it is infinite.

`Datum.json` writes a value without any space.
-/

set_option autoImplicit false
set_option relaxedAutoImplicit false

namespace Connectors

namespace Json.Numeral

/-- The greatest natural number of 64 bits. -/
def wordLimit : Nat := 18446744073709551615

/-- Continues a number with digits while it fits 64 bits; also gives the digits that are left. -/
def takeWord (value : Nat) : List Char → Nat × List Char
  | [] => (value, [])
  | c :: rest =>
    let next := 10 * value + (c.toNat - '0'.toNat)
    if next > wordLimit then (value, c :: rest) else takeWord next rest

/-- Scales a magnitude by a power of ten, in steps of at most `10 ^ 308`. -/
def scale? (steps : Nat) (code : Nat) (power : Int) : Option Nat :=
  if power.natAbs ≤ 308 then
    let unit := Binary64.ofDecimal (Binary64.tenTo power.natAbs) 0
    if power < 0 then some (Binary64.div code unit)
    else
      let scaled := Binary64.mul code unit
      if scaled < Binary64.infiniteCode then some scaled else none
  else if code = 0 then some 0
  else if 0 ≤ power then none
  else match steps with
    | 0 => some 0
    | steps + 1 =>
      scale? steps (Binary64.div code (Binary64.ofDecimal (Binary64.tenTo 308) 0)) (power + 308)

/-- The magnitude of a number that is not an integer of 64 bits. -/
def magnitude? (numeral : Numeral) : Option Nat :=
  let (word, wholeRest) := takeWord 0 numeral.whole
  let fraction := numeral.fraction.getD []
  let (digits, fractionRest) := takeWord word fraction
  let power : Int := wholeRest.length - (fraction.length - fractionRest.length : Nat)
  match numeral.exponent with
  | none => scale? 8 (Binary64.ofDecimal digits 0) power
  | some (negative, exponent) =>
    let value := (Integer.readDigits? 0 exponent).getD 0
    if value > 2147483647 then if digits = 0 ∨ negative then some 0 else none
    else scale? 8 (Binary64.ofDecimal digits 0) (if negative then power - value else power + value)

/-- The value of a number. A zero with a minus sign is not an integer. -/
def datum? (numeral : Numeral) : Option Datum :=
  let whole := (Integer.readDigits? 0 numeral.whole).getD 0
  let float := numeral.magnitude?.map fun code ↦ Datum.float ⟨numeral.negative, code⟩
  match numeral.fraction, numeral.exponent with
  | none, none =>
    if numeral.negative then
      if 0 < whole ∧ whole ≤ 9223372036854775808 then some (.int (-whole)) else float
    else if whole ≤ wordLimit then some (.int whole) else float
  | _, _ => float

end Json.Numeral

namespace Json

/-- How deeply arrays and objects may nest. -/
def depthLimit : Nat := 127

mutual

/-- The data a JSON value stands for, if it nests no deeper than `depth`. -/
def datumWithin? (depth : Nat) : Json → Option Datum
  | null => some .null
  | bool value => some (.bool value)
  | number numeral => numeral.datum?
  | string value => value.map .text
  | array items =>
    match depth with
    | 0 => none
    | depth + 1 => (itemsWithin? depth items).map .list
  | object members =>
    match depth with
    | 0 => none
    | depth + 1 => (membersWithin? depth [] members).map .table

/-- The data of the items of an array. -/
def itemsWithin? (depth : Nat) : List Json → Option (List Datum)
  | [] => some []
  | item :: rest =>
    match datumWithin? depth item, itemsWithin? depth rest with
    | some item, some rest => some (item :: rest)
    | _, _ => none

/-- The data of the members of an object, written over those read before. -/
def membersWithin? (depth : Nat) (read : List (String × Datum)) :
    List (Option String × Json) → Option (List (String × Datum))
  | [] => some read
  | (name, value) :: rest =>
    match name, datumWithin? depth value with
    | some name, some value => membersWithin? depth (Fields.put name value read) rest
    | _, _ => none

end

/-- The data a JSON value stands for. -/
def datum? (value : Json) : Option Datum :=
  value.datumWithin? depthLimit

end Json

/-! ### Writing -/

namespace Datum

/-- One character of a JSON text. -/
def jsonChar (c : Char) : List Char :=
  match c with
  | '"' => ['\\', '"']
  | '\\' => ['\\', '\\']
  | '\x08' => ['\\', 'b']
  | '\x0c' => ['\\', 'f']
  | '\n' => ['\\', 'n']
  | '\r' => ['\\', 'r']
  | '\t' => ['\\', 't']
  | c =>
    if c.toNat < 0x20 then
      ['\\', 'u', '0', '0', if c.toNat < 0x10 then '0' else '1', Nat.digitChar (c.toNat % 16)]
    else [c]

/-- A text as JSON. -/
def jsonText (text : String) : String :=
  String.ofList ('"' :: text.toList.flatMap jsonChar ++ ['"'])

mutual

/-- A value as JSON. A number that is not finite is written as `null`. -/
def json : Datum → String
  | null => "null"
  | bool true => "true"
  | bool false => "false"
  | int value => Integer.write value
  | float value => if value.isFinite then value.text else "null"
  | text value => jsonText value
  | list [] => "[]"
  | list (item :: rest) => "[" ++ json item ++ jsonItems rest ++ "]"
  | table [] => "\x7b\x7d"
  | table ((name, value) :: rest) =>
    "\x7b" ++ jsonText name ++ ":" ++ json value ++ jsonFields rest ++ "\x7d"

/-- The items after the first one. -/
def jsonItems : List Datum → String
  | [] => ""
  | item :: rest => "," ++ json item ++ jsonItems rest

/-- The fields after the first one. -/
def jsonFields : List (String × Datum) → String
  | [] => ""
  | (name, value) :: rest => "," ++ jsonText name ++ ":" ++ json value ++ jsonFields rest

end

end Datum

end Connectors
