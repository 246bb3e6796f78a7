/-!
# Binary floating point numbers of 64 bits

A number is a sign and a code (`Binary64`), where the code holds the exponent field and the fraction
field of the usual encoding. All arithmetic is on natural numbers: the magnitude of a code is
`significand * 2 ^ exponent / 2 ^ 1074`, and `nearest` finds the code closest to a quotient of two
natural numbers, a tie going to the even one. Reading a decimal (`ofDecimal`), the product and the
quotient of two numbers are each one exact quotient followed by `nearest`.

`shortest?` gives the fewest decimal digits that read back as the number, and of those the closest
to it. `Binary64.text` lays them out: plain digits for decimal exponents from -5 to 15, otherwise
one digit before the point and a signed exponent after `e`.
-/

set_option autoImplicit false
set_option relaxedAutoImplicit false

namespace Connectors

/-- A floating point number: its sign and its exponent and fraction fields. -/
structure Binary64 where
  /-- Whether the sign is minus. -/
  negative : Bool
  /-- The exponent field followed by the 52 bits of the fraction. -/
  code : Nat
deriving DecidableEq, Repr, Inhabited

namespace Binary64

/-- A power of two. -/
def twoTo (power : Nat) : Nat := Nat.pow 2 power

/-- A power of ten. -/
def tenTo (power : Nat) : Nat := Nat.pow 10 power

/-- The code of the infinite numbers; every larger one is not a number. -/
def infiniteCode : Nat := 2047 * twoTo 52

/-- Whether the number is neither infinite nor undefined. -/
def isFinite (x : Binary64) : Bool :=
  x.code < infiniteCode

/-- The significand of a code. -/
def significand (code : Nat) : Nat :=
  if code < twoTo 52 then code else code % twoTo 52 + twoTo 52

/-- The power of two that goes with `significand`, counted from `-1074`. -/
def exponent (code : Nat) : Nat :=
  code / twoTo 52 - 1

/-- The quotient of two natural numbers, rounded to the nearest one and a tie to the even one. -/
def roundQuotient (numerator denominator : Nat) : Nat :=
  let quotient := numerator / denominator
  let twice := 2 * (numerator % denominator)
  if twice < denominator ∨ (twice = denominator ∧ quotient % 2 = 0) then quotient else quotient + 1

/-- The code nearest to a quotient of two natural numbers. -/
def nearest (numerator denominator : Nat) : Nat :=
  let scaled := numerator * twoTo 1074
  let shift := Nat.log2 (scaled / denominator) - 52
  min infiniteCode (shift * twoTo 52 + roundQuotient scaled (denominator * twoTo shift))

/-- How many decimal digits a natural number has; zero has one. -/
def digitCount (value : Nat) : Nat :=
  (Nat.toDigits 10 value).length

/-- The code nearest to `digits * 10 ^ scale`. Beyond the bounds the answer is known beforehand. -/
def ofDecimal (digits : Nat) (scale : Int) : Nat :=
  let size := digitCount digits + scale
  if digits = 0 ∨ size < -400 then 0
  else if size > 400 then infiniteCode
  else if 0 ≤ scale then nearest (digits * tenTo scale.toNat) 1
  else nearest digits (tenTo (-scale).toNat)

/-- The code nearest to the product of two finite magnitudes. -/
def mul (a b : Nat) : Nat :=
  nearest (significand a * significand b * twoTo (exponent a + exponent b)) (twoTo 2148)

/-- The code nearest to the quotient of a finite magnitude and one that is not zero. -/
def div (a b : Nat) : Nat :=
  nearest (significand a * twoTo (exponent a)) (significand b * twoTo (exponent b))

/-! ### The shortest decimal -/

/-- A decimal of `count` digits that reads back as `code`, if one of the two next to the value
`numerator / denominator` does; `scale` is the decimal exponent of the value's first digit. -/
def decimalOf? (code numerator denominator : Nat) (scale : Int) (count : Nat) :
    Option (Nat × Int) :=
  let unit := scale - (count - 1 : Nat)
  let up := if 0 ≤ unit then 1 else tenTo (-unit).toNat
  let down := if 0 ≤ unit then tenTo unit.toNat else 1
  let low := numerator * up / (denominator * down)
  let lowFits := ofDecimal low unit == code
  let highFits := ofDecimal (low + 1) unit == code
  let remainder := 2 * (numerator * up % (denominator * down))
  let lowCloser := remainder < denominator * down
    || (remainder == denominator * down && low % 2 == 0)
  if lowFits && (lowCloser || !highFits) then some (low, unit)
  else if highFits then some (low + 1, unit)
  else none

/-- The fewest digits that read back as the code, with their decimal exponent. -/
def shortest? (code : Nat) : Option (Nat × Int) :=
  let numerator := significand code * twoTo (exponent code)
  let denominator := twoTo 1074
  let scale : Int := digitCount (numerator * tenTo 340 / denominator) - 341
  (List.range' 1 17).findSome? (decimalOf? code numerator denominator scale)

/-- Removes the zeros at the end of a digit sequence. -/
def stripZeros (digits : List Char) : List Char :=
  (digits.reverse.dropWhile (· = '0')).reverse

/-- Lays out the digits of a number whose first digit has the decimal exponent `scale`. -/
def layout (digits : List Char) (scale : Int) : List Char :=
  if 0 ≤ scale ∧ scale ≤ 15 then
    let places := scale.toNat + 1
    let whole := digits.take places ++ List.replicate (places - digits.length) '0'
    let fraction := digits.drop places
    whole ++ '.' :: (if fraction.isEmpty then ['0'] else fraction)
  else if -5 ≤ scale ∧ scale < 0 then
    '0' :: '.' :: List.replicate ((-scale).toNat - 1) '0' ++ digits
  else
    let fraction := digits.drop 1
    digits.take 1 ++ (if fraction.isEmpty then [] else '.' :: fraction) ++ 'e'
      :: (if scale < 0 then '-' else '+') :: Nat.toDigits 10 scale.natAbs

/-- The text of a finite number. -/
def text (x : Binary64) : String :=
  let magnitude :=
    match shortest? x.code with
    | some (digits, unit) =>
      if digits = 0 then ['0', '.', '0']
      else layout (stripZeros (Nat.toDigits 10 digits)) (unit + (digitCount digits - 1 : Nat))
    | none => ['0', '.', '0']
  String.ofList (if x.negative then '-' :: magnitude else magnitude)

end Binary64

end Connectors
