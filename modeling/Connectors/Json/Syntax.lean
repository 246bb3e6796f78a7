import Connectors.Number.Integer

/-!
# The syntax of JSON

`Json.parse?` reads a whole text as one JSON value. The tree it returns keeps what the syntax alone
does not settle: a number stays the digits it was written with, an object keeps its members in the
order written, repetitions included, and a text is present only if its escapes name characters. A
half of a surrogate pair on its own is well formed but names none, so a reader that has no use for
such a text can still pass over it.
-/

set_option autoImplicit false
set_option relaxedAutoImplicit false

namespace Connectors

/-- A number as written. -/
structure Json.Numeral where
  /-- Whether a minus sign comes first. -/
  negative : Bool
  /-- The digits before the point. -/
  whole : List Char
  /-- The digits after the point, if there is one. -/
  fraction : Option (List Char)
  /-- Whether the exponent is negative, and its digits. -/
  exponent : Option (Bool × List Char)
deriving DecidableEq, Repr

/-- A JSON value as written. -/
inductive Json where
  /-- The word `null`. -/
  | null
  /-- A truth value. -/
  | bool (value : Bool)
  /-- A number. -/
  | number (numeral : Json.Numeral)
  /-- A text, absent if an escape in it names no character. -/
  | string (value : Option String)
  /-- An array. -/
  | array (items : List Json)
  /-- An object, its members in the order written. -/
  | object (members : List (Option String × Json))
deriving Inhabited, Repr

namespace Json

/-- What follows the white space at the start. -/
def skipSpace (cs : List Char) : List Char :=
  cs.dropWhile fun c ↦ c = ' ' || c = '\t' || c = '\n' || c = '\r'

/-! ### Texts -/

/-- The value of a hexadecimal digit. -/
def hexDigit? (c : Char) : Option Nat :=
  if '0' ≤ c ∧ c ≤ '9' then some (c.toNat - '0'.toNat)
  else if 'a' ≤ c ∧ c ≤ 'f' then some (c.toNat - 'a'.toNat + 10)
  else if 'A' ≤ c ∧ c ≤ 'F' then some (c.toNat - 'A'.toNat + 10)
  else none

/-- The value of four hexadecimal digits. -/
def hexUnit? (a b c d : Char) : Option Nat := do
  let a ← hexDigit? a
  let b ← hexDigit? b
  let c ← hexDigit? c
  let d ← hexDigit? d
  return ((a * 16 + b) * 16 + c) * 16 + d

/-- Whether a code unit is the first half of a surrogate pair. -/
def isHighHalf (unit : Nat) : Bool := 0xD800 ≤ unit && unit < 0xDC00

/-- Whether a code unit is the second half of a surrogate pair. -/
def isLowHalf (unit : Nat) : Bool := 0xDC00 ≤ unit && unit < 0xE000

/-- The character that a letter after a backslash stands for. -/
def escaped? (c : Char) : Option Char :=
  match c with
  | '"' => some '"'
  | '\\' => some '\\'
  | '/' => some '/'
  | 'b' => some '\x08'
  | 'f' => some '\x0c'
  | 'n' => some '\n'
  | 'r' => some '\r'
  | 't' => some '\t'
  | _ => none

/-- What an escape means, given the characters after its backslash: the character it names, if it
names one, and how many characters it takes. -/
def escapeAt : List Char → Option (Option Char × Nat)
  | 'u' :: a :: b :: c :: d :: rest =>
    match hexUnit? a b c d with
    | none => none
    | some unit =>
      if isLowHalf unit then some (none, 5)
      else if isHighHalf unit then
        match rest with
        | '\\' :: 'u' :: e :: f :: g :: h :: _ =>
          match hexUnit? e f g h with
          | some second =>
            if isLowHalf second then
              some (some (Char.ofNat (0x10000 + (unit - 0xD800) * 0x400 + (second - 0xDC00))), 11)
            else some (none, 5)
          | none => none
        | _ => some (none, 5)
      else some (some (Char.ofNat unit), 5)
  | c :: _ => (escaped? c).map fun c ↦ (some c, 1)
  | [] => none

/-- Reads the rest of a text up to its closing quote. `skip` counts the characters of an escape that
are still to be passed over, `read` holds what was read, backwards, and `named` says whether all
escapes so far named characters. -/
def readString (skip : Nat) (read : List Char) (named : Bool) :
    List Char → Option (Option String × List Char)
  | [] => none
  | c :: rest =>
    match skip with
    | skip + 1 => readString skip read named rest
    | 0 =>
      if c = '"' then some (if named then some (String.ofList read.reverse) else none, rest)
      else if c = '\\' then
        match escapeAt rest with
        | none => none
        | some (some c, width) => readString width (c :: read) named rest
        | some (none, width) => readString width read false rest
      else if c.toNat < 0x20 then none
      else readString 0 (c :: read) named rest

/-! ### Numbers -/

/-- Splits off the digits at the start. -/
def takeDigits (cs : List Char) : List Char × List Char :=
  cs.span fun c ↦ (Integer.digit? c).isSome

/-- Reads the digits after a point, if there is one. -/
def readFraction (cs : List Char) : Option (Option (List Char) × List Char) :=
  match cs with
  | '.' :: rest =>
    let (digits, after) := takeDigits rest
    if digits.isEmpty then none else some (some digits, after)
  | _ => some (none, cs)

/-- Reads an exponent, if there is one. -/
def readExponent (cs : List Char) : Option (Option (Bool × List Char) × List Char) :=
  match cs with
  | 'e' :: rest | 'E' :: rest =>
    let (negative, unsigned) :=
      match rest with
      | '+' :: rest => (false, rest)
      | '-' :: rest => (true, rest)
      | _ => (false, rest)
    let (digits, after) := takeDigits unsigned
    if digits.isEmpty then none else some (some (negative, digits), after)
  | _ => some (none, cs)

/-- Reads a number whose sign was read before. A zero at its start stands alone. -/
def readNumber (negative : Bool) (cs : List Char) : Option (Json × List Char) := do
  let (whole, rest) := takeDigits cs
  if whole.isEmpty ∨ (whole.head? = some '0' ∧ whole.length > 1) then none
  let (fraction, rest) ← readFraction rest
  let (exponent, rest) ← readExponent rest
  return (.number ⟨negative, whole, fraction, exponent⟩, rest)

/-! ### Values -/

/-- Reads a fixed word. -/
def readWord (word : List Char) (value : Json) (cs : List Char) : Option (Json × List Char) :=
  match word, cs with
  | [], cs => some (value, cs)
  | w :: word, c :: cs => if w = c then readWord word value cs else none
  | _ :: _, [] => none

mutual

/-- Reads a value. Each step takes at least one character, so a bound of the length of the text is
never reached. -/
def readValue (bound : Nat) (cs : List Char) : Option (Json × List Char) :=
  match bound with
  | 0 => none
  | bound + 1 =>
    match skipSpace cs with
    | '\x7b' :: rest =>
      match skipSpace rest with
      | '\x7d' :: rest => some (.object [], rest)
      | rest => readMembers bound [] rest
    | '[' :: rest =>
      match skipSpace rest with
      | ']' :: rest => some (.array [], rest)
      | rest => readItems bound [] rest
    | '"' :: rest => (readString 0 [] true rest).map fun (text, rest) ↦ (.string text, rest)
    | '-' :: rest => readNumber true rest
    | 't' :: rest => readWord "rue".toList (.bool true) rest
    | 'f' :: rest => readWord "alse".toList (.bool false) rest
    | 'n' :: rest => readWord "ull".toList .null rest
    | rest => readNumber false rest

/-- Reads the items of an array up to its closing bracket; `read` holds those before, backwards. -/
def readItems (bound : Nat) (read : List Json) (cs : List Char) : Option (Json × List Char) :=
  match bound with
  | 0 => none
  | bound + 1 =>
    match readValue bound cs with
    | none => none
    | some (item, rest) =>
      match skipSpace rest with
      | ',' :: rest => readItems bound (item :: read) rest
      | ']' :: rest => some (.array (item :: read).reverse, rest)
      | _ => none

/-- Reads the members of an object up to its closing brace; `read` holds those before, backwards. -/
def readMembers (bound : Nat) (read : List (Option String × Json)) (cs : List Char) :
    Option (Json × List Char) :=
  match bound with
  | 0 => none
  | bound + 1 =>
    match skipSpace cs with
    | '"' :: rest =>
      match readString 0 [] true rest with
      | none => none
      | some (name, rest) =>
        match skipSpace rest with
        | ':' :: rest =>
          match readValue bound rest with
          | none => none
          | some (value, rest) =>
            match skipSpace rest with
            | ',' :: rest => readMembers bound ((name, value) :: read) rest
            | '\x7d' :: rest => some (.object ((name, value) :: read).reverse, rest)
            | _ => none
        | _ => none
    | _ => none

end

/-- Reads a text that holds one value and nothing else. -/
def parse? (text : String) : Option Json :=
  let cs := text.toList
  match readValue (2 * cs.length + 2) cs with
  | some (value, rest) => if (skipSpace rest).isEmpty then some value else none
  | none => none

end Json

end Connectors
