import Connectors.Datum
import Connectors.Number.Integer
import Connectors.Text.Blank
import Connectors.Toml.Scalar

/-!
# Typed values in environment variables

A variable holds text, and `Guess.datum` guesses what is meant: a truth value, a number, a quoted
text, a list in square brackets or a table in braces. The guess has to account for the whole text;
otherwise the text itself is the value.

Within lists and tables a value without quotes ends at a comma or a bracket.
-/

set_option autoImplicit false
set_option relaxedAutoImplicit false

namespace Connectors.Guess

open Toml (Reader)
open Toml.Reader

/-- Whether a character ends a value without quotes. -/
def isMark (c : Char) : Bool :=
  c = ',' || c = '\x7b' || c = '\x7d' || c = '[' || c = ']'

/-- Passes over blanks. -/
def skipSpace : Reader Unit := do
  let _ ← takeWhile Toml.isSpace

/-- What an escape names, from what follows its backslash, and how many characters it takes. -/
def escape? : List Char → Option (Char × Nat)
  | '/' :: _ => some ('/', 1)
  | cs => Toml.escape? cs

/-- Reads the rest of a quoted text. `skip` counts the characters of an escape that are still to be
passed over, and `read` holds what was read, backwards. -/
def quotedRest (skip : Nat) (read : List Char) : List Char → Option (String × List Char)
  | [] => none
  | c :: rest =>
    match skip with
    | skip + 1 => quotedRest skip read rest
    | 0 =>
      if c = '"' then some (String.ofList read.reverse, rest)
      else if c = '\\' then
        match escape? rest with
        | some (c, width) => quotedRest width (c :: read) rest
        | none => none
      else if Toml.isPlain c then quotedRest 0 (c :: read) rest
      else none

/-- A quoted text. -/
def quoted : Reader String := do
  exactly ['"']
  quotedRest 0 []

/-! ### Numbers -/

/-- Splits off the digits at the start. -/
def takeDigits (cs : List Char) : List Char × List Char := cs.span Toml.isDigit

/-- The number that a text with a point writes. -/
def decimal? (text : List Char) : Option Binary64 := do
  let (negative, unsigned) :=
    match text with
    | '-' :: rest => (true, rest)
    | '+' :: rest => (false, rest)
    | rest => (false, rest)
  let (whole, afterWhole) := takeDigits unsigned
  let (fraction, afterFraction) :=
    match afterWhole with
    | '.' :: rest => takeDigits rest
    | rest => ([], rest)
  if whole.isEmpty && fraction.isEmpty then none
  let power ←
    match afterFraction with
    | [] => some (0 : Int)
    | mark :: rest => if mark = 'e' || mark = 'E' then Integer.read? rest else none
  let digits ← Integer.readDigits? 0 (whole ++ fraction)
  return ⟨negative, Binary64.ofDecimal digits (power - fraction.length)⟩

/-- The integers that are taken for such. -/
def integerBounds : Integer.Bounds := ⟨-9223372036854775808, 18446744073709551615⟩

/-- The value of a text without quotes. -/
def plain (text : List Char) : Datum :=
  match if text.contains '.' then decimal? text else none with
  | some number => .float number
  | none =>
    match (Integer.read? text).filter integerBounds.holds with
    | some number => .int number
    | none => .text (String.ofList text)

/-! ### Values -/

/-- The name of an entry of a table. -/
def name : Reader String := do
  match ← rest with
  | '"' :: _ => quoted
  | _ =>
    let bare (c : Char) : Bool := c.isAlphanum || c = '_' || c = '-'
    let first ← one bare
    let others ← takeWhile bare
    return String.ofList (first :: others)

mutual

/-- A value with the blanks around it. -/
def value (bound : Nat) : Reader Datum :=
  match bound with
  | 0 => refuse
  | bound + 1 => do
    skipSpace
    let found ←
      if ← accept "true".toList then pure (.bool true)
      else if ← accept "false".toList then pure (.bool false)
      else match ← rest with
        | '\x7b' :: after => do
          set after
          entries bound []
        | '[' :: after => do
          set after
          items bound []
        | '"' :: _ => do return .text (← quoted)
        | '\'' :: c :: '\'' :: after => do
          set after
          return .text (String.ofList [c])
        | '\'' :: _ => refuse
        | _ => do return plain (Text.trimChars (← takeWhile fun c ↦ !isMark c))
    skipSpace
    return found

/-- The items of a list up to its closing bracket, after those read before, which are given
backwards. -/
def items (bound : Nat) (read : List Datum) : Reader Datum :=
  match bound with
  | 0 => refuse
  | bound + 1 => do
    if ← accept [']'] then return .list read.reverse
    let item ← value bound
    if ← accept [','] then items bound (item :: read)
    else
      exactly [']']
      return .list (item :: read).reverse

/-- The entries of a table up to its closing brace, written over those read before. -/
def entries (bound : Nat) (read : Fields Datum) : Reader Datum :=
  match bound with
  | 0 => refuse
  | bound + 1 => do
    if ← accept ['\x7d'] then return .table read
    skipSpace
    let key ← name
    skipSpace
    exactly ['=']
    skipSpace
    let entry ← value bound
    let read := Fields.put key entry read
    if ← accept [','] then entries bound read
    else
      exactly ['\x7d']
      return .table read

end

/-- The value that a variable's text is guessed to mean. -/
def datum (text : String) : Datum :=
  let cs := text.toList
  match (value (2 * cs.length + 2)).run cs with
  | some (found, []) => found
  | _ => .text text

end Connectors.Guess
