import Connectors.Datum
import Connectors.Json.Syntax
import Connectors.Number.Integer

/-!
# The scalars of TOML

Readers for the texts, numbers and times of TOML. A `Reader` takes characters from the front of what
is left and has no answer when they do not have the form it asks for.

A time is data of its own form: a table with the single field `timeField`, which holds the time in
one standard spelling.
-/

set_option autoImplicit false
set_option relaxedAutoImplicit false

namespace Connectors.Toml

/-- A reader of the characters that are left. -/
abbrev Reader (α : Type) : Type := StateT (List Char) Option α

namespace Reader

/-- The characters that are left. -/
def rest : Reader (List Char) := get

/-- No answer. -/
def refuse {α : Type} : Reader α := fun _ ↦ none

/-- Takes one character that has a property. -/
def one (property : Char → Bool) : Reader Char := fun cs ↦
  match cs with
  | c :: rest => if property c then some (c, rest) else none
  | [] => none

/-- Takes the characters that have a property. -/
def takeWhile (property : Char → Bool) : Reader (List Char) := fun cs ↦ some (cs.span property)

/-- Takes the given characters. -/
def exactly (word : List Char) : Reader Unit := fun cs ↦
  if word.isPrefixOf cs then some ((), cs.drop word.length) else none

/-- Whether the given characters come next; takes them if they do. -/
def accept (word : List Char) : Reader Bool := fun cs ↦
  if word.isPrefixOf cs then some (true, cs.drop word.length) else some (false, cs)

/-- Reads with the first reader, or with the second one if that has no answer. -/
def either {α : Type} (first second : Reader α) : Reader α := fun cs ↦
  (first cs).or (second cs)

/-- Reads if there is an answer. -/
def maybe {α : Type} (reader : Reader α) : Reader (Option α) := fun cs ↦
  match reader cs with
  | some (value, rest) => some (some value, rest)
  | none => some (none, cs)

end Reader

open Reader

/-- Whether a character is an ASCII digit. -/
def isDigit (c : Char) : Bool := (Integer.digit? c).isSome

/-- Whether a character is a blank within a line. -/
def isSpace (c : Char) : Bool := c = ' ' || c = '\t'

/-- Whether a character may stand in a comment or a text as it is. -/
def isPlain (c : Char) : Bool := c = '\t' || (0x20 ≤ c.toNat && c.toNat ≠ 0x7F)

/-! ### Texts -/

/-- The number that hexadecimal digits write. -/
def hexNumber? (digits : List Char) : Option Nat :=
  digits.foldlM (fun value c ↦ (Json.hexDigit? c).map (16 * value + ·)) 0

/-- The character that `count` hexadecimal digits name. -/
def hexChar? (count : Nat) (cs : List Char) : Option (Char × Nat) :=
  let digits := cs.take count
  if digits.length < count then none
  else (hexNumber? digits).bind fun code ↦
    if code < 0xD800 ∨ (0xE000 ≤ code ∧ code < 0x110000) then some (Char.ofNat code, count + 1)
    else none

/-- The character that an escape names, from what follows its backslash, and how many characters
the escape takes. -/
def escape? : List Char → Option (Char × Nat)
  | 'b' :: _ => some ('\x08', 1)
  | 't' :: _ => some ('\t', 1)
  | 'n' :: _ => some ('\n', 1)
  | 'f' :: _ => some ('\x0c', 1)
  | 'r' :: _ => some ('\r', 1)
  | '"' :: _ => some ('"', 1)
  | '\\' :: _ => some ('\\', 1)
  | 'u' :: rest => hexChar? 4 rest
  | 'U' :: rest => hexChar? 8 rest
  | _ => none

/-- Reads the rest of a text on one line with escapes. `skip` counts the characters of an escape
that are still to be passed over, and `read` holds what was read, backwards. -/
def basicRest (skip : Nat) (read : List Char) : List Char → Option (String × List Char)
  | [] => none
  | c :: rest =>
    match skip with
    | skip + 1 => basicRest skip read rest
    | 0 =>
      if c = '"' then some (String.ofList read.reverse, rest)
      else if c = '\\' then
        match escape? rest with
        | some (c, width) => basicRest width (c :: read) rest
        | none => none
      else if isPlain c then basicRest 0 (c :: read) rest
      else none

/-- Reads the rest of a text on one line without escapes. -/
def literalRest (read : List Char) : List Char → Option (String × List Char)
  | [] => none
  | c :: rest =>
    if c = '\'' then some (String.ofList read.reverse, rest)
    else if isPlain c then literalRest (c :: read) rest
    else none

/-- What is left after a line end, if one comes first. -/
def lineEnd? : List Char → Option (List Char)
  | '\n' :: rest => some rest
  | '\r' :: '\n' :: rest => some rest
  | _ => none

/-- How many blanks and line ends follow a backslash that ends a line, if it does. -/
def continuation? (cs : List Char) : Option Nat :=
  let afterBlanks := cs.dropWhile isSpace
  (lineEnd? afterBlanks).map fun rest ↦
    cs.length - (rest.dropWhile fun c ↦ isSpace c || c = '\n' || c = '\r').length

/-- Reads the rest of a text over several lines, up to three closing quotes. Two more quotes before
them belong to the text. -/
def multilineRest (quoteMark : Char) (escapes : Bool) (skip : Nat) (read : List Char) :
    List Char → Option (String × List Char)
  | [] => none
  | c :: rest =>
    match skip with
    | skip + 1 => multilineRest quoteMark escapes skip read rest
    | 0 =>
      let quotes := ((c :: rest).takeWhile (· = quoteMark)).length
      if 3 ≤ quotes then
        if quotes ≤ 5 then
          some (String.ofList (List.replicate (quotes - 3) quoteMark ++ read).reverse,
            (c :: rest).drop quotes)
        else none
      else if escapes ∧ c = '\\' then
        match escape? rest, continuation? rest with
        | some (c, width), _ => multilineRest quoteMark escapes width (c :: read) rest
        | none, some width => multilineRest quoteMark escapes width read rest
        | none, none => none
      else if c = '\r' then
        if rest.head? = some '\n' then multilineRest quoteMark escapes 0 read rest else none
      else if c = '\n' ∨ isPlain c then multilineRest quoteMark escapes 0 (c :: read) rest
      else none

/-- A text over several lines, after its opening quotes. A line end right after them is no part of
it. -/
def multiline (quoteMark : Char) (escapes : Bool) : Reader String := fun cs ↦
  multilineRest quoteMark escapes 0 [] ((lineEnd? cs).getD cs)

/-- A text on one line. -/
def lineText : Reader String := do
  if ← accept ['"'] then basicRest 0 []
  else
    exactly ['\'']
    literalRest []

/-- A text. -/
def text : Reader String := do
  if ← accept ['"', '"', '"'] then multiline '"' true
  else if ← accept ['\'', '\'', '\''] then multiline '\'' false
  else lineText

/-! ### Numbers -/

/-- Digits, where an underscore may stand between each two of them. -/
def digitsRest (property : Char → Bool) : List Char → List Char × List Char
  | [] => ([], [])
  | '_' :: c :: rest =>
    if property c then
      let (digits, after) := digitsRest property rest
      (c :: digits, after)
    else ([], '_' :: c :: rest)
  | c :: rest =>
    if property c then
      let (digits, after) := digitsRest property rest
      (c :: digits, after)
    else ([], c :: rest)

/-- One or more digits with underscores between them. -/
def digits (property : Char → Bool) : Reader (List Char) := do
  let first ← one property
  let others ← fun cs ↦ some (digitsRest property cs)
  return first :: others

/-- Whether a minus comes first; a plus is taken as well. -/
def sign : Reader Bool := do
  if ← accept ['-'] then return true
  let _ ← accept ['+']
  return false

/-- The digits of a decimal number, which start with a zero only if that is all. -/
def decimalDigits : Reader (List Char) := do
  if ← accept ['0'] then return ['0'] else digits isDigit

/-- An integer of 64 bits from its sign and digits in a base. -/
def boundedInteger (negative : Bool) (base : Nat) (digits : List Char) : Reader Datum :=
  let magnitude := digits.foldl (fun value c ↦ base * value + (Json.hexDigit? c).getD 0) 0
  let value : Int := if negative then -(magnitude : Int) else magnitude
  if Integer.word64.holds value then return .int value else refuse

/-- An integer. -/
def integer : Reader Datum := do
  if ← accept ['0', 'x'] then
    boundedInteger false 16 (← digits fun c ↦ (Json.hexDigit? c).isSome)
  else if ← accept ['0', 'o'] then
    boundedInteger false 8 (← digits fun c ↦ '0' ≤ c && c ≤ '7')
  else if ← accept ['0', 'b'] then
    boundedInteger false 2 (← digits fun c ↦ c = '0' || c = '1')
  else
    let negative ← sign
    boundedInteger negative 10 (← decimalDigits)

/-- The exponent of a floating point number. -/
def exponent : Reader Int := do
  let _ ← one fun c ↦ c = 'e' || c = 'E'
  let negative ← sign
  let value := (Integer.readDigits? 0 (← digits isDigit)).getD 0
  return if negative then -(value : Int) else value

/-- A floating point number. One that is too large is refused unless it is negative. -/
def float : Reader Datum := do
  let negative ← sign
  if ← accept "inf".toList then return .float ⟨negative, Binary64.infiniteCode⟩
  if ← accept "nan".toList then return .float ⟨negative, Binary64.infiniteCode + 1⟩
  let whole ← decimalDigits
  let fraction ← maybe (do exactly ['.']; digits isDigit)
  let power ← if fraction.isSome then maybe exponent else (do return some (← exponent))
  let fraction := fraction.getD []
  let value := (Integer.readDigits? 0 (whole ++ fraction)).getD 0
  let code := Binary64.ofDecimal value (power.getD 0 - fraction.length)
  if code = Binary64.infiniteCode ∧ ¬negative then refuse else return .float ⟨negative, code⟩

/-! ### Times -/

/-- The name of the field that a time is kept in. -/
def timeField : String := "$__toml_private_datetime"

/-- A number of a fixed count of digits within bounds, as it is written. -/
def fixed (count least greatest : Nat) : Reader (List Char) := do
  let digits ← (List.range count).mapM fun _ ↦ one isDigit
  let value := (Integer.readDigits? 0 digits).getD 0
  if least ≤ value ∧ value ≤ greatest then return digits else refuse

/-- How many days a month has. -/
def daysIn (year month : Nat) : Nat :=
  if month = 2 then
    if year % 4 = 0 ∧ (year % 100 ≠ 0 ∨ year % 400 = 0) then 29 else 28
  else if month = 4 ∨ month = 6 ∨ month = 9 ∨ month = 11 then 30
  else 31

/-- A date. -/
def date : Reader (List Char) := do
  let year ← fixed 4 0 9999
  exactly ['-']
  let month ← fixed 2 1 12
  exactly ['-']
  let number (cs : List Char) : Nat := (Integer.readDigits? 0 cs).getD 0
  let day ← fixed 2 1 (daysIn (number year) (number month))
  return year ++ '-' :: month ++ '-' :: day

/-- A time of day, its fraction cut off after nine digits and without zeros at its end. -/
def timeOfDay : Reader (List Char) := do
  let hour ← fixed 2 0 23
  exactly [':']
  let minute ← fixed 2 0 59
  exactly [':']
  let second ← fixed 2 0 60
  let fraction ← maybe (do
    exactly ['.']
    let first ← one isDigit
    let others ← takeWhile isDigit
    return first :: others)
  let shown := Binary64.stripZeros ((fraction.getD []).take 9)
  return hour ++ ':' :: minute ++ ':' :: second
    ++ (if shown.isEmpty then [] else '.' :: shown)

/-- The distance of a time from the standard one. -/
def offset : Reader (List Char) := do
  if (← accept ['Z']) || (← accept ['z']) then return ['Z']
  let mark ← one fun c ↦ c = '+' || c = '-'
  let hour ← fixed 2 0 23
  exactly [':']
  let minute ← fixed 2 0 59
  return mark :: hour ++ ':' :: minute

/-- A date, a time of day, or both. -/
def time : Reader Datum := do
  let shown ← either (do
      let day ← date
      let clock ← maybe (do
        let _ ← one fun c ↦ c = 'T' || c = 't' || c = ' '
        let clock ← timeOfDay
        return 'T' :: clock ++ ((← maybe offset).getD []))
      return day ++ clock.getD [])
    timeOfDay
  return .table [(timeField, .text (String.ofList shown))]

/-- A value that is neither a list nor a table. -/
def scalar : Reader Datum := fun cs ↦
  match cs with
  | '"' :: _ | '\'' :: _ => (do return .text (← text) : Reader Datum) cs
  | 't' :: _ => (do exactly "true".toList; return .bool true : Reader Datum) cs
  | 'f' :: _ => (do exactly "false".toList; return .bool false : Reader Datum) cs
  | _ => either time (either float integer) cs

end Connectors.Toml
