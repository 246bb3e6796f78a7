import Connectors.Toml.Scalar
import Connectors.Toml.Tree

/-!
# TOML documents

`Toml.parse?` reads a whole document as a table of data. A document is a sequence of lines, each of
which is empty or holds a header or a key with its value; a header opens the table that the keys
after it go into.
-/

set_option autoImplicit false
set_option relaxedAutoImplicit false

namespace Connectors.Toml

open Reader

/-- How deeply lists and tables may nest within a value, and names within a key. -/
def depthLimit : Nat := 80

/-- Passes over blanks. -/
def skipSpace : Reader Unit := do
  let _ ← takeWhile isSpace

/-- Passes over a comment, if one comes next. -/
def skipComment : Reader Unit := do
  if ← accept ['#'] then
    let _ ← takeWhile isPlain

/-- Passes over blanks, line ends and comments. -/
def skipLines (bound : Nat) : Reader Unit :=
  match bound with
  | 0 => pure ()
  | bound + 1 => do
    skipSpace
    skipComment
    match lineEnd? (← rest) with
    | some after => do
      set after
      skipLines bound
    | none => pure ()

/-! ### Keys -/

/-- One name of a key. -/
def name : Reader String := do
  match ← rest with
  | '"' :: _ | '\'' :: _ => lineText
  | _ =>
    let bare (c : Char) : Bool := c.isAlphanum || c = '_' || c = '-'
    let first ← one bare
    let others ← takeWhile bare
    return String.ofList (first :: others)

/-- The names that follow a name, each after a point. -/
def moreNames (bound : Nat) : Reader (List String) :=
  match bound with
  | 0 => refuse
  | bound + 1 => do
    skipSpace
    if ← accept ['.'] then
      skipSpace
      let next ← name
      let others ← moreNames bound
      return next :: others
    else return []

/-- A key: its names but the last one, and that one. -/
def key : Reader (List String × String) := do
  skipSpace
  let first ← name
  let others ← moreNames depthLimit
  match (first :: others).reverse with
  | last :: before => return (before.reverse, last)
  | [] => refuse

/-! ### Values -/

mutual

/-- A value. -/
def value (bound depth : Nat) : Reader Tree :=
  match bound with
  | 0 => refuse
  | bound + 1 => do
    match ← rest with
    | '[' :: after =>
      if depth = 0 then refuse
      set after
      items bound (depth - 1) []
    | '\x7b' :: after =>
      if depth = 0 then refuse
      set after
      skipSpace
      if ← accept ['\x7d'] then return .leaf (.table [])
      inlineEntries bound (depth - 1) []
    | _ => return .leaf (← scalar)

/-- The items of a list up to its closing bracket, after those read before, which are given
backwards. -/
def items (bound depth : Nat) (read : List Datum) : Reader Tree :=
  match bound with
  | 0 => refuse
  | bound + 1 => do
    skipLines (← rest).length
    if ← accept [']'] then return .leaf (.list read.reverse)
    let item ← value bound depth
    skipLines (← rest).length
    if ← accept [','] then items bound depth (item.datum :: read)
    else
      exactly [']']
      return .leaf (.list (item.datum :: read).reverse)

/-- The entries of a table within a line up to its closing brace, after those read before. -/
def inlineEntries (bound depth : Nat) (read : List (String × Tree)) : Reader Tree :=
  match bound with
  | 0 => refuse
  | bound + 1 => do
    let (path, last) ← key
    skipSpace
    exactly ['=']
    skipSpace
    let entry ← value bound depth
    skipSpace
    match Tree.addValue path last entry .header read with
    | none => refuse
    | some entries =>
      if ← accept [','] then inlineEntries bound depth entries
      else
        exactly ['\x7d']
        return .leaf (Tree.table .header entries).datum

end

/-! ### Lines -/

/-- A document while it is read: its entries, and the header that the next keys belong to. -/
structure Progress where
  /-- The entries of the document. -/
  entries : List (String × Tree)
  /-- The names of the last header. -/
  header : List String

/-- A header. -/
def header (progress : Progress) : Reader Progress := do
  exactly ['[']
  let isItem ← accept ['[']
  let (path, last) ← key
  skipSpace
  exactly (if isItem then [']', ']'] else [']'])
  let added := (if isItem then Tree.addItem else Tree.addTable) path last .header progress.entries
  match added with
  | some entries => return ⟨entries, path ++ [last]⟩
  | none => refuse

/-- A key with its value. -/
def assignment (progress : Progress) : Reader Progress := do
  let (path, last) ← key
  skipSpace
  exactly ['=']
  skipSpace
  let cs ← rest
  let entry ← value (2 * cs.length + 2) depthLimit
  let added := Tree.descend .implied (Tree.addValue path last entry) progress.header .header
    progress.entries
  match added with
  | some entries => return { progress with entries }
  | none => refuse

/-- The lines of a document. -/
def lines (bound : Nat) (progress : Progress) : Reader Progress :=
  match bound with
  | 0 => refuse
  | bound + 1 => do
    skipSpace
    let after ←
      match ← rest with
      | [] | '#' :: _ | '\n' :: _ | '\r' :: _ => pure progress
      | '[' :: _ => header progress
      | _ => assignment progress
    skipSpace
    skipComment
    match ← rest with
    | [] => return after
    | cs =>
      match lineEnd? cs with
      | some next =>
        set next
        lines bound after
      | none => refuse

/-- Reads a document as a table of data. -/
def parse? (text : String) : Option (List (String × Datum)) :=
  let cs := text.toList
  let cs := if cs.head? = some '\uFEFF' then cs.tail else cs
  ((lines (cs.length + 1) ⟨[], []⟩).run cs).map fun (progress, _) ↦
    Tree.entriesDatum progress.entries

end Connectors.Toml
