/-!
# Splitting and joining texts

`splitChars` cuts a character sequence at every occurrence of a separator and keeps empty pieces, so
a sequence with `n` separators has `n + 1` pieces. `splitOnce` cuts at the first occurrence only.
`replaceAll` and `stripStart?` look for a fixed piece of text, and `join` puts pieces together.
-/

set_option autoImplicit false
set_option relaxedAutoImplicit false

namespace Connectors.Text

/-- The pieces between the separators, empty ones included. -/
def splitChars (separator : Char) : List Char → List (List Char)
  | [] => [[]]
  | c :: rest =>
    if c = separator then [] :: splitChars separator rest
    else match splitChars separator rest with
      | [] => [[c]]
      | piece :: pieces => (c :: piece) :: pieces

/-- The pieces of a text between the separators. -/
def split (separator : Char) (text : String) : List String :=
  (splitChars separator text.toList).map String.ofList

/-- Texts with a separator between each two of them. -/
def join (separator : String) : List String → String
  | [] => ""
  | [text] => text
  | text :: rest => text ++ separator ++ join separator rest

/-- What stands before and after the first separator. -/
def splitOnce (separator : Char) (text : String) : Option (String × String) :=
  match text.toList.span (· ≠ separator) with
  | (_, []) => none
  | (before, _ :: after) => some (String.ofList before, String.ofList after)

/-- What follows `start` in a sequence that begins with it. -/
def stripStart? (start : List Char) (cs : List Char) : Option (List Char) :=
  match start, cs with
  | [], cs => some cs
  | _ :: _, [] => none
  | s :: start, c :: cs => if s = c then stripStart? start cs else none

/-- Replaces every occurrence of the non-empty sequence `old`, from the left and without overlap.
`skip` counts the characters of an occurrence that are still to be passed over. -/
def replaceChars (old new : List Char) (skip : Nat) : List Char → List Char
  | [] => []
  | c :: rest =>
    match skip with
    | skip + 1 => replaceChars old new skip rest
    | 0 =>
      if (stripStart? old (c :: rest)).isSome then new ++ replaceChars old new (old.length - 1) rest
      else c :: replaceChars old new 0 rest

/-- Replaces every occurrence of the non-empty text `old`. -/
def replaceAll (old new text : String) : String :=
  String.ofList (replaceChars old.toList new.toList 0 text.toList)

end Connectors.Text
