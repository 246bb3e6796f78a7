import Connectors.Number.Integer
import Connectors.Objects
import Connectors.Text.Blank
import Connectors.Text.Lowercase

/-!
# Kinds of options and their values

An option of a component has a kind, and a value that is given to it as text is read by the rules of
that kind (`OptionKind.parse`): a truth value in any case, a bounded integer, a text taken as it is,
a list of items between commas, or one of a fixed set of constants. An object is never read from
text; it is found by its name elsewhere.

`OptionValue.text?` writes a value so that it is read back as the same value, and
`OptionValue.fits` says when a value has the shape of a kind.
-/

set_option autoImplicit false
set_option relaxedAutoImplicit false

namespace Connectors

/-- What an option holds. -/
inductive OptionKind where
  /-- A truth value. -/
  | bool
  /-- An integer of 32 bits. -/
  | int
  /-- An integer of 64 bits. -/
  | long
  /-- A text. -/
  | string
  /-- A list of texts. -/
  | list
  /-- One of the given constants. -/
  | enum (values : List String)
  /-- An object offered under the given type name. -/
  | object (typeName : String)
deriving DecidableEq, Repr

/-- The value of an option. -/
inductive OptionValue where
  /-- A truth value. -/
  | bool (value : Bool)
  /-- An integer of 32 bits. -/
  | int (value : Int)
  /-- An integer of 64 bits. -/
  | long (value : Int)
  /-- A text. -/
  | string (value : String)
  /-- A constant. -/
  | enum (value : String)
  /-- A list of texts. -/
  | list (items : List String)
  /-- An object. -/
  | object (reference : ObjectRef)
deriving DecidableEq, Repr

/-- Why a text is no value of a kind. -/
inductive ParseFailure where
  /-- The text does not have the form of the kind. -/
  | malformed
  /-- The text is not one of the constants. -/
  | notInEnum
deriving DecidableEq, Repr

namespace OptionKind

/-- The short name of a kind. -/
def name : OptionKind → String
  | bool => "bool"
  | int => "int"
  | long => "long"
  | string => "string"
  | list => "list"
  | enum _ => "enum"
  | object _ => "object"

/-- Whether values of the kind have a text. -/
def isScalar : OptionKind → Bool
  | object _ => false
  | _ => true

/-- A kind as messages show it. -/
def describe : OptionKind → String
  | enum values => "enum [" ++ Text.join ", " values ++ "]"
  | object typeName => "object reference of type " ++ typeName
  | kind => kind.name

/-- The items of a list: the pieces between commas, without the white space around them, leaving out
those that are empty. -/
def listItems (text : String) : List String :=
  (((Text.splitChars ',' text.toList).map Text.trimChars).filter (!·.isEmpty)).map String.ofList

/-- Reads a truth value, in any case of its letters. -/
def parseBool? (text : String) : Option Bool :=
  if Text.sameAscii text "true" then some true
  else if Text.sameAscii text "false" then some false
  else none

/-- Reads a text as a value of a kind. -/
def parse (kind : OptionKind) (text : String) : Except ParseFailure OptionValue :=
  match kind with
  | bool =>
    match parseBool? text with
    | some value => .ok (.bool value)
    | none => .error .malformed
  | int =>
    match Integer.readWithin? Integer.word32 text with
    | some value => .ok (.int value)
    | none => .error .malformed
  | long =>
    match Integer.readWithin? Integer.word64 text with
    | some value => .ok (.long value)
    | none => .error .malformed
  | string => .ok (.string text)
  | list => .ok (.list (listItems text))
  | enum values => if values.contains text then .ok (.enum text) else .error .notInEnum
  | object _ => .error .malformed

end OptionKind

namespace OptionValue

/-- A truth value as text. -/
def boolText (value : Bool) : String :=
  if value then "true" else "false"

/-- The text of a value; an object has none. -/
def text? : OptionValue → Option String
  | bool value => some (boolText value)
  | int value => some (Integer.write value)
  | long value => some (Integer.write value)
  | string value => some value
  | enum value => some value
  | list items => some (Text.join "," items)
  | object _ => none

/-- Whether a value has the shape of a kind. -/
def fits : OptionValue → OptionKind → Bool
  | bool _, .bool => true
  | int _, .int => true
  | long _, .long => true
  | string _, .string => true
  | list _, .list => true
  | enum value, .enum values => values.contains value
  | object reference, .object typeName => reference.isType typeName
  | _, _ => false

/-- The diagnostic form of a value. -/
def describe : OptionValue → String
  | bool value => "Bool(" ++ boolText value ++ ")"
  | int value => "Int(" ++ Integer.write value ++ ")"
  | long value => "Long(" ++ Integer.write value ++ ")"
  | string value => "String(" ++ Text.quote value ++ ")"
  | enum value => "Enum(" ++ value ++ ")"
  | list items => "List(" ++ Text.quotedList items ++ ")"
  | object reference => "Object(" ++ reference.typeName ++ ")"

/-- Whether two values are equal, where two references to one object count as equal. -/
def same : OptionValue → OptionValue → Bool
  | object a, object b => a.same b
  | a, b => a == b

end OptionValue

end Connectors
