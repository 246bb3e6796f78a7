import Connectors.Text.Lowercase

/-!
# Relaxed keys

A name is written in many ways: `maxResultsPerRequest` in a schema, `max-results-per-request` in a
file, `MAX_RESULTS_PER_REQUEST` in the environment. Two spellings name the same thing when they have
one normal form (`Key.normal`): the characters other than `-`, `.` and `_`, in lower case.

The normal form of a concatenation is the concatenation of the normal forms (`normalChars_append`),
which is what lets a path of nested names stand for one dotted name.
-/

set_option autoImplicit false
set_option relaxedAutoImplicit false

namespace Connectors.Key

/-- Whether a character only separates the words of a name. -/
def isSeparator (c : Char) : Bool :=
  c = '-' || c = '.' || c = '_'

/-- The normal form of a name, as characters. -/
def normalChars (cs : List Char) : List Char :=
  (cs.filter fun c ↦ !isSeparator c).flatMap Text.lowerChar

/-- The normal form of a name. -/
def normal (name : String) : String :=
  String.ofList (normalChars name.toList)

/-- Whether two spellings name the same thing. -/
def agree (a b : String) : Bool :=
  normal a == normal b

theorem normalChars_append (a b : List Char) :
    normalChars (a ++ b) = normalChars a ++ normalChars b := by
  simp [normalChars]

theorem agree_iff {a b : String} : agree a b = true ↔ normal a = normal b := by
  simp [agree]

end Connectors.Key
