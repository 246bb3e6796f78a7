import Connectors.Number.Integer

/-!
# Spans of time as text

A span of whole milliseconds is shown in seconds once it reaches one, with as many decimals as it
needs, and in milliseconds below that. The empty span is shown as no nanoseconds.
-/

set_option autoImplicit false
set_option relaxedAutoImplicit false

namespace Connectors.Text

/-- The decimals of a second that `millis < 1000` milliseconds make, without zeros at the end. -/
def decimals (millis : Nat) : List Char :=
  let digits := Nat.toDigits 10 millis
  ((List.replicate (3 - digits.length) '0' ++ digits).reverse.dropWhile (· = '0')).reverse

/-- A span of milliseconds. -/
def duration (millis : Nat) : String :=
  if millis = 0 then "0ns"
  else if millis < 1000 then Integer.write millis ++ "ms"
  else if millis % 1000 = 0 then Integer.write (millis / 1000 : Nat) ++ "s"
  else
    Integer.write (millis / 1000 : Nat) ++ "." ++ String.ofList (decimals (millis % 1000)) ++ "s"

end Connectors.Text
