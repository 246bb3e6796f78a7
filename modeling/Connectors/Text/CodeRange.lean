/-!
# Sets of characters as ranges of code points

A character class is kept as a list of closed ranges of code points, and membership is a search
through the list (`inRanges`). The tables that use it stay readable next to the standard they
come from, and every question about them is a question about natural numbers.
-/

set_option autoImplicit false
set_option relaxedAutoImplicit false

namespace Connectors.Text

/-- Whether a code point lies in one of the closed ranges. -/
def inRanges (ranges : List (Nat × Nat)) (code : Nat) : Bool :=
  ranges.any fun range ↦ range.1 ≤ code && code ≤ range.2

end Connectors.Text
