/-!
# Sets of characters given by ranges of code points

The character properties of this library are tables of closed ranges in ascending order.
-/

set_option autoImplicit false

namespace Amalgam

/-- Closed ranges of code points. -/
abbrev Ranges := List (Nat × Nat)

/-- Whether the code point of `c` lies in one of the ranges. -/
def Ranges.holds (table : Ranges) (c : Char) : Bool :=
  table.any fun r => r.1 ≤ c.toNat && c.toNat ≤ r.2

end Amalgam
