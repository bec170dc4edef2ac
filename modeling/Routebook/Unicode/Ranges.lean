/-!
# Sets of characters as sorted bounds

A property of characters is written down as the code points where it switches: it starts to hold at
the first bound, stops at the second, starts again at the third, and so on. **A character has the
property iff an odd number of bounds are at or below it.**
-/

namespace Routebook.Unicode

/-- Membership in the set whose bounds are listed in increasing order. -/
def inside (bounds : List Nat) (c : Char) : Bool :=
  (bounds.takeWhile (· ≤ c.toNat)).length % 2 = 1

end Routebook.Unicode
