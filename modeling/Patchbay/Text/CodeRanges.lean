/-!
Sets of characters as closed ranges of code points.
-/

namespace Patchbay

abbrev CodeRanges := List (Nat × Nat)

namespace CodeRanges

def has (rs : CodeRanges) (c : Char) : Bool := rs.any fun r => r.1 ≤ c.toNat && c.toNat ≤ r.2

end CodeRanges

end Patchbay
