/-!
# Ranges of characters

A class of characters is given by the ranges of their code points.
-/

namespace Shading.Text

/-- The character lies in one of the ranges, whose two ends belong to it. -/
def within (ranges : List (Nat × Nat)) (c : Char) : Bool :=
  ranges.any fun r => r.1 ≤ c.toNat && c.toNat ≤ r.2

end Shading.Text
