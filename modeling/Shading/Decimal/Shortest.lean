import Shading.Decimal.Double

/-!
# Shortest decimals

The decimal that stands for a double is the shortest of those that read back as it, and of the
shortest the nearest.  A decimal reads back as a double when it lies between the two midpoints to
the neighbouring doubles, the midpoints included when the significand is even.

Everything is counted in a quarter of a least unit over `10 ^ 324`, so that all midpoints and all
points of the decimal grids are whole numbers: grid `i` holds the multiples of `10 ^ i` over
`10 ^ 324`, and grid `0` is finer than the least gap.

* `Double.between` — the decimals that read back, in these counts;
* `Double.shortest` — the point of the coarsest grid that reads back.
-/

namespace Shading

/-- A decimal `digits * 10 ^ grid / 10 ^ 324`. -/
structure Decimal where
  digits : Nat
  grid : Nat
deriving DecidableEq, Repr

namespace Double

/-- A count of least units, in quarters over `10 ^ 324`. -/
def fine (n : Nat) : Nat := 4 * Nat.pow 10 324 * n

/-- The distance of two neighbours on a grid. -/
def gridStep (i : Nat) : Nat := 4 * one * Nat.pow 10 i

/-- From the lower midpoint to the double.  Below a power of two the gap is half as wide. -/
def below (x : Double) : Nat :=
  if x.fractionField = 0 && 1 < x.exponentField then Nat.pow 10 324 * x.gap
  else 2 * Nat.pow 10 324 * x.gap

/-- From the double to the upper midpoint. -/
def above (x : Double) : Nat := 2 * Nat.pow 10 324 * x.gap

/-- The count lies between the two midpoints, and so reads back as the double. -/
def between (x : Double) (n : Nat) : Bool :=
  let low := fine x.units - x.below
  let high := fine x.units + x.above
  if x.significand % 2 = 0 then low ≤ n && n ≤ high else low < n && n < high

/-- The point of a grid that stands for the double, if one reads back: the nearer of its two
neighbours on the grid, the upper one when they are equally near. -/
def onGrid? (x : Double) (i : Nat) : Option Nat :=
  let step := gridStep i
  let q := fine x.units / step
  let r := fine x.units % step
  match x.between (q * step), x.between ((q + 1) * step) with
  | true, true => some (if 2 * r < step then q else q + 1)
  | true, false => some q
  | false, true => some (q + 1)
  | false, false => none

/-- The search for the coarsest grid, from grid `i` down. -/
def shortestFrom (x : Double) : Nat → Decimal
  | 0 => ⟨(x.onGrid? 0).getD 0, 0⟩
  | i + 1 =>
    match x.onGrid? (i + 1) with
    | some digits => ⟨digits, i + 1⟩
    | none => x.shortestFrom i

/-- The shortest decimal that reads back as the magnitude of a finite double.  No finite double reads
back from a point of grid `633` but zero. -/
def shortest (x : Double) : Decimal := x.shortestFrom 632

end Double

end Shading
