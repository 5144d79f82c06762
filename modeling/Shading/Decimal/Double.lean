/-!
# Doubles

Numbers of the shading language are doubles, kept as their 64 bits.  A finite double is a whole
number of the least positive double `2 ^ -1074`; `units` is that number, and everything exact about
a double is said of it in `Nat`.

* `Double.units` — the magnitude of a finite double in least units;
* `Double.gap` — the distance to the next larger magnitude, in least units;
* `Double.isInteger` — whether a double is finite and has no fraction;
* `Double.ofQuotient` — the double nearest to a quotient, a half going to the even neighbour.
-/

namespace Shading

/-- A double, as its bits: a sign, eleven bits of exponent, fifty-two bits of fraction. -/
structure Double where
  bits : UInt64
deriving DecidableEq, Repr

namespace Double

/-- The sign bit is set. -/
def isNegative (x : Double) : Bool := Nat.pow 2 63 ≤ x.bits.toNat

/-- The bits below the sign. -/
def magnitude (x : Double) : Nat := x.bits.toNat % Nat.pow 2 63

/-- The eleven bits of exponent. -/
def exponentField (x : Double) : Nat := x.magnitude / Nat.pow 2 52

/-- The fifty-two bits of fraction. -/
def fractionField (x : Double) : Nat := x.magnitude % Nat.pow 2 52

/-- Neither an infinity nor a NaN. -/
def isFinite (x : Double) : Bool := x.exponentField < 2047

/-- Not a number. -/
def isNaN (x : Double) : Bool := x.exponentField == 2047 && x.fractionField != 0

/-- How often the gap of the smallest doubles is doubled to give the gap at this one. -/
def scale (x : Double) : Nat := x.exponentField - 1

/-- The significand: a whole number of gaps. -/
def significand (x : Double) : Nat :=
  if x.exponentField = 0 then x.fractionField else Nat.pow 2 52 + x.fractionField

/-- The distance to the next larger magnitude, in least units. -/
def gap (x : Double) : Nat := Nat.pow 2 x.scale

/-- The magnitude of a finite double in least units. -/
def units (x : Double) : Nat := x.significand * x.gap

/-- The least units in one. -/
def one : Nat := Nat.pow 2 1074

/-- Finite and without a fraction. -/
def isInteger (x : Double) : Bool := x.isFinite && x.units % one == 0

/-- The bits of positive infinity. -/
def infinityBits : Nat := 2047 * Nat.pow 2 52

/-- The quotient rounded to a whole number, a half going to the even neighbour. -/
def roundEven (num den : Nat) : Nat :=
  let q := num / den
  let r := num % den
  if 2 * r < den then q else if den < 2 * r then q + 1 else q + q % 2

/-- The bits of the double nearest to `num / den`.  The quotient is counted in gaps of the double
to come; a count of `2 ^ 53` carries into the exponent by itself, and what is too large for a
finite double is infinite. -/
def nearestBits (num den : Nat) : Nat :=
  let whole := num * one / den
  let scale := if whole < Nat.pow 2 53 then 0 else whole.log2 - 52
  min (scale * Nat.pow 2 52 + roundEven (num * one) (den * Nat.pow 2 scale)) infinityBits

/-- The double nearest to `num / den`, a half going to the even neighbour. -/
def ofQuotient (num den : Nat) : Double := ⟨UInt64.ofNat (nearestBits num den)⟩

end Double

end Shading
