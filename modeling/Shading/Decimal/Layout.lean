import Shading.Decimal.Shortest

/-!
# Decimal text

How a double is written.  A `NumberFormat` fixes the choices: where the exponent form begins and
whether a whole number keeps a fraction.  `plain` never uses an exponent, `marked` always shows that
it writes a double, and `tenths` writes a whole double with all its digits and one place.
-/

namespace Shading

/-- The digits of a number in base ten. -/
def digitsText (n : Nat) : String := Nat.repr n

/-- As many zeros. -/
def zeros (n : Nat) : String := String.ofList (List.replicate n '0')

namespace Decimal

/-- How many digits the decimal has. -/
def length (d : Decimal) : Nat := (Nat.toDigits 10 d.digits).length

/-- The digits in positional notation; `whole` follows a decimal without a fraction. -/
def positional (whole : String) (d : Decimal) : String :=
  if d.grid < 324 then
    let places := 324 - d.grid
    let padded := List.replicate (places + 1 - d.length) '0' ++ Nat.toDigits 10 d.digits
    String.ofList (padded.take (padded.length - places)) ++ "." ++
      String.ofList (padded.drop (padded.length - places))
  else digitsText d.digits ++ zeros (d.grid - 324) ++ whole

/-- One digit before the point, and the power of ten behind an `e`. -/
def exponential (d : Decimal) : String :=
  let ds := Nat.toDigits 10 d.digits
  let exponent := (d.grid + d.length : Int) - 325
  let fraction := if d.length = 1 then "" else "." ++ String.ofList ds.tail
  String.ofList (ds.take 1) ++ fraction ++ "e" ++ exponent.repr

end Decimal

/-- The choices of a format for doubles: `whole` follows a number without a fraction, and the
exponent form begins at `10 ^ large` and below `10 ^ -small`. -/
structure NumberFormat where
  whole : String
  large : Option Nat
  small : Option Nat

namespace NumberFormat

/-- Positional throughout, a whole number without a fraction. -/
def plain : NumberFormat := { whole := "", large := none, small := none }

/-- A whole number keeps the fraction `.0`; exponents begin at `10 ^ 16` and below `10 ^ -4`. -/
def marked : NumberFormat := { whole := ".0", large := some 16, small := some 4 }

/-- The power of ten of the first digit lies where the format uses the exponent form. -/
def usesExponent (f : NumberFormat) (d : Decimal) : Bool :=
  f.large.any (fun n => 325 + n ≤ d.grid + d.length) ||
    f.small.any (fun n => d.grid + d.length + n < 325)

/-- A nonnegative finite double. -/
def magnitude (f : NumberFormat) (x : Double) : String :=
  if x.units = 0 then "0" ++ f.whole
  else if f.usesExponent x.shortest then x.shortest.exponential
  else x.shortest.positional f.whole

/-- A double in this format. -/
def text (f : NumberFormat) (x : Double) : String :=
  if x.isNaN then "NaN"
  else (if x.isNegative then "-" else "") ++ (if x.isFinite then f.magnitude x else "inf")

end NumberFormat

namespace Double

/-- The fewest digits that read back, without an exponent. -/
def text (x : Double) : String := NumberFormat.plain.text x

/-- The fewest digits that read back, marked as those of a double. -/
def markedText (x : Double) : String := NumberFormat.marked.text x

/-- All digits of a whole double, and one place. -/
def tenthsText (x : Double) : String :=
  (if x.isNegative then "-" else "") ++ digitsText (x.units / one) ++ ".0"

end Double

end Shading
