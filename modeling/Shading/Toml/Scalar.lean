import Shading.Decimal.Double

/-!
# Numbers, dates and times in TOML

Which bare words of a TOML document are values.  A configuration uses none of them, so only whether
they are well written counts, whether a number can be held, and whether they are dates or times.  A
number that cannot be held may stand where nobody looks at it.

* `isInteger`, `isFloat`, `isInfinite`, `isBoolean`, `isMoment` — the kinds of words;
* `integerFits`, `floatFits` — whether a number can be held.
-/

namespace Shading.Toml

/-- Digits, between which single underscores may stand. -/
def digitRun (isDigit : Char → Bool) : List Char → Bool
  | [] => false
  | [c] => isDigit c
  | c :: '_' :: cs => isDigit c && digitRun isDigit cs
  | c :: cs => isDigit c && digitRun isDigit cs

/-- The text without a sign before it. -/
def dropSign : List Char → List Char
  | '+' :: cs => cs
  | '-' :: cs => cs
  | cs => cs

/-- A hexadecimal digit. -/
def isHexDigit (c : Char) : Bool :=
  c.isDigit || ('a' ≤ c && c ≤ 'f') || ('A' ≤ c && c ≤ 'F')

/-- A digit or an underscore. -/
def isDigitOrMark (c : Char) : Bool := c.isDigit || c == '_'

/-- Behind the first character, each underscore stands between digits. -/
def marksBetween (isDigit : Char → Bool) : List Char → Bool
  | [] => true
  | c :: '_' :: cs => isDigit c && cs.head?.any isDigit && marksBetween isDigit cs
  | _ :: cs => marksBetween isDigit cs

/-- Each underscore of a number stands between digits, where a sign counts as a digit. -/
def marksApart (isDigit : Char → Bool) (cs : List Char) : Bool :=
  cs.head? != some '_' && marksBetween isDigit ('0' :: dropSign cs)

/-- An integer in base ten, without a leading zero.  When it has underscores, only where they stand
counts here: each piece behind one starts like a hexadecimal number, and whether all of it is digits
is left to `integerFits`. -/
def isDecimal (cs : List Char) : Bool :=
  let body := dropSign cs
  let later := body.dropWhile Char.isDigit
  if later.isEmpty then body.length == 1 || (!body.isEmpty && body.head? != some '0')
  else later.head? == some '_' && body.head? != some '0' &&
    !(later.any fun c => c == '.' || c == 'e' || c == 'E') && marksApart isHexDigit cs

/-- An integer in base ten, or without a sign in base sixteen, eight or two.  The digits behind the
base may be missing here. -/
def isInteger : List Char → Bool
  | '0' :: 'x' :: ds => ds.isEmpty || digitRun isHexDigit ds
  | '0' :: 'o' :: ds => ds.isEmpty || digitRun (fun c => '0' ≤ c && c ≤ '7') ds
  | '0' :: 'b' :: ds => ds.isEmpty || digitRun (fun c => c == '0' || c == '1') ds
  | cs => isDecimal cs

/-- Nothing but digits and underscores, with a digit among them. -/
def isMarkedRun (cs : List Char) : Bool := cs.all isDigitOrMark && cs.any Char.isDigit

/-- An exponent. -/
def isExponent : List Char → Bool
  | 'e' :: cs => isMarkedRun (dropSign cs)
  | 'E' :: cs => isMarkedRun (dropSign cs)
  | _ => false

/-- What stands behind the whole part of a float: a fraction, an exponent, or both. -/
def isFractionOrExponent : List Char → Bool
  | '.' :: cs =>
    let later := cs.dropWhile isDigitOrMark
    isMarkedRun (cs.takeWhile isDigitOrMark) && (later.isEmpty || isExponent later)
  | cs => isExponent cs

/-- The whole part of a float: no zero stands before other digits. -/
def isWhole (cs : List Char) : Bool :=
  isMarkedRun cs && (cs.head? != some '0' || cs.countP Char.isDigit == 1)

/-- An infinity, or the word for what is not a number. -/
def isInfinite (cs : List Char) : Bool :=
  dropSign cs == ['i', 'n', 'f'] || dropSign cs == ['n', 'a', 'n']

/-- A float with its digits. -/
def isFloat (cs : List Char) : Bool :=
  let body := dropSign cs
  isWhole (body.takeWhile isDigitOrMark) && isFractionOrExponent (body.dropWhile isDigitOrMark) &&
    marksApart Char.isDigit cs

/-! ## Numbers that can be held -/

/-- The value of a digit in a base up to sixteen. -/
def digitValue (c : Char) : Nat :=
  if c.isDigit then c.toNat - 48 else if 'a' ≤ c then c.toNat - 87 else c.toNat - 55

/-- The number of some digits in a base. -/
def ofDigits (base : Nat) (ds : List Char) : Nat := ds.foldl (fun n d => base * n + digitValue d) 0

/-- Whether an integer can be held: it has digits and nothing else, and is one of 128 bits, with a
sign or without one. -/
def integerFits (cs : List Char) : Bool :=
  match cs.filter (· != '_') with
  | '0' :: 'x' :: ds => !ds.isEmpty && ofDigits 16 ds < Nat.pow 2 128
  | '0' :: 'o' :: ds => !ds.isEmpty && ofDigits 8 ds < Nat.pow 2 128
  | '0' :: 'b' :: ds => !ds.isEmpty && ofDigits 2 ds < Nat.pow 2 128
  | '-' :: ds => ds.all Char.isDigit && ofDigits 10 ds ≤ Nat.pow 2 127
  | ds => (dropSign ds).all Char.isDigit && ofDigits 10 (dropSign ds) < Nat.pow 2 128

/-- The number of an exponent. -/
def exponentValue : List Char → Int
  | '-' :: ds => -(ofDigits 10 ds)
  | ds => ofDigits 10 (dropSign ds)

/-- Whether some digits times a power of ten round to a finite double.  How many digits stand before
the point settles all but one case, so that no great power is computed. -/
def decimalFits (digits : List Char) (exponent : Int) : Bool :=
  let ds := digits.dropWhile (· == '0')
  let size := ds.length + exponent
  if ds.isEmpty || size ≤ 308 then true
  else if 309 < size then false
  else (Double.ofQuotient (ofDigits 10 ds * Nat.pow 10 exponent.toNat)
    (Nat.pow 10 (-exponent).toNat)).isFinite

/-- Whether a float with digits can be held: it must not round to an infinity. -/
def floatFits (cs : List Char) : Bool :=
  let cs := (dropSign cs).filter (· != '_')
  let whole := cs.takeWhile Char.isDigit
  let (fraction, later) := match cs.dropWhile Char.isDigit with
    | '.' :: cs => (cs.takeWhile Char.isDigit, cs.dropWhile Char.isDigit)
    | cs => ([], cs)
  decimalFits (whole ++ fraction) (exponentValue (later.drop 1) - fraction.length)

/-! ## Truth values -/

/-- A truth value. -/
def isBoolean (cs : List Char) : Bool :=
  cs == ['t', 'r', 'u', 'e'] || cs == ['f', 'a', 'l', 's', 'e']

/-! ## Dates and times -/

/-- The number of as many digits, and what stands behind them. -/
def digits? (n : Nat) (cs : List Char) : Option (Nat × List Char) :=
  let ds := cs.take n
  if ds.length == n && ds.all Char.isDigit then
    some (ds.foldl (fun v d => 10 * v + (d.toNat - 48)) 0, cs.drop n)
  else none

/-- The days of a month. -/
def daysIn (year month : Nat) : Nat :=
  if month == 2 then
    if year % 4 == 0 && (year % 100 != 0 || year % 400 == 0) then 29 else 28
  else if month == 4 || month == 6 || month == 9 || month == 11 then 30
  else 31

/-- What stands behind a date. -/
def afterDate? (cs : List Char) : Option (List Char) := do
  let (year, cs) ← digits? 4 cs
  let '-' :: cs := cs | none
  let (month, cs) ← digits? 2 cs
  let '-' :: cs := cs | none
  let (day, cs) ← digits? 2 cs
  if 1 ≤ month && month ≤ 12 && 1 ≤ day && day ≤ daysIn year month then some cs else none

/-- What stands behind the parts of a second. -/
def afterFraction? : List Char → Option (List Char)
  | '.' :: cs => if cs.head?.any Char.isDigit then some (cs.dropWhile Char.isDigit) else none
  | cs => some cs

/-- What stands behind a time, whose seconds may be left out. -/
def afterTime? (cs : List Char) : Option (List Char) := do
  let (hour, cs) ← digits? 2 cs
  let ':' :: cs := cs | none
  let (minute, cs) ← digits? 2 cs
  if 23 < hour || 59 < minute then none
  else match cs with
    | ':' :: cs =>
      let (second, cs) ← digits? 2 cs
      if 60 < second then none else afterFraction? cs
    | cs => some cs

/-- Nothing, or an offset from universal time. -/
def isOffset : List Char → Bool
  | [] => true
  | ['Z'] => true
  | ['z'] => true
  | '+' :: cs => isHours cs
  | '-' :: cs => isHours cs
  | _ => false
where
  /-- Hours and minutes. -/
  isHours (cs : List Char) : Bool :=
    match digits? 2 cs with
    | some (hour, ':' :: cs) => hour ≤ 23 && ((digits? 2 cs).any fun m => m.1 ≤ 59 && m.2.isEmpty)
    | _ => false

/-- A date, a time, or both. -/
def isMoment (cs : List Char) : Bool :=
  match afterDate? cs with
  | some [] => true
  | some (mark :: time) =>
    (mark == 'T' || mark == 't' || mark == ' ') && (afterTime? time).any isOffset
  | none => afterTime? cs == some []

/-- A date alone. -/
def isDate (cs : List Char) : Bool := afterDate? cs == some []

end Shading.Toml
