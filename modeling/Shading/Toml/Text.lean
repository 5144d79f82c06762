import Shading.Toml.Scalar

/-!
# Strings in TOML

Basic strings have escapes, literal strings have none, and both may run over lines when they stand
between three quotes.  The ends of those lines stay as they are written.  Each function reads what
stands behind the opening quotes and gives the text and what stands behind the closing ones.
-/

namespace Shading.Toml

/-- A control character other than the tab. -/
def isControl (c : Char) : Bool := (c.toNat < 0x20 && c != '\t') || c.toNat == 0x7F

/-- The character with a hexadecimal code point. -/
def charOfHex? (ds : List Char) : Option Char :=
  let n := ofDigits 16 ds
  if ds.all isHexDigit && n.isValidChar then some (Char.ofNat n) else none

/-- The character that a letter behind a backslash stands for. -/
def escaped? : Char → Option Char
  | 'b' => some '\x08'
  | 't' => some '\t'
  | 'n' => some '\n'
  | 'f' => some '\x0c'
  | 'r' => some '\r'
  | 'e' => some '\x1b'
  | '"' => some '"'
  | '\\' => some '\\'
  | _ => none

/-- A character before the text. -/
def consText (c : Option Char) (read : Option (List Char × List Char)) :
    Option (List Char × List Char) := do
  let c ← c
  let (text, later) ← read
  return (c :: text, later)

/-- A basic string on one line. -/
def basic : List Char → Option (List Char × List Char)
  | [] => none
  | '"' :: cs => some ([], cs)
  | '\\' :: 'u' :: a :: b :: c :: d :: cs => consText (charOfHex? [a, b, c, d]) (basic cs)
  | '\\' :: 'U' :: a :: b :: c :: d :: e :: f :: g :: h :: cs =>
    consText (charOfHex? [a, b, c, d, e, f, g, h]) (basic cs)
  | '\\' :: 'x' :: a :: b :: cs => consText (charOfHex? [a, b]) (basic cs)
  | '\\' :: c :: cs => consText (escaped? c) (basic cs)
  | c :: cs => if isControl c || c == '\\' then none else consText (some c) (basic cs)

/-- A literal string on one line. -/
def literal : List Char → Option (List Char × List Char)
  | [] => none
  | '\'' :: cs => some ([], cs)
  | c :: cs => if isControl c then none else consText (some c) (literal cs)

/-- Where a basic string over lines stands: in its text, behind a backslash that ends a line and is to
be followed by the end of the line, or in the blanks after that end. -/
inductive Fold
  | text | lineEnd | blanks
deriving DecidableEq

/-- A basic string over lines.  Up to two quotes may stand before the closing ones. -/
def basicLines : Fold → List Char → Option (List Char × List Char)
  | .lineEnd, ' ' :: cs => basicLines .lineEnd cs
  | .lineEnd, '\t' :: cs => basicLines .lineEnd cs
  | .lineEnd, '\n' :: cs => basicLines .blanks cs
  | .lineEnd, '\r' :: '\n' :: cs => basicLines .blanks cs
  | .lineEnd, _ => none
  | .blanks, ' ' :: cs => basicLines .blanks cs
  | .blanks, '\t' :: cs => basicLines .blanks cs
  | .blanks, '\n' :: cs => basicLines .blanks cs
  | .blanks, '\r' :: '\n' :: cs => basicLines .blanks cs
  | _, '"' :: '"' :: '"' :: '"' :: '"' :: cs => some (['"', '"'], cs)
  | _, '"' :: '"' :: '"' :: '"' :: cs => some (['"'], cs)
  | _, '"' :: '"' :: '"' :: cs => some ([], cs)
  | _, '\\' :: 'u' :: a :: b :: c :: d :: cs =>
    consText (charOfHex? [a, b, c, d]) (basicLines .text cs)
  | _, '\\' :: 'U' :: a :: b :: c :: d :: e :: f :: g :: h :: cs =>
    consText (charOfHex? [a, b, c, d, e, f, g, h]) (basicLines .text cs)
  | _, '\\' :: 'x' :: a :: b :: cs => consText (charOfHex? [a, b]) (basicLines .text cs)
  | _, '\\' :: ' ' :: cs => basicLines .lineEnd cs
  | _, '\\' :: '\t' :: cs => basicLines .lineEnd cs
  | _, '\\' :: '\n' :: cs => basicLines .blanks cs
  | _, '\\' :: '\r' :: '\n' :: cs => basicLines .blanks cs
  | _, '\\' :: c :: cs => consText (escaped? c) (basicLines .text cs)
  | _, '\r' :: '\n' :: cs => consText (some '\r') (consText (some '\n') (basicLines .text cs))
  | _, '\n' :: cs => consText (some '\n') (basicLines .text cs)
  | _, c :: cs =>
    if isControl c || c == '\\' then none else consText (some c) (basicLines .text cs)
  | _, [] => none

/-- A literal string over lines.  Up to two quotes may stand before the closing ones. -/
def literalLines : List Char → Option (List Char × List Char)
  | '\'' :: '\'' :: '\'' :: '\'' :: '\'' :: cs => some (['\'', '\''], cs)
  | '\'' :: '\'' :: '\'' :: '\'' :: cs => some (['\''], cs)
  | '\'' :: '\'' :: '\'' :: cs => some ([], cs)
  | '\r' :: '\n' :: cs => consText (some '\r') (consText (some '\n') (literalLines cs))
  | '\n' :: cs => consText (some '\n') (literalLines cs)
  | c :: cs => if isControl c then none else consText (some c) (literalLines cs)
  | [] => none

/-- The text without a line end at its start. -/
def dropLineEnd : List Char → List Char
  | '\n' :: cs => cs
  | '\r' :: '\n' :: cs => cs
  | cs => cs

/-- A string of any kind, if one begins here. -/
def string? : List Char → Option (List Char × List Char)
  | '"' :: '"' :: '"' :: cs => basicLines .text (dropLineEnd cs)
  | '"' :: cs => basic cs
  | '\'' :: '\'' :: '\'' :: cs => literalLines (dropLineEnd cs)
  | '\'' :: cs => literal cs
  | _ => none

/-- A string on one line, if one begins here. -/
def lineString? : List Char → Option (List Char × List Char)
  | '"' :: cs => basic cs
  | '\'' :: cs => literal cs
  | _ => none

end Shading.Toml
