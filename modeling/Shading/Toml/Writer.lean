import Shading.Toml.Text

/-!
# Writing TOML

A string is written in the plainest way that needs no escape: on one line between double quotes,
then between single quotes, then over lines between three of either.  When every way needs an escape,
it is written between double quotes, over lines if it has line feeds.  A text with line feeds starts
on a line of its own.
-/

namespace Shading.Toml

/-- The length of the longest run of a character, when `now` of them stand before the text and the
longest so far is `best`. -/
def longestRun (c : Char) (now best : Nat) : List Char → Nat
  | [] => max now best
  | d :: cs => if d = c then longestRun c (now + 1) best cs else longestRun c 0 (max now best) cs

/-- A control character that cannot stand in any string as it is. -/
def needsCode (c : Char) : Bool := isControl c && c != '\n'

/-- The four hexadecimal digits of a code point. -/
def codeText (c : Char) : String :=
  let ds := (Nat.toDigits 16 c.toNat).map Char.toUpper
  "\\u" ++ String.ofList (List.replicate (4 - ds.length) '0' ++ ds)

/-- A character of a basic string other than the quote. -/
def basicChar (overLines : Bool) (c : Char) : String :=
  if c = '\x08' then "\\b"
  else if c = '\t' then "\\t"
  else if c = '\n' then (if overLines then "\n" else "\\n")
  else if c = '\x0c' then "\\f"
  else if c = '\r' then "\\r"
  else if c = '\\' then "\\\\"
  else if isControl c then codeText c
  else String.singleton c

/-- The characters of a basic string.  Over lines, two quotes in a row may stand as they are, and
`quotes` of them stand before the text. -/
def basicChars (overLines : Bool) (quotes : Nat) : List Char → String
  | [] => ""
  | '"' :: cs =>
    if overLines && quotes < 2 then "\"" ++ basicChars overLines (quotes + 1) cs
    else "\\\"" ++ basicChars overLines 0 cs
  | c :: cs => basicChar overLines c ++ basicChars overLines 0 cs

/-- A string. -/
def writeString (text : String) : String :=
  let cs := text.toList
  let code := cs.any needsCode
  let backslash := cs.contains '\\'
  let lineFeed := cs.contains '\n'
  let single := longestRun '\'' 0 0 cs
  let double := longestRun '"' 0 0 cs
  let start := if lineFeed then "\n" else ""
  let overLines := "\"\"\"" ++ start ++ basicChars true 0 cs ++ "\"\"\""
  let onLine := "\"" ++ basicChars false 0 cs ++ "\""
  if !code && !backslash && double == 0 && !lineFeed then onLine
  else if !code && single == 0 && !lineFeed then "'" ++ text ++ "'"
  else if !code && !backslash && double ≤ 2 then overLines
  else if !code && single ≤ 2 then "'''" ++ start ++ text ++ "'''"
  else if lineFeed then overLines
  else onLine

/-- An array of strings: one or none on one line, more of them one to a line. -/
def writeStrings : List String → String
  | [] => "[]"
  | [text] => "[" ++ writeString text ++ "]"
  | texts => "[\n" ++ String.join (texts.map fun text => "    " ++ writeString text ++ ",\n") ++ "]"

end Shading.Toml
