import Shading.Text.Hidden

/-!
# Quoted text

A text between double quotes, for messages that show a value: the quote and the backslash are
written behind a backslash, the common controls by their letters, and a character that does not
show on its own by its code point.
-/

namespace Shading.Text

/-- How a character is written inside quotes. -/
def escape (c : Char) : String :=
  match c with
  | '\x00' => "\\0"
  | '\t' => "\\t"
  | '\r' => "\\r"
  | '\n' => "\\n"
  | '\\' => "\\\\"
  | '"' => "\\\""
  | c =>
    if isHidden c then "\\u\x7b" ++ String.ofList (Nat.toDigits 16 c.toNat) ++ "\x7d"
    else String.singleton c

/-- A text between double quotes. -/
def quoted (s : String) : String := "\"" ++ String.join (s.toList.map escape) ++ "\""

end Shading.Text
