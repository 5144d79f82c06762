import Shading.Text.Blank
import Shading.Text.Letter
import Shading.Text.Lines
import Shading.Token

/-!
# Scanning

A source is read line by line.  At each character that is not blank the longest token that begins
there is taken; a character that begins none, and a quote that is not closed on its line, stop the
scan.

* `Scan.front` — the token at the front of a line and its length;
* `Scan.tokens` — the tokens of a line;
* `Scanner.line` — one line, after the lines before it;
* `tokenize` — a whole source.
-/

namespace Shading

namespace Scan

/-- Why a scan stops. -/
inductive Cause
  | unknown (c : Char)
  | unterminated (rest : String)
deriving DecidableEq, Repr

/-- The words for a cause. -/
def Cause.message : Cause → String
  | unknown c => "unknown token '" ++ String.singleton c ++ "'"
  | unterminated rest => "unterminated string literal: " ++ rest

/-- Where and why a scan stops, with the rest of the line. -/
structure Fault where
  cause : Cause
  position : Position
  rest : String
deriving DecidableEq, Repr

/-! ## One token -/

/-- The marks of one character that begin no other token. -/
def single? : Char → Option Mark
  | '(' => some .leftParen
  | ')' => some .rightParen
  | '\x7b' => some .leftBrace
  | '\x7d' => some .rightBrace
  | '[' => some .leftBracket
  | ']' => some .rightBracket
  | ',' => some .comma
  | '.' => some .dot
  | ':' => some .colon
  | ';' => some .semicolon
  | '-' => some .minus
  | '+' => some .plus
  | '*' => some .star
  | _ => none

/-- The marks that an equals sign may follow: alone, and with it. -/
def paired? : Char → Option (Mark × Mark)
  | '!' => some (.bang, .bangEqual)
  | '=' => some (.equal, .equalEqual)
  | '<' => some (.less, .lessEqual)
  | '>' => some (.greater, .greaterEqual)
  | _ => none

/-- The number that decimal digits write. -/
def digitsValue (ds : List Char) : Nat := ds.foldl (fun n d => 10 * n + (d.toNat - 48)) 0

/-- The digits behind a point, if the text goes on with a point and a digit. -/
def fraction : List Char → List Char
  | '.' :: cs => cs.takeWhile Char.isDigit
  | _ => []

/-- A number: digits, and a point with digits if a digit follows the point. -/
def number (cs : List Char) : Token.Kind × Nat :=
  let whole := cs.takeWhile Char.isDigit
  let places := fraction (cs.dropWhile Char.isDigit)
  let value := Double.ofQuotient (digitsValue (whole ++ places)) (Nat.pow 10 places.length)
  (.number value, if places.isEmpty then whole.length else whole.length + 1 + places.length)

/-- A word: any first character, and the letters, numerals and underscores behind it.  A reserved
word is a keyword. -/
def word (c : Char) (cs : List Char) : Token.Kind × Nat :=
  let text := String.ofList (c :: cs.takeWhile Text.isWordRest)
  ((Keyword.ofText? text).elim (.identifier text) .keyword, 1 + (cs.takeWhile Text.isWordRest).length)

/-- A string, up to the next quote. -/
def string (cs : List Char) : Except Cause (Token.Kind × Nat) :=
  let text := cs.takeWhile (· != '"')
  if text.length < cs.length then .ok (.string (String.ofList text), text.length + 2)
  else .error (.unterminated (String.ofList ('"' :: cs)))

/-- The token that begins with `c` and goes on in `cs`, and its length. -/
def front (c : Char) (cs : List Char) : Except Cause (Token.Kind × Nat) :=
  if let some m := single? c then .ok (.mark m, 1)
  else if let some (alone, withEqual) := paired? c then
    .ok (if cs.head? = some '=' then (.mark withEqual, 2) else (.mark alone, 1))
  else if c = '/' then
    match cs with
    | '/' :: text => .ok (.comment (String.ofList (Text.trim text)), 2 + text.length)
    | _ => .ok (.mark .slash, 1)
  else if c = '"' then string cs
  else if c.isDigit then .ok (number (c :: cs))
  else if Text.isWordStart c then .ok (word c cs)
  else if c = '#' && cs.head?.any Text.isWordStart then .ok (word c cs)
  else .error (.unknown c)

/-! ## One line -/

/-- The tokens of the characters from `column` on, where the columns are counted from zero and the
line begins at `offset`.  The first `skip` characters belong to a token already read. -/
def tokens (line offset : Nat) : (skip column : Nat) → List Char → Except Fault (List Token)
  | _, _, [] => .ok []
  | skip + 1, column, _ :: cs => tokens line offset skip (column + 1) cs
  | 0, column, c :: cs =>
    if Text.isBlank c then tokens line offset 0 (column + 1) cs
    else
      let position : Position := ⟨line, column + 1⟩
      match front c cs with
      | .error cause => .error ⟨cause, position, String.ofList (c :: cs)⟩
      | .ok (kind, length) =>
        match tokens line offset (length - 1) (column + 1) cs with
        | .error fault => .error fault
        | .ok later =>
          let span : Span := ⟨offset + column, offset + column + length, position⟩
          .ok (⟨kind, span, String.ofList ((c :: cs).take length)⟩ :: later)

/-- Characters of a token already read are passed one by one. -/
theorem tokens_skip (line offset skip column : Nat) (cs : List Char) :
    tokens line offset skip column cs =
      tokens line offset 0 (column + min skip cs.length) (cs.drop skip) := by
  induction cs generalizing skip column with
  | nil => simp [tokens]
  | cons c cs ih =>
    cases skip with
    | zero => simp
    | succ skip =>
      rw [tokens, ih, List.length_cons, List.drop_succ_cons]
      congr 1
      omega

end Scan

/-! ## Whole sources -/

/-- How far a source has been read: the lines begun, and the characters of the lines read. -/
structure Scanner where
  lines : Nat := 0
  offset : Nat := 0
deriving DecidableEq, Repr

namespace Scanner

/-- Reads the next line, given with its terminator.  A line that stops the scan counts as begun,
and its characters do not count. -/
def line (s : Scanner) (text : List Char) : Scanner × Except Scan.Fault (List Token) :=
  match Scan.tokens (s.lines + 1) s.offset 0 0 (Text.content text) with
  | .ok ts => (⟨s.lines + 1, s.offset + text.length⟩, .ok ts)
  | .error fault => (⟨s.lines + 1, s.offset⟩, .error fault)

/-- Reads lines one after another, up to the first that stops the scan. -/
def all (s : Scanner) : List (List Char) → Except Scan.Fault (List Token)
  | [] => .ok []
  | text :: texts =>
    match s.line text with
    | (s, .ok ts) => (s.all texts).map (ts ++ ·)
    | (_, .error fault) => .error fault

end Scanner

/-- The tokens of a source. -/
def tokenize (source : String) : Except Scan.Fault (List Token) :=
  ({} : Scanner).all (Text.lines source.toList)

end Shading
