import Shading.Toml.Document
import Shading.Toml.Text

/-!
# Reading TOML

A document is a sequence of lines: headers, keys with their values, comments and blank lines.

* `value` — a value of any kind;
* `maxDepth` — how deep values and keys may go;
* `Toml.parse?` — the table of a whole document, unless it is malformed.
-/

namespace Shading.Toml

/-- Reading that may fail, from the front of a text. -/
abbrev Reader := StateT (List Char) Option

namespace Reader

/-- The next character, which stays. -/
def peek : Reader (Option Char) := fun cs => some (cs.head?, cs)

/-- Passes a character that must come next. -/
def char (c : Char) : Reader Unit := fun cs =>
  match cs with
  | d :: cs => if c = d then some ((), cs) else none
  | [] => none

/-- The longest run of characters of a class. -/
def span (inClass : Char → Bool) : Reader (List Char) := fun cs =>
  some (cs.takeWhile inClass, cs.dropWhile inClass)

/-- Passes blanks and tabs. -/
def blanks : Reader Unit := do let _ ← span fun c => c == ' ' || c == '\t'

/-- The number of characters left. -/
def remaining : Reader Nat := fun cs => some (cs.length, cs)

/-- Passes blanks, line ends and comments. -/
def gaps : Reader Unit := fun cs => (skip false cs).map fun cs => ((), cs)
where
  /-- What stands behind the gaps, inside a comment or not. -/
  skip : Bool → List Char → Option (List Char)
    | _, [] => some []
    | _, '\n' :: cs => skip false cs
    | _, '\r' :: '\n' :: cs => skip false cs
    | true, c :: cs => if isControl c then none else skip true cs
    | false, ' ' :: cs => skip false cs
    | false, '\t' :: cs => skip false cs
    | false, '#' :: cs => skip true cs
    | false, cs => some cs

/-- Passes blanks, a comment if there is one, and the end of the line. -/
def lineEnd : Reader Unit := do
  blanks
  if (← peek) = some '#' then
    let comment ← span fun c => c != '\n' && c != '\r'
    if comment.any isControl then failure
  match ← peek with
  | none => return
  | some '\n' => char '\n'
  | _ => char '\r'; char '\n'

end Reader

open Reader

/-! ## Keys -/

/-- A character of a bare key. -/
def isKeyChar (c : Char) : Bool := c.isAlphanum || c == '_' || c == '-'

/-- One part of a key. -/
def simpleKey : Reader String := do
  match ← peek with
  | some '"' => return String.ofList (← lineString?)
  | some '\'' => return String.ofList (← lineString?)
  | _ =>
    let key ← span isKeyChar
    if key.isEmpty then failure
    return String.ofList key

/-- The parts of a key behind the first, each behind a dot.  At most `n` are read. -/
def keyParts : Nat → Reader (List String)
  | 0 => return []
  | n + 1 => do
    blanks
    if (← peek) = some '.' then
      char '.'
      blanks
      let part ← simpleKey
      return part :: (← keyParts n)
    else return []

/-- How many brackets may be open at once in a value, and how many parts a key may have. -/
def maxDepth : Nat := 80

/-- A key with its dots, and the blanks behind it. -/
def dottedKey : Reader (List String) := do
  let key := (← simpleKey) :: (← keyParts (← remaining))
  if maxDepth < key.length then failure
  return key

/-! ## Values -/

/-- A character of a number, a date or a word: anything but a blank, a line end, and what the grammar
uses between values. -/
def isWordChar (c : Char) : Bool :=
  !(['=', ',', '[', ']', '\x7b', '\x7d', '#', ' ', '\t', '\r', '\n'].contains c)

/-- The value a bare word is. -/
def wordValue? (word : List Char) : Option Node :=
  if isBoolean word then some .scalar
  else if isInteger word then some (if integerFits word then .scalar else .unfit)
  else if isInfinite word then some .scalar
  else if isFloat word then some (if floatFits word then .scalar else .unfit)
  else if isMoment word then some .moment
  else none

/-- A number, a date or a truth value.  A blank may stand between a date and a time. -/
def word : Reader Node := do
  let first ← span isWordChar
  match ← get with
  | ' ' :: cs =>
    if isDate first && cs.head?.any Char.isDigit then
      char ' '
      let time ← span isWordChar
      wordValue? (first ++ ' ' :: time)
    else wordValue? first
  | _ => wordValue? first

mutual

/-- A value, in which at most `depth` brackets are open at once, and in which at most `n` values stand
inside one another or side by side. -/
def value (depth : Nat) : Nat → Reader Node
  | 0 => failure
  | n + 1 => do
    match ← peek with
    | some '"' => return .string (String.ofList (← string?))
    | some '\'' => return .string (String.ofList (← string?))
    | some '[' =>
      if depth = 0 then failure
      char '['
      gaps
      return .array (← elements (depth - 1) n)
    | some '\x7b' =>
      if depth = 0 then failure
      char '\x7b'
      gaps
      return .inline (← entries (depth - 1) n [])
    | _ => word

/-- The elements of an array up to its closing bracket. -/
def elements (depth : Nat) : Nat → Reader (List Node)
  | 0 => failure
  | n + 1 => do
    if (← peek) = some ']' then
      char ']'
      return []
    let first ← value depth n
    gaps
    if (← peek) = some ',' then
      char ','
      gaps
      return first :: (← elements depth n)
    else
      char ']'
      return [first]

/-- The entries of an inline table up to its closing brace, behind those read so far. -/
def entries (depth : Nat) : Nat → Table → Reader Table
  | 0, _ => failure
  | n + 1, table => do
    if (← peek) = some '\x7d' then
      char '\x7d'
      return table
    let key ← dottedKey
    gaps
    char '='
    gaps
    let node ← value depth n
    let table ← table.set? key node
    gaps
    if (← peek) = some ',' then
      char ','
      gaps
      entries depth n table
    else
      char '\x7d'
      return table

end

/-! ## Documents -/

/-- A line of a document. -/
inductive Line
  | blank
  | entry (key : List String) (value : Node)
  | table (key : List String)
  | element (key : List String)

/-- A line, up to and with its end. -/
def line : Reader Line := do
  blanks
  let read ← match ← get with
    | '[' :: '[' :: _ => do
      char '['; char '['; blanks
      let key ← dottedKey
      char ']'; char ']'
      pure (Line.element key)
    | '[' :: _ => do
      char '['; blanks
      let key ← dottedKey
      char ']'
      pure (Line.table key)
    | [] => pure Line.blank
    | c :: _ =>
      if c == '#' || c == '\n' || c == '\r' then pure Line.blank
      else do
        let key ← dottedKey
        char '='; blanks
        let node ← value maxDepth ((← remaining) + 1)
        pure (Line.entry key node)
  lineEnd
  return read

/-- The lines up to the end of a document.  At most `n` are read. -/
def lines : Nat → Reader (List Line)
  | 0 => return []
  | n + 1 => do
    let read ← line
    if (← remaining) = 0 then return [read] else return read :: (← lines n)

/-- The document after a line, and the keys of the header that is in force. -/
def addLine? (document : Table × List String) : Line → Option (Table × List String)
  | .blank => some document
  | .entry key value =>
    (document.1.within? document.2 fun table => table.set? key value).map (·, document.2)
  | .table key => (document.1.openTable? key).map (·, key)
  | .element key => (document.1.openElement? key).map (·, key)

/-- The table of a document, unless it is malformed.  A byte order mark may stand before it. -/
def parse? (source : String) : Option Table := do
  let cs := match source.toList with
    | '\ufeff' :: cs => cs
    | cs => cs
  let (ls, _) ← lines (cs.length + 1) cs
  let (table, _) ← ls.foldlM addLine? ([], [])
  return table

end Shading.Toml
