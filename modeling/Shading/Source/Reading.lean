import Shading.Text.Lines
import Shading.Text.Utf8
import Shading.Token.Scan

/-!
# Reading sources

Bytes arrive in pieces, and lines are put together from them: a line ends with a line feed, or with
the end of the source, which shows only when a further piece is asked for.  Each line is decoded on
its own.

* `Reading` — the outcome of reading one line;
* `readings` — the lines that pieces make;
* `scanReadings` — the tokens of a source that is read line by line, while its reader may be told to
  stop.
-/

namespace Shading

/-- Why a file or a stream cannot be read or written. -/
inductive IoFault
  | invalidText (flaw : Utf8.Flaw)
  | broken
  | notFound
  | notDirectory
  | isDirectory
  | nameTooLong
  | nulInName
deriving DecidableEq, Repr

/-- The words for a fault. -/
def IoFault.message : IoFault → String
  | invalidText flaw => flaw.message
  | broken => "broken stream"
  | notFound => "No such file or directory (os error 2)"
  | notDirectory => "Not a directory (os error 20)"
  | isDirectory => "Is a directory (os error 21)"
  | nameTooLong => "File name too long (os error 36)"
  | nulInName => "file name contained an unexpected NUL byte"

/-- One line that was read, with its terminator, or the fault met instead; and how many pieces had
been asked for by then. -/
structure Reading where
  line : Except IoFault (List Char)
  asked : Nat

namespace Reading

/-- What comes when a piece is asked for. -/
abbrev Piece := Except IoFault (List UInt8)

/-- The characters that the bytes of a line encode. -/
def decode (bytes : List UInt8) : Except IoFault (List Char) :=
  match String.fromUTF8? bytes.toByteArray with
  | some text => .ok text.toList
  | none => .error (.invalidText ((Utf8.flaw? bytes).getD ⟨0, none⟩))

/-- The lines that pieces make, when `asked` pieces have come and `bytes` of them are not yet part
of a line. -/
def readings (asked : Nat) (bytes : List UInt8) : List Piece → List Reading
  | [] => if bytes.isEmpty then [] else [⟨decode bytes, asked + 1⟩]
  | .error fault :: _ => [⟨.error fault, asked + 1⟩]
  | .ok piece :: pieces =>
    let bytes := bytes ++ piece
    if bytes.getLast? = some 10 then ⟨decode bytes, asked + 1⟩ :: readings (asked + 1) [] pieces
    else readings (asked + 1) bytes pieces

/-- The lines of a source that hands out its bytes line by line. -/
def ofBytes (bytes : List UInt8) : List Reading :=
  readings 0 [] ((Text.splitAfter (· == 10) bytes).map .ok)

/-- The lines of a source that hands out its bytes line by line and breaks when more than `n` pieces
are asked for. -/
def ofBytesBreaking (n : Nat) (bytes : List UInt8) : List Reading :=
  let pieces := Text.splitAfter (· == 10) bytes
  readings 0 [] ((pieces.take n).map .ok ++ if n ≤ pieces.length then [.error .broken] else [])

/-- The lines of a text, none of which can fail. -/
def ofLines (asked : Nat) : List (List Char) → List Reading
  | [] => []
  | line :: lines => ⟨.ok line, asked + 1⟩ :: ofLines (asked + 1) lines

/-- The lines of a text at hand. -/
def ofText (text : String) : List Reading := ofLines 0 (Text.lines text.toList)

end Reading

/-- Why the tokens of a source that is being read are not all there. -/
inductive Interruption
  | scan (fault : Scan.Fault)
  | read (fault : IoFault)
  | cancelled
deriving DecidableEq, Repr

/-- The tokens of a source that is read line by line.  Before each line `cancelled` tells, from the
number of pieces asked for so far, whether the reader has been told to stop. -/
def scanReadings (cancelled : Nat → Bool) (s : Scanner) (asked : Nat) :
    List Reading → Except Interruption (List Token)
  | [] => if cancelled asked then .error .cancelled else .ok []
  | reading :: later =>
    if cancelled asked then .error .cancelled
    else match reading.line with
      | .error fault => .error (.read fault)
      | .ok text =>
        match s.line text with
        | (_, .error fault) => .error (.scan fault)
        | (s, .ok ts) => (scanReadings cancelled s reading.asked later).map (ts ++ ·)

/-- The tokens of a source that is read to its end, unless the reader is told to stop. -/
def tokenizeReadings (cancelled : Nat → Bool) (readings : List Reading) :
    Except Interruption (List Token) :=
  scanReadings cancelled {} 0 readings

end Shading
