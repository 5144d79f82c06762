/-!
# Flaws in UTF-8

The first place where bytes stop being UTF-8: the character that cannot be there begins at an index,
and either some of its bytes show that it cannot go on, or the bytes end inside it.

* `Utf8.lead?` — what the first byte of a character asks of the next;
* `Utf8.flaw?` — the first flaw, if there is one.
-/

namespace Shading.Utf8

/-- Where a flaw begins, and how many bytes show it; the bytes end too early when there is no number. -/
structure Flaw where
  index : Nat
  length : Option Nat
deriving DecidableEq, Repr

/-- The words for a flaw. -/
def Flaw.message (f : Flaw) : String :=
  match f.length with
  | some n => "invalid utf-8 sequence of " ++ n.repr ++ " bytes from index " ++ f.index.repr
  | none => "incomplete utf-8 byte sequence from index " ++ f.index.repr

/-- How many bytes follow the first byte of a character, and the range of the first that follows. -/
def lead? (b : UInt8) : Option (Nat × UInt8 × UInt8) :=
  if b < 0x80 then some (0, 0x80, 0xBF)
  else if b < 0xC2 then none
  else if b < 0xE0 then some (1, 0x80, 0xBF)
  else if b = 0xE0 then some (2, 0xA0, 0xBF)
  else if b = 0xED then some (2, 0x80, 0x9F)
  else if b < 0xF0 then some (2, 0x80, 0xBF)
  else if b = 0xF0 then some (3, 0x90, 0xBF)
  else if b < 0xF4 then some (3, 0x80, 0xBF)
  else if b = 0xF4 then some (3, 0x80, 0x8F)
  else none

/-- The first flaw from a character on that begins at `start` and of which `read` bytes have been
read; `owed` bytes are to follow, the first of them from `low` to `high`. -/
def flawFrom (start read owed : Nat) (low high : UInt8) : List UInt8 → Option Flaw
  | [] => if owed = 0 then none else some ⟨start, none⟩
  | b :: bs =>
    if owed = 0 then
      match lead? b with
      | none => some ⟨start, some 1⟩
      | some (0, low, high) => flawFrom (start + 1) 0 0 low high bs
      | some (owed, low, high) => flawFrom start 1 owed low high bs
    else if low ≤ b && b ≤ high then
      if owed = 1 then flawFrom (start + read + 1) 0 0 0x80 0xBF bs
      else flawFrom start (read + 1) (owed - 1) 0x80 0xBF bs
    else some ⟨start, some read⟩

/-- The first flaw, if there is one. -/
def flaw? (bytes : List UInt8) : Option Flaw := flawFrom 0 0 0 0x80 0xBF bytes

end Shading.Utf8
