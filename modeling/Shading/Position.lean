/-!
# Positions

Where a token stands in its source.
-/

namespace Shading

/-- A line and a column, both counted from one. -/
structure Position where
  line : Nat
  column : Nat
deriving DecidableEq, Repr, Inhabited

namespace Position

/-- The first position of a source. -/
def start : Position := ⟨1, 1⟩

/-- The line and the column, divided by a colon. -/
def text (p : Position) : String := p.line.repr ++ ":" ++ p.column.repr

end Position

/-- The characters of a token: the offsets of its first character and of the one behind its last,
counted from zero over the whole source, and the position of the first. -/
structure Span where
  first : Nat
  stop : Nat
  position : Position
deriving DecidableEq, Repr

end Shading
