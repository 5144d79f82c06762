/-!
# The layout of kernels

The text of a kernel is a sequence of entries, each of which takes whole lines.  Blocks nest, and the
lines of a block are indented by its depth.

* `Entry.lines` — the lines of an entry at a depth;
* `Entry.render` — the text of entries.
-/

namespace Shading

/-- What takes lines of its own in a kernel. -/
inductive Entry
  | line (text : String)
  | blank
  | comment (text : String)
  | declaration (keyword : String) (precision : Option String) (type name : String)
  | constant (precision : Option String) (type name value : String)
  | enter (header : String)
  | leave
deriving DecidableEq, Repr

namespace Entry

/-- The blanks before a line at a depth. -/
def indentation (depth : Nat) : String := String.ofList (List.replicate (2 * depth) ' ')

/-- A precision and the space behind it, if there is one. -/
def qualifier (precision : Option String) : String := precision.elim "" (· ++ " ")

/-- The lines of an entry at a depth.  A blank line has no indentation. -/
def lines (depth : Nat) : Entry → List String
  | line text => [indentation depth ++ text]
  | blank => [""]
  | comment text => [indentation depth ++ "// " ++ text]
  | declaration keyword precision type name =>
    [indentation depth ++ keyword ++ " " ++ qualifier precision ++ type ++ " " ++ name ++ ";"]
  | constant precision type name value =>
    [indentation depth ++ "const " ++ qualifier precision ++ type ++ " " ++ name ++ " = " ++ value
      ++ ";"]
  | enter header => [indentation depth ++ header, indentation depth ++ "\x7b"]
  | leave => [indentation (depth - 1) ++ "\x7d"]

/-- The depth behind an entry. -/
def depthAfter (depth : Nat) : Entry → Nat
  | enter _ => depth + 1
  | leave => depth - 1
  | _ => depth

/-- The lines of entries, the first of which stands at a depth. -/
def allLines (depth : Nat) : List Entry → List String
  | [] => []
  | e :: es => e.lines depth ++ allLines (e.depthAfter depth) es

/-- The depth behind entries. -/
def depthAfterAll (depth : Nat) (entries : List Entry) : Nat := entries.foldl depthAfter depth

theorem allLines_append (depth : Nat) (es fs : List Entry) :
    allLines depth (es ++ fs) = allLines depth es ++ allLines (depthAfterAll depth es) fs := by
  induction es generalizing depth with
  | nil => rfl
  | cons e es ih => simp [allLines, depthAfterAll, ih]

/-- The text of entries. -/
def render (entries : List Entry) : String :=
  String.join ((allLines 0 entries).map (· ++ "\n"))

end Entry

end Shading
