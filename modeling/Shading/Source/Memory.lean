import Shading.Error
import Shading.Include.Path

/-!
# Sources in memory

Texts kept under the normal forms of their paths.
-/

namespace Shading

/-- Texts by the normal forms of their paths. -/
structure Memory where
  files : List (String × String) := []

namespace Memory

/-- Keeps a text, in place of one under the same normal form. -/
def insert (m : Memory) (path text : String) : Memory :=
  let key := Path.normalize path
  ⟨(key, text) :: m.files.filter (·.1 != key)⟩

/-- The texts of a list, a later one in place of an earlier. -/
def ofList (files : List (String × String)) : Memory :=
  files.foldl (fun m f => m.insert f.1 f.2) {}

/-- The text under a path, if there is one. -/
def text? (m : Memory) (path : String) : Option String := m.files.lookup (Path.normalize path)

/-- The text under a path.  The error names the path as it was asked for. -/
def text (m : Memory) (path : String) : Except Error String :=
  match m.text? path with
  | some text => .ok text
  | none => .error (.inclusion .notFound path)

/-- The lines of the text under a path. -/
def openSource (m : Memory) (path : String) : Except Error (List Reading) :=
  (m.text path).map Reading.ofText

end Memory

end Shading
