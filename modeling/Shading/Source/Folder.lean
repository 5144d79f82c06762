import Shading.Error
import Shading.Include.Path

/-!
# Sources in a folder

A tree of named files and folders, in which paths are followed name by name.  A file can be read and
written, a folder can be opened but not read.  The folder stands inside others, in which nothing else
is known to be.

* `Folder.follow` — where a path leads;
* `Folder.read`, `Folder.write` — the text of a file;
* `Folder.openSource` — a shader source below the folder.
-/

namespace Shading

/-- A place, by the names that lead to it from the folder.  The folder itself has no names; `..` leads
out of it, and `/` is the outermost folder. -/
abbrev Place := List String

/-- Files and folders by their places. -/
structure Folder where
  files : List (Place × String) := []
  folders : List Place := []

namespace Folder

/-- What stands somewhere in a folder. -/
inductive Node
  | file (text : String)
  | folder

/-- The folder itself or one of those around it. -/
def isAround (place : Place) : Bool := place.all fun name => name == ".." || name == "/"

/-- What stands at a place. -/
def node? (f : Folder) (place : Place) : Option Node :=
  match f.files.lookup place with
  | some text => some (.file text)
  | none => if isAround place || f.folders.contains place then some .folder else none

/-- The names of a path, between its slashes.  A path that ends with a slash ends in a folder. -/
def names (path : String) : List String :=
  let pieces := (Path.segments path.toList).map String.ofList
  let inner := pieces.filter (· != "")
  if pieces.getLast? = some "" && !inner.isEmpty then inner ++ ["."] else inner

/-- Where a path starts: in the folder, or with a slash in the outermost one. -/
def start (path : String) : Place := if path.toList.head? = some '/' then ["/"] else []

/-- Where a name leads. -/
def step (here : Place) (name : String) : Place :=
  if name = "." then here
  else if name ≠ ".." then here ++ [name]
  else if here = ["/"] then here
  else if isAround here then here ++ [".."]
  else here.dropLast

/-- The longest name, in bytes. -/
def maxName : Nat := 255

/-- The length, in bytes, from which on a path is too long. -/
def maxPath : Nat := 4096

/-- Where a path leads, which need not be there.  Each name but the last must lead to a folder. -/
def follow (f : Folder) (here : Place) : List String → Except IoFault Place
  | [] => .ok here
  | name :: later =>
    match f.node? here with
    | none => .error .notFound
    | some (.file _) => .error .notDirectory
    | some .folder =>
      if maxName < name.utf8ByteSize then .error .nameTooLong else f.follow (step here name) later

/-- Where a path leads from the folder itself. -/
def locate (f : Folder) (path : String) : Except IoFault Place :=
  if path.toList.contains '\x00' then .error .nulInName
  else if maxPath ≤ path.utf8ByteSize then .error .nameTooLong
  else f.follow (start path) (names path)

/-- What a path leads to. -/
def resolve (f : Folder) (path : String) : Except IoFault Node := do
  match f.node? (← f.locate path) with
  | some node => return node
  | none => throw .notFound

/-- The text of a file. -/
def read (f : Folder) (path : String) : Except IoFault String := do
  match ← f.resolve path with
  | .file text => return text
  | .folder => throw .isDirectory

/-- The folder with a text in a file, which is made if it is not there.  A path that ends with a slash
means a folder. -/
def write (f : Folder) (path text : String) : Except IoFault Folder := do
  let bare := (path.toList.reverse.dropWhile (· == '/')).reverse
  let place ← f.locate (String.ofList bare)
  if bare.length < path.length || (f.node? place matches some .folder) then throw .isDirectory
  return { f with files := (place, text) :: f.files.filter (·.1 != place) }

/-- The places that names lead to, one after another. -/
def places (here : Place) : List String → List Place
  | [] => []
  | name :: later => step here name :: places (step here name) later

/-- The folder that holds some folders and files, and the folders on the way to them. -/
def ofList (folders : List String) (files : List (String × String)) : Folder where
  files := files.reverse.map fun f => ((names f.1).foldl step (start f.1), f.2)
  folders := folders.flatMap (fun path => places (start path) (names path)) ++
    files.flatMap fun f => places (start f.1) (names f.1).dropLast

/-- A shader source below the folder, which messages call `root`. -/
def openSource (root : String) (f : Folder) (path : String) : Except Error (List Reading) :=
  let path := Path.normalize path
  match f.resolve path with
  | .ok (.file text) => .ok (Reading.ofText text)
  | .ok .folder => .ok [⟨.error .isDirectory, 1⟩]
  | .error .notFound => .error (.inclusion .notFound (root ++ "/" ++ path))
  | .error fault => .error (.io fault)

end Folder

end Shading
