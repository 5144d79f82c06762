import Shading.Archetype
import Shading.Error
import Shading.Kernel
import Shading.Source.Folder
import Shading.Toml.Reader
import Shading.Toml.Writer

/-!
# Configurations

The settings of a project: the archetypes that are expanded, and how kernels are made.  They are kept
in a TOML document, in which unknown keys count for nothing and missing ones stand for the defaults.

* `Config.ofToml` — the settings in a document;
* `Config.toToml` — the document of settings;
* `Config.load`, `Config.save` — the same in a file;
* `Config.pipeline` — the expansions of the archetypes.
-/

namespace Shading

/-- The settings of a project. -/
structure Config where
  archetypes : List String := []
  compiler : Compiler := {}
deriving DecidableEq, Repr

open Toml (Node Table)

namespace Lowering

/-- The name of a lowering. -/
def name : Lowering → String
  | comments => "comments"
  | full => "full"

/-- The lowering of a name. -/
def ofName? : String → Option Lowering
  | "comments" => some comments
  | "full" => some full
  | _ => none

theorem ofName?_name (l : Lowering) : ofName? l.name = some l := by cases l <;> rfl

end Lowering

namespace Config

/-! ## Reading -/

/-- The fields of a table.  What stands under unknown keys counts for nothing, but its numbers must be
such that they can be held. -/
def known? (keys : List String) (entries : Table) : Option Table :=
  if entries.all fun e => keys.contains e.1 || e.2.fits then some entries else none

/-- The fields of a group of settings: a table by key, an array by place.  What stands in an array
behind the last field is not looked at, and a date counts as a table of unknown keys. -/
def fields? (keys : List String) : Node → Option Table
  | .table _ entries => known? keys entries
  | .inline entries => known? keys entries
  | .moment => some []
  | .array elements => some (keys.zip elements)
  | .tables earlier last => some (keys.zip ((earlier ++ [last]).map (Node.table .header)))
  | _ => none

/-- A field, or its default when it is missing. -/
def field? {α : Type} (table : Table) (key : String) (read : Node → Option α) (default : α) : Option α :=
  match table.lookup key with
  | none => some default
  | some node => read node

/-- A text. -/
def text? : Node → Option String
  | .string text => some text
  | _ => none

/-- A list of texts. -/
def texts? : Node → Option (List String)
  | .array elements => elements.mapM text?
  | _ => none

/-- A lowering: its name, or a table with nothing but an empty table or array under its name. -/
def lowering? : Node → Option Lowering
  | .string name => Lowering.ofName? name
  | .table _ [(name, node)] => if node.isEmpty then Lowering.ofName? name else none
  | .inline [(name, node)] => if node.isEmpty then Lowering.ofName? name else none
  | _ => none

/-- The archetypes in a group of settings. -/
def archetypes? (node : Node) : Option (List String) := do
  field? (← fields? ["archetypes"] node) "archetypes" texts? []

/-- How kernels are made, in a group of settings. -/
def compiler? (node : Node) : Option Compiler := do
  let table ← fields? ["glsl_version", "statement_lowering"] node
  let version ← field? table "glsl_version" text? ({} : Compiler).version
  let lowering ← field? table "statement_lowering" lowering? ({} : Compiler).lowering
  return { version, lowering }

/-- The settings in the table of a document. -/
def ofTable? (table : Table) : Option Config := do
  let table ← known? ["parser", "compiler"] table
  let archetypes ← field? table "parser" archetypes? []
  let compiler ← field? table "compiler" compiler? {}
  return { archetypes, compiler }

/-- The settings in a document. -/
def ofToml (source : String) : Except Error Config :=
  match (Toml.parse? source).bind ofTable? with
  | some config => .ok config
  | none => .error (.config .malformed)

/-! ## Writing -/

/-- The document of settings. -/
def toToml (c : Config) : String :=
  "[parser]\narchetypes = " ++ Toml.writeStrings c.archetypes ++
    "\n\n[compiler]\nglsl_version = " ++ Toml.writeString c.compiler.version ++
    "\nstatement_lowering = " ++ Toml.writeString c.compiler.lowering.name ++ "\n"

/-! ## Files -/

/-- The settings in a file. -/
def load (folder : Folder) (path : String) : Except Error Config := do
  ofToml (← (folder.read path).mapError .io)

/-- The folder with the settings in a file. -/
def save (c : Config) (folder : Folder) (path : String) : Except Error Folder :=
  (folder.write path c.toToml).mapError .io

/-! ## Use -/

/-- The expansions of the archetypes. -/
def pipeline (archetypes : List String) : Except Error Pipeline :=
  match Pipeline.ofArchetypes archetypes with
  | .ok pipeline => .ok pipeline
  | .error name => .error (.config (.unknownArchetype name))

end Config

end Shading
