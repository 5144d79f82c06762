import Shading.Expr

/-!
# Statements

What stands in the body of a function or a stage.  Declarations are statements too, though a body
may not hold most of them.
-/

namespace Shading

/-- The stages of a shader. -/
inductive StageKind
  | vertex | fragment | geometry
deriving DecidableEq, Repr

namespace StageKind

/-- The stage that a function of this name is. -/
def ofName? : String → Option StageKind
  | "vertex" => some vertex
  | "fragment" => some fragment
  | "geometry" => some geometry
  | _ => none

/-- The title of a stage. -/
def title : StageKind → String
  | vertex => "Vertex"
  | fragment => "Fragment"
  | geometry => "Geometry"

end StageKind

/-- A named value. -/
structure Constant where
  primitive : Primitive
  name : String
  value : Expr
deriving Repr

/-- A statement. -/
inductive Statement
  | comment (text : String)
  | includeFile (path : String)
  | shaderType (kind : String)
  | uniform (binding : Binding)
  | varying (binding : Binding)
  | constant (declared : Constant)
  | assign (target : String) (value : Expr)
  | returns (value : Expr)
  | expression (value : Expr)
  | branch (condition : Expr) (yes no : List Statement)
  | whileLoop (condition : Expr) (body : List Statement)
  | forLoop (condition : Expr) (body : List Statement)
  | function (returned : Primitive) (name : String) (parameters : List Binding)
      (body : List Statement)
  | stage (kind : StageKind) (parameters : List Binding) (body : List Statement)
deriving Repr

/-- A function. -/
structure Function where
  returned : Primitive
  name : String
  parameters : List Binding
  body : List Statement
deriving Repr

/-- A stage: a function without a result, under a reserved name. -/
structure Stage where
  kind : StageKind
  parameters : List Binding
  body : List Statement
deriving Repr

end Shading
