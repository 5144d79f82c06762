import Shading.Kernel.Layout
import Shading.Program
import Shading.Statement.Dump

/-!
# Lowering

How types, expressions and statements are written in GLSL.

* `Primitive.glsl?` — the name of a type;
* `Expr.glsl` — an expression, in which an operation inside another stands in parentheses;
* `Statement.entries` — a statement of a body.
-/

namespace Shading

/-- How much of a body is written. -/
inductive Lowering
  /-- Comments only. -/
  | comments
  /-- Everything, and the functions before it. -/
  | full
deriving DecidableEq, Repr

namespace Lowering

/-- Why something cannot be written in GLSL. -/
inductive Cause
  | unmapped (primitive : Primitive)
  | controlFlow (keyword : String)
  | topLevelOnly (statement : Statement)
deriving Repr

/-- The words for a cause. -/
def Cause.message : Cause → String
  | unmapped p =>
    "Unable to convert primitive " ++ p.kind.name ++ " with cardinality " ++
      Dump.optional (p.cardinality.map Nat.repr) ++ " to GLSL"
  | controlFlow keyword => "'" ++ keyword ++ "' statements cannot be lowered to GLSL yet"
  | topLevelOnly statement => "Declaration is only valid at the top level: " ++ statement.dump

end Lowering

open Lowering (Cause)

namespace Primitive

/-- The GLSL name of a type without its precision, if it has one. -/
def glsl? (p : Primitive) : Option String :=
  let scalar (single vector : String) : Option String :=
    match p.cardinality with
    | none => some single
    | some 1 => some single
    | some n => if 2 ≤ n && n ≤ 4 then some (vector ++ n.repr) else none
  match p.kind with
  | .void => some "void"
  | .bool => scalar "bool" "bvec"
  | .int => scalar "int" "ivec"
  | .uint => scalar "uint" "uvec"
  | .float => scalar "float" "vec"
  | .matrix => (p.cardinality.filter fun n => 2 ≤ n && n ≤ 4).map ("mat" ++ ·.repr)
  | .sampler => (p.cardinality.filter fun n => 1 ≤ n && n ≤ 3).map ("sampler" ++ ·.repr ++ "D")

/-- The GLSL name of a type without its precision. -/
def glsl (p : Primitive) : Except Cause String :=
  match p.glsl? with
  | some name => .ok name
  | none => .error (.unmapped p)

/-- The qualifier for the precision of a type. -/
def qualifier? (p : Primitive) : Option String := p.precision.map Precision.qualifier

/-- The GLSL name of a type with its precision. -/
def qualified (p : Primitive) : Except Cause String := do
  return Entry.qualifier p.qualifier? ++ (← p.glsl)

end Primitive

/-- A parameter. -/
def Binding.glsl (b : Binding) : Except Cause String := do
  return (← b.primitive.qualified) ++ " " ++ b.name

namespace Expr

/-- Whether the outermost operation is one between two values. -/
def isBinary : Expr → Bool
  | .binary .. => true
  | _ => false

/-- The text of an operand, in parentheses when it is an operation between two values. -/
def asOperand (e : Expr) (text : String) : String := if e.isBinary then "(" ++ text ++ ")" else text

mutual

/-- An expression in GLSL. -/
def glsl : Expr → Except Cause String
  | .constant value => return value.text
  | .symbol name => return name
  | .variadic values => return String.intercalate ", " (← glslAll values)
  | .parameter binding => binding.glsl
  | .construct primitive value => return (← primitive.glsl) ++ "(" ++ (← value.glsl) ++ ")"
  | .sample sampler value => return "texture(" ++ sampler ++ ", " ++ (← value.glsl) ++ ")"
  | .binary op left right =>
    return left.asOperand (← left.glsl) ++ " " ++ op.text ++ " " ++ right.asOperand (← right.glsl)
  | .unary op value => return op.text ++ value.asOperand (← value.glsl)

/-- Expressions in GLSL one by one. -/
def glslAll : List Expr → Except Cause (List String)
  | [] => return []
  | e :: es => return (← e.glsl) :: (← glslAll es)

end

end Expr

/-- A uniform or a varying, under its keyword. -/
def Binding.entry (keyword : String) (b : Binding) : Except Cause Entry := do
  return .declaration keyword b.primitive.qualifier? (← b.primitive.glsl) b.name

/-- A constant. -/
def Constant.entry (c : Constant) : Except Cause Entry := do
  return .constant c.primitive.qualifier? (← c.primitive.glsl) c.name (← c.value.glsl)

namespace Statement

/-- A statement, all of it. -/
def fullEntries : Statement → Except Cause (List Entry)
  | .comment text => return [.comment text]
  | .assign target value => return [.line (target ++ " = " ++ (← value.glsl) ++ ";")]
  | .returns value => return [.line ("return " ++ (← value.glsl) ++ ";")]
  | .expression value => return [.line ((← value.glsl) ++ ";")]
  | .constant declared => return [← declared.entry]
  | .includeFile _ => return []
  | .shaderType _ => return []
  | .branch .. => throw (.controlFlow "if")
  | .whileLoop .. => throw (.controlFlow "while")
  | .forLoop .. => throw (.controlFlow "for")
  | s => throw (.topLevelOnly s)

/-- A statement, as much of it as is written. -/
def entries (lowering : Lowering) (s : Statement) : Except Cause (List Entry) :=
  match lowering, s with
  | .full, s => s.fullEntries
  | .comments, .comment text => return [.comment text]
  | .comments, _ => return []

/-- The statements of a body. -/
def bodyEntries (lowering : Lowering) (body : List Statement) : Except Cause (List Entry) := do
  return (← body.mapM (entries lowering)).flatten

end Statement

/-- A function and the blank line behind it. -/
def Function.entries (f : Function) : Except Cause (List Entry) := do
  let parameters ← f.parameters.mapM Binding.glsl
  let returned ← f.returned.qualified
  let body ← Statement.bodyEntries .full f.body
  let header := returned ++ " " ++ f.name ++ "(" ++ String.intercalate ", " parameters ++ ")"
  return .enter header :: body ++ [.leave, .blank]

end Shading
