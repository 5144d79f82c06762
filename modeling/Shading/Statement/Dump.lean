import Shading.Statement
import Shading.Text.Quoted

/-!
# Dumps

The text of a syntax tree in a message: each node by its name, with its parts in parentheses or,
named, in braces.
-/

namespace Shading

namespace Dump

/-- Texts divided by commas. -/
def commas (parts : List String) : String := String.intercalate ", " parts

/-- A node with one unnamed part. -/
def node (name part : String) : String := name ++ "(" ++ part ++ ")"

/-- A node with named parts. -/
def record (name : String) (parts : List (String × String)) : String :=
  name ++ " \x7b " ++ commas (parts.map fun p => p.1 ++ ": " ++ p.2) ++ " \x7d"

/-- A list. -/
def list (parts : List String) : String := "[" ++ commas parts ++ "]"

/-- A part that may be missing. -/
def optional (part : Option String) : String := part.elim "None" (node "Some")

/-- A truth value. -/
def bool (b : Bool) : String := if b then "true" else "false"

end Dump

open Dump

/-- The name of a precision. -/
def Precision.dump : Precision → String
  | low => "Low"
  | medium => "Medium"
  | high => "High"

/-- A primitive. -/
def Primitive.dump (p : Primitive) : String :=
  record "Primitive"
    [("kind", p.kind.name), ("cardinality", optional (p.cardinality.map Nat.repr)),
     ("precision", optional (p.precision.map Precision.dump))]

/-- A name with its type, under the name of what it declares. -/
def Binding.dump (role : String) (b : Binding) : String :=
  record role [("primitive", b.primitive.dump), ("name", Text.quoted b.name)]

/-- A literal. -/
def Literal.dump : Literal → String
  | number value fractional =>
    record "Number" [("value", value.markedText), ("fractional", bool fractional)]
  | string text => node "String" (Text.quoted text)

/-- The name of an operator between two values. -/
def BinaryOp.dump : BinaryOp → String
  | add => "Add"
  | subtract => "Subtract"
  | multiply => "Multiply"
  | divide => "Divide"
  | equal => "Equal"
  | notEqual => "NotEqual"
  | less => "Less"
  | lessEqual => "LessEqual"
  | greater => "Greater"
  | greaterEqual => "GreaterEqual"

/-- The name of an operator before one value. -/
def UnaryOp.dump : UnaryOp → String
  | negate => "Negate"
  | not => "Not"

mutual

/-- An expression. -/
def Expr.dump : Expr → String
  | .constant value => node "Constant" value.dump
  | .symbol name => node "Symbol" (Text.quoted name)
  | .variadic values => node "Variadic" (list (Expr.dumpAll values))
  | .parameter binding => node "Parameter" (binding.dump "Parameter")
  | .construct primitive value =>
    record "TypeConstructor" [("primitive", primitive.dump), ("value", value.dump)]
  | .sample sampler value =>
    record "SampleOperation" [("sampler", Text.quoted sampler), ("value", value.dump)]
  | .binary op left right =>
    record "BinaryOperation"
      [("operator", op.dump), ("left", left.dump), ("right", right.dump)]
  | .unary op value => record "UnaryOperation" [("operator", op.dump), ("value", value.dump)]

/-- Expressions one by one. -/
def Expr.dumpAll : List Expr → List String
  | [] => []
  | e :: es => e.dump :: Expr.dumpAll es

end

/-- A constant declaration. -/
def Constant.dump (c : Constant) : String :=
  record "ConstantDeclaration"
    [("primitive", c.primitive.dump), ("name", Text.quoted c.name), ("value", c.value.dump)]

mutual

/-- A statement. -/
def Statement.dump : Statement → String
  | .comment text => node "Comment" (Text.quoted text)
  | .includeFile path => node "Include" (record "Include" [("path", Text.quoted path)])
  | .shaderType kind =>
    node "ShaderTypeDeclaration" (record "ShaderTypeDeclaration" [("kind", Text.quoted kind)])
  | .uniform binding => node "UniformDeclaration" (binding.dump "UniformDeclaration")
  | .varying binding => node "VaryingDeclaration" (binding.dump "VaryingDeclaration")
  | .constant declared => node "ConstantDeclaration" declared.dump
  | .assign target value =>
    record "Assignment" [("variable", Text.quoted target), ("value", value.dump)]
  | .returns value => node "Return" value.dump
  | .expression value => node "Expression" value.dump
  | .branch condition yes no =>
    node "ControlFlow" (record "If"
      [("condition", condition.dump), ("true_branch", list (Statement.dumpAll yes)),
       ("false_branch", list (Statement.dumpAll no))])
  | .whileLoop condition body =>
    node "ControlFlow" (record "While"
      [("condition", condition.dump), ("statements", list (Statement.dumpAll body))])
  | .forLoop condition body =>
    node "ControlFlow" (record "For"
      [("condition", condition.dump), ("statements", list (Statement.dumpAll body))])
  | .function returned name parameters body =>
    node "FunctionDeclaration" (record "FunctionDeclaration"
      [("return_type", returned.dump), ("name", Text.quoted name),
       ("parameters", list (parameters.map (Binding.dump "Parameter"))),
       ("statements", list (Statement.dumpAll body))])
  | .stage kind parameters body =>
    node "StageDeclaration" (record "StageDeclaration"
      [("kind", kind.title), ("parameters", list (parameters.map (Binding.dump "Parameter"))),
       ("statements", list (Statement.dumpAll body))])

/-- Statements one by one. -/
def Statement.dumpAll : List Statement → List String
  | [] => []
  | s :: ss => s.dump :: Statement.dumpAll ss

end

end Shading
