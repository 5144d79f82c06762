import Shading.Decimal.Layout
import Shading.Primitive

/-!
# Expressions

Literals, operators and the expressions built from them.
-/

namespace Shading

/-- A constant.  A number remembers whether it was written with a point, so that `2.0` stays apart
from `2`. -/
inductive Literal
  | number (value : Double) (fractional : Bool)
  | string (text : String)
deriving DecidableEq, Repr

namespace Literal

/-- A number that is fractional exactly when its value has a fraction. -/
def ofValue (value : Double) : Literal := number value (!value.isInteger)

/-- A number written with a point. -/
def ofFraction (value : Double) : Literal := number value true

/-- Whether the literal is a number written with a point. -/
def isFractional : Literal → Bool
  | number _ fractional => fractional
  | string _ => false

/-- How a literal is written: a fractional number keeps its point. -/
def text : Literal → String
  | number value fractional =>
    if fractional && value.isInteger then value.tenthsText else value.text
  | string text => "\"" ++ text ++ "\""

end Literal

/-- The operators between two values. -/
inductive BinaryOp
  | add | subtract | multiply | divide
  | equal | notEqual | less | lessEqual | greater | greaterEqual
deriving DecidableEq, Repr

/-- How an operator is written. -/
def BinaryOp.text : BinaryOp → String
  | add => "+"
  | subtract => "-"
  | multiply => "*"
  | divide => "/"
  | equal => "=="
  | notEqual => "!="
  | less => "<"
  | lessEqual => "<="
  | greater => ">"
  | greaterEqual => ">="

/-- The operators before one value. -/
inductive UnaryOp
  | negate | not
deriving DecidableEq, Repr

/-- How an operator is written. -/
def UnaryOp.text : UnaryOp → String
  | negate => "-"
  | not => "!"

/-- A name with its type: a uniform, a varying or a parameter of a function. -/
structure Binding where
  primitive : Primitive
  name : String
deriving DecidableEq, Repr

/-- An expression. -/
inductive Expr
  | constant (value : Literal)
  | symbol (name : String)
  | variadic (values : List Expr)
  | parameter (binding : Binding)
  | construct (primitive : Primitive) (value : Expr)
  | sample (sampler : String) (value : Expr)
  | binary (op : BinaryOp) (left right : Expr)
  | unary (op : UnaryOp) (value : Expr)
deriving Repr

end Shading
