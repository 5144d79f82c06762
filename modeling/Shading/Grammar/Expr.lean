import Shading.Expr
import Shading.Grammar.Rule

/-!
# The rules for expressions

Four levels of operators between two values, each grouping to the left, over operators before one
value, over the innermost expressions.  Each parenthesis, argument, sampled value and operand of an
operator before one value goes a level deeper, and there are `Expr.maxDepth` levels.

* `Primitive.rule` — a primitive type;
* `Inner.ofDepth` — the rules inside an expression with some levels left;
* `Expr.rule` — a whole expression.
-/

namespace Shading

/-- A primitive type: a type word, which a precision may precede. -/
def Primitive.rule : Rule Primitive := do
  let first ← Rule.identifier
  let precision := Precision.ofWord? first
  let word ← if precision.isSome then Rule.identifier else pure first
  match Primitive.ofWord? word precision with
  | some primitive => return primitive
  | none => Rule.stop (.unknownPrimitive word)

namespace Expr

/-! ## Operators between two values -/

/-- The operators that compare for equality. -/
def equalityOp? : Token.Kind → Option BinaryOp
  | .mark .equalEqual => some .equal
  | .mark .bangEqual => some .notEqual
  | _ => none

/-- The operators that compare in order. -/
def comparisonOp? : Token.Kind → Option BinaryOp
  | .mark .less => some .less
  | .mark .lessEqual => some .lessEqual
  | .mark .greater => some .greater
  | .mark .greaterEqual => some .greaterEqual
  | _ => none

/-- The operators of sums. -/
def additiveOp? : Token.Kind → Option BinaryOp
  | .mark .plus => some .add
  | .mark .minus => some .subtract
  | _ => none

/-- The operators of products. -/
def multiplicativeOp? : Token.Kind → Option BinaryOp
  | .mark .star => some .multiply
  | .mark .slash => some .divide
  | _ => none

/-- The operators before one value. -/
def unaryOp? : Token.Kind → Option UnaryOp
  | .mark .minus => some .negate
  | .mark .bang => some .not
  | _ => none

/-- Further operators and operands behind `left`, grouped to the left.  At most `n` are read. -/
def chain (op? : Token.Kind → Option BinaryOp) (operand : Rule Expr) : Nat → Expr → Rule Expr
  | 0, left => return left
  | n + 1, left => do
    match (← Rule.peek).bind op? with
    | none => return left
    | some op =>
      Rule.advance
      let right ← operand
      chain op? operand n (.binary op left right)

/-- One level of operators over its operands. -/
def level (op? : Token.Kind → Option BinaryOp) (operand : Rule Expr) : Rule Expr := do
  let left ← operand
  chain op? operand (← Rule.remaining) left

/-- All levels of operators between two values. -/
def levels (operand : Rule Expr) : Rule Expr :=
  level equalityOp? (level comparisonOp? (level additiveOp? (level multiplicativeOp? operand)))

/-! ## Innermost expressions -/

/-- What comes from the arguments of a constructor: one argument is itself. -/
def ofArguments : List Expr → Expr
  | [argument] => argument
  | arguments => .variadic arguments

/-- A constructor: a type with arguments. -/
def construction (expression : Rule Expr) : Rule Expr := do
  let primitive ← Primitive.rule
  let arguments ← Rule.parenthesised expression
  return .construct primitive (ofArguments arguments)

/-- A sampler and the value it is read at, behind the keyword. -/
def sampling (expression : Rule Expr) : Rule Expr := do
  Rule.expect .leftParen
  let sampler ← Rule.identifier
  Rule.expect .comma
  let value ← expression
  Rule.expect .rightParen
  return .sample sampler value

/-- An expression in parentheses. -/
def grouping (expression : Rule Expr) : Rule Expr := do
  Rule.expect .leftParen
  let inside ← expression
  Rule.expect .rightParen
  return inside

/-- An innermost expression, over the rule for the expressions inside it.  A token that begins none
is passed before the rule stops. -/
def primary (expression : Rule Expr) : Rule Expr := do
  let some token ← Rule.peekToken | Rule.stop (.expectedExpression none)
  match token.kind with
  | .keyword .sample => Rule.advance; sampling expression
  | .mark .leftParen => grouping expression
  | .identifier name =>
    if Primitive.isTypeWord name then construction expression
    else
      Rule.advance
      return .symbol name
  | .number value =>
    Rule.advance
    return .constant (.number value (token.lexeme.toList.contains '.'))
  | .string text => Rule.advance; return .constant (.string text)
  | found => Rule.advance; Rule.stop (.expectedExpression (some found))

/-! ## Depth -/

/-- How many levels an expression may have. -/
def maxDepth : Nat := 64

/-- The rules one level further inside: for a whole expression, and for the operand of an operator
before one value. -/
structure Inner where
  expression : Rule Expr
  operand : Rule Expr

/-- An operator before one value and its operand, or an innermost expression. -/
def prefixed (inner : Inner) : Rule Expr := do
  match (← Rule.peek).bind unaryOp? with
  | some op =>
    Rule.advance
    let value ← inner.operand
    return .unary op value
  | none => primary inner.expression

/-- The rules with `n` levels left. -/
def Inner.ofDepth : Nat → Inner
  | 0 => ⟨Rule.stop .tooDeep, Rule.stop .tooDeep⟩
  | n + 1 => ⟨levels (prefixed (ofDepth n)), prefixed (ofDepth n)⟩

/-- A whole expression. -/
def rule : Rule Expr := (Inner.ofDepth maxDepth).expression

end Expr

end Shading
