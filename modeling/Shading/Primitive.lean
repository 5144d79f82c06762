/-!
# Primitive types

The types of the shading language: a kind, a cardinality for vectors, matrices and samplers, and a
precision.

* `Primitive.ofWord?` — the primitive a type word names;
* `Primitive.isTypeWord` — the words a primitive may begin with.
-/

namespace Shading

/-- How precisely a value is kept. -/
inductive Precision
  | low | medium | high
deriving DecidableEq, Repr

namespace Precision

/-- The precision a word names. -/
def ofWord? : String → Option Precision
  | "lowp" => some low
  | "medp" => some medium
  | "mediump" => some medium
  | "highp" => some high
  | _ => none

/-- The qualifier of a precision. -/
def qualifier : Precision → String
  | low => "lowp"
  | medium => "mediump"
  | high => "highp"

theorem ofWord?_qualifier (p : Precision) : ofWord? p.qualifier = some p := by cases p <;> rfl

end Precision

namespace Primitive

/-- What a primitive is made of. -/
inductive Kind
  | void | bool | int | uint | float | matrix | sampler
deriving DecidableEq, Repr

/-- The name of a kind, as messages show it. -/
def Kind.name : Kind → String
  | void => "Void"
  | bool => "Bool"
  | int => "Int"
  | uint => "UInt"
  | float => "Float"
  | matrix => "Matrix"
  | sampler => "Sampler"

end Primitive

/-- A primitive type. -/
structure Primitive where
  kind : Primitive.Kind
  cardinality : Option Nat := none
  precision : Option Precision := none
deriving DecidableEq, Repr

namespace Primitive

/-- The kind and the cardinality a type word names. -/
def shape? : String → Option (Kind × Option Nat)
  | "void" => some (.void, none)
  | "bool" => some (.bool, none)
  | "bool2" => some (.bool, some 2)
  | "bool3" => some (.bool, some 3)
  | "bool4" => some (.bool, some 4)
  | "int" => some (.int, none)
  | "int2" => some (.int, some 2)
  | "int3" => some (.int, some 3)
  | "int4" => some (.int, some 4)
  | "uint" => some (.uint, none)
  | "uint2" => some (.uint, some 2)
  | "uint3" => some (.uint, some 3)
  | "uint4" => some (.uint, some 4)
  | "float" => some (.float, none)
  | "float2" => some (.float, some 2)
  | "vec2" => some (.float, some 2)
  | "float3" => some (.float, some 3)
  | "vec3" => some (.float, some 3)
  | "float4" => some (.float, some 4)
  | "vec4" => some (.float, some 4)
  | "mat2" => some (.matrix, some 2)
  | "mat3" => some (.matrix, some 3)
  | "mat4" => some (.matrix, some 4)
  | "sampler1d" => some (.sampler, some 1)
  | "sampler2d" => some (.sampler, some 2)
  | "sampler3d" => some (.sampler, some 3)
  | _ => none

/-- The primitive a type word names, with a precision.  Samplers have none. -/
def ofWord? (word : String) (precision : Option Precision) : Option Primitive :=
  (shape? word).map fun (kind, cardinality) =>
    { kind, cardinality, precision := if kind = .sampler then none else precision }

/-- A word a primitive may begin with: a precision or a type. -/
def isTypeWord (word : String) : Bool :=
  (Precision.ofWord? word).isSome || (shape? word).isSome

/-- The type of no value. -/
def isVoid (p : Primitive) : Bool := p.kind = .void

end Primitive

end Shading
