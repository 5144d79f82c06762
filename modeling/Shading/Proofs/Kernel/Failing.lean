import Shading.Kernel
import Shading.Proofs.Results

/-!
# When compiling fails

Any tree can be compiled, not only one that was read, and then there may be types that GLSL has no name
for and statements that a body cannot hold.  Compiling fails just if there is one of these where the
lowering looks, and a stage to be written at all.

* `Primitive.Unnamed` — the types without a name;
* `Expr.primitives` — the types that an expression names, at any depth;
* `Expr.fails_glsl` — an expression cannot be written just if one of these has no name;
* `Statement.Unwritable`, `Function.Unwritable`, `Program.Unwritable` — what cannot be written;
* `Compiler.compile_fails_iff` — when there are no kernels.
-/

namespace Shading

/-! ### Types and expressions -/

/-- GLSL has no such type: more than four components or none, a matrix of another size than two to four,
or a sampler of other than one to three dimensions. -/
def Primitive.Unnamed (p : Primitive) : Prop :=
  match p.kind with
  | .void => False
  | .bool | .int | .uint | .float => ∃ n, p.cardinality = some n ∧ ¬ (1 ≤ n ∧ n ≤ 4)
  | .matrix => ∀ n, p.cardinality = some n → ¬ (2 ≤ n ∧ n ≤ 4)
  | .sampler => ∀ n, p.cardinality = some n → ¬ (1 ≤ n ∧ n ≤ 3)

mutual

/-- The types of all values made and all parameters in an expression. -/
def Expr.primitives : Expr → List Primitive
  | .constant _ => []
  | .symbol _ => []
  | .variadic values => Expr.primitivesAll values
  | .parameter binding => [binding.primitive]
  | .construct primitive value => primitive :: value.primitives
  | .sample _ value => value.primitives
  | .binary _ left right => left.primitives ++ right.primitives
  | .unary _ value => value.primitives

/-- The types of all values made and all parameters in expressions. -/
def Expr.primitivesAll : List Expr → List Primitive
  | [] => []
  | e :: es => e.primitives ++ Expr.primitivesAll es

end

/-- The expression names a type that GLSL does not have. -/
def Expr.Unwritable (e : Expr) : Prop := ∃ p ∈ e.primitives, p.Unnamed

namespace Primitive

lemma glsl?_eq_none (p : Primitive) : p.glsl? = none ↔ p.Unnamed := by
  obtain ⟨kind, cardinality, precision⟩ := p
  cases kind with
  | void => simp [glsl?, Unnamed]
  | bool | int | uint | float =>
    -- one component has the name of its kind, others are vectors
    rcases cardinality with _ | _ | _ | n
    · simp [glsl?, Unnamed]
    · simp [glsl?, Unnamed]
    · simp [glsl?, Unnamed]
    · simp only [glsl?, Unnamed, Option.some.injEq, exists_eq_left', ite_eq_right_iff, reduceCtorEq,
        imp_false, Bool.and_eq_true, decide_eq_true_eq]
      omega
  | matrix | sampler => simp [glsl?, Unnamed, Option.filter_eq_none_iff]

/-- **A type cannot be written just if it has no name.** -/
lemma fails_glsl (p : Primitive) : Fails p.glsl ↔ p.Unnamed := by
  rw [← glsl?_eq_none]
  unfold glsl
  cases p.glsl? <;> simp

lemma fails_qualified (p : Primitive) : Fails p.qualified ↔ p.Unnamed :=
  (fails_bind_pure _).trans p.fails_glsl

end Primitive

lemma Binding.fails_glsl (b : Binding) : Fails b.glsl ↔ b.primitive.Unnamed :=
  (fails_bind_pure _).trans b.primitive.fails_qualified

lemma Binding.fails_entry (keyword : String) (b : Binding) :
    Fails (b.entry keyword) ↔ b.primitive.Unnamed :=
  (fails_bind_pure _).trans b.primitive.fails_glsl

namespace Expr

lemma exists_unnamed_append (ps qs : List Primitive) : (∃ p ∈ ps ++ qs, p.Unnamed) ↔
    (∃ p ∈ ps, p.Unnamed) ∨ ∃ p ∈ qs, p.Unnamed := by
  simp [or_and_right, exists_or]

mutual

/-- **An expression cannot be written just if it names a type without a name**, at any depth. -/
theorem fails_glsl : ∀ e : Expr, Fails e.glsl ↔ e.Unwritable
  | .constant _ | .symbol _ => by simp [glsl, Unwritable, primitives]
  | .variadic values => by
    rw [glsl, fails_bind_pure, fails_glslAll values, Unwritable, primitives]
  | .parameter binding => by simp [glsl, Unwritable, primitives, binding.fails_glsl]
  | .construct primitive value => by
    rw [glsl, fails_bind fun _ => (fails_bind_pure _).trans (fails_glsl value), primitive.fails_glsl]
    simp [Unwritable, primitives]
  | .sample _ value => by
    rw [glsl, fails_bind_pure, fails_glsl value, Unwritable, Unwritable, primitives]
  | .binary _ left right => by
    rw [glsl, fails_bind fun _ => (fails_bind_pure _).trans (fails_glsl right), fails_glsl left]
    exact (exists_unnamed_append _ _).symm
  | .unary _ value => by
    rw [glsl, fails_bind_pure, fails_glsl value, Unwritable, Unwritable, primitives]

theorem fails_glslAll : ∀ es : List Expr, Fails (glslAll es) ↔ ∃ p ∈ primitivesAll es, p.Unnamed
  | [] => by simp [glslAll, primitivesAll]
  | e :: es => by
    rw [glslAll, fails_bind fun _ => (fails_bind_pure _).trans (fails_glslAll es), fails_glsl e]
    exact (exists_unnamed_append _ _).symm

end

end Expr

/-! ### Constants, statements and functions -/

/-- The constant or its value has a type without a name. -/
def Constant.Unwritable (c : Constant) : Prop := c.primitive.Unnamed ∨ c.value.Unwritable

/-- A body cannot hold the statement: control flow and what is declared at the top level only, and what
cannot be written itself. -/
def Statement.Unwritable : Statement → Prop
  | .comment _ | .includeFile _ | .shaderType _ => False
  | .constant declared => declared.Unwritable
  | .assign _ value | .returns value | .expression value => value.Unwritable
  | .branch .. | .whileLoop .. | .forLoop .. => True
  | .uniform _ | .varying _ | .function .. | .stage .. => True

/-- A parameter, the result or a statement of the function cannot be written. -/
def Function.Unwritable (f : Function) : Prop :=
  (∃ b ∈ f.parameters, b.primitive.Unnamed) ∨ f.returned.Unnamed ∨ ∃ s ∈ f.body, s.Unwritable

lemma Constant.fails_entry (c : Constant) : Fails c.entry ↔ c.Unwritable := by
  unfold Constant.entry
  rw [fails_bind fun _ => (fails_bind_pure _).trans c.value.fails_glsl, c.primitive.fails_glsl]
  rfl

namespace Statement

/-- **A statement cannot be written in full just if a body cannot hold it.** -/
theorem fails_fullEntries (s : Statement) : Fails s.fullEntries ↔ s.Unwritable := by
  cases s with
  | comment | includeFile | shaderType => simp [fullEntries, Unwritable]
  | constant declared => exact (fails_bind_pure _).trans declared.fails_entry
  | assign _ value | returns value | expression value => exact (fails_bind_pure _).trans value.fails_glsl
  | _ => exact iff_of_true ⟨_, rfl⟩ trivial

/-- Comments alone can always be written. -/
lemma fails_entries (lowering : Lowering) (s : Statement) :
    Fails (s.entries lowering) ↔ lowering = .full ∧ s.Unwritable := by
  cases lowering with
  | comments => cases s <;> simp [entries]
  | full => simpa [entries] using s.fails_fullEntries

lemma fails_bodyEntries (lowering : Lowering) (body : List Statement) :
    Fails (bodyEntries lowering body) ↔ lowering = .full ∧ ∃ s ∈ body, s.Unwritable := by
  unfold bodyEntries
  rw [fails_bind_pure, fails_mapM]
  simp only [fails_entries]
  grind

end Statement

lemma Function.fails_entries (f : Function) : Fails f.entries ↔ f.Unwritable := by
  unfold Function.entries Function.Unwritable
  rw [fails_bind fun _ => fails_bind fun _ => fails_bind_pure _, fails_mapM, f.returned.fails_qualified,
    Statement.fails_bodyEntries]
  simp only [Binding.fails_glsl, true_and]

/-! ### Kernels -/

/-- A declaration cannot be written, or in full a function or the body of a stage. -/
def Program.Unwritable (lowering : Lowering) (p : Program) : Prop :=
  (∃ b ∈ p.uniforms, b.primitive.Unnamed) ∨ (∃ b ∈ p.varyings, b.primitive.Unnamed) ∨
    (∃ c ∈ p.constants, c.Unwritable) ∨
    (lowering = .full ∧
      ((∃ f ∈ p.functions, f.Unwritable) ∨ ∃ stage ∈ p.stages, ∃ s ∈ stage.body, s.Unwritable))

namespace Compiler

variable (c : Compiler) (shader : Shader)

lemma fails_functionEntries (functions : List Function) :
    Fails (c.functionEntries functions) ↔ c.lowering = .full ∧ ∃ f ∈ functions, f.Unwritable := by
  unfold functionEntries
  cases c.lowering with
  | comments => simp
  | full =>
    rw [fails_bind_pure, fails_mapM]
    simp only [Function.fails_entries, true_and]

/-- The kernel of a stage fails with the declarations or its own body. -/
lemma fails_kernel (stage : Stage) : Fails (c.kernel shader stage) ↔
    (∃ b ∈ shader.program.uniforms, b.primitive.Unnamed) ∨
      (∃ b ∈ shader.program.varyings, b.primitive.Unnamed) ∨
      (∃ d ∈ shader.program.constants, d.Unwritable) ∨
      (c.lowering = .full ∧ ∃ f ∈ shader.program.functions, f.Unwritable) ∨
      (c.lowering = .full ∧ ∃ s ∈ stage.body, s.Unwritable) := by
  unfold kernel entries
  rw [fails_bind_pure, fails_bind fun _ => fails_bind fun _ => fails_bind fun _ => fails_bind fun _ =>
    fails_bind_pure _, fails_mapM, fails_mapM, fails_mapM, c.fails_functionEntries,
    Statement.fails_bodyEntries]
  simp only [Binding.fails_entry, Constant.fails_entry]

/-- **When compiling fails**: there is a stage, and a declaration cannot be written or, in full only, a
function or the body of a stage. -/
theorem compile_fails_iff : (∃ cause, c.compile shader = .error cause) ↔
    shader.program.stages ≠ [] ∧ shader.program.Unwritable c.lowering := by
  show Fails (c.compile shader) ↔ _
  unfold compile
  simp only [fails_mapM, fails_kernel]
  constructor
  · rintro ⟨stage, hs, h⟩
    refine ⟨List.ne_nil_of_mem hs, ?_⟩
    rcases h with h | h | h | ⟨hfull, h⟩ | ⟨hfull, h⟩
    · exact .inl h
    · exact .inr (.inl h)
    · exact .inr (.inr (.inl h))
    · exact .inr (.inr (.inr ⟨hfull, .inl h⟩))
    · exact .inr (.inr (.inr ⟨hfull, .inr ⟨stage, hs, h⟩⟩))
  · rintro ⟨hne, h⟩
    -- every kernel has the declarations, so that the first fails with them
    obtain ⟨first, hfirst⟩ := List.exists_mem_of_ne_nil _ hne
    rcases h with h | h | h | ⟨hfull, h | ⟨stage, hs, h⟩⟩
    · exact ⟨first, hfirst, .inl h⟩
    · exact ⟨first, hfirst, .inr (.inl h)⟩
    · exact ⟨first, hfirst, .inr (.inr (.inl h))⟩
    · exact ⟨first, hfirst, .inr (.inr (.inr (.inl ⟨hfull, h⟩)))⟩
    · exact ⟨stage, hs, .inr (.inr (.inr (.inr ⟨hfull, h⟩)))⟩

end Compiler

end Shading
