import Shading.Kernel.Lowering

/-!
# Kernels

A shader is compiled to one kernel for each of its stages, in the order of the stages.  A kernel
holds the declarations of the whole program and the body of its stage as `main`.
-/

namespace Shading

/-- The GLSL text of one stage. -/
structure Kernel where
  stage : StageKind
  source : String
deriving DecidableEq, Repr

/-- The settings under which kernels are made. -/
structure Compiler where
  version : String := "330 core"
  lowering : Lowering := .comments
deriving DecidableEq, Repr

namespace Compiler

/-- The line that names the compiler in a kernel. -/
def signature : String := "Compiled using shade-glsl v0.1.5"

/-- The functions, where they are written. -/
def functionEntries (c : Compiler) (functions : List Function) :
    Except Lowering.Cause (List Entry) :=
  match c.lowering with
  | .full => return (← functions.mapM Function.entries).flatten
  | .comments => return []

/-- The entries of the kernel of a stage. -/
def entries (c : Compiler) (shader : Shader) (stage : Stage) :
    Except Lowering.Cause (List Entry) := do
  let program := shader.program
  let uniforms ← program.uniforms.mapM (Binding.entry "uniform")
  let varyings ← program.varyings.mapM (Binding.entry "varying")
  let constants ← program.constants.mapM Constant.entry
  let functions ← c.functionEntries program.functions
  let body ← Statement.bodyEntries c.lowering stage.body
  return [.comment (stage.kind.title ++ " compiled from " ++ shader.path), .comment signature, .blank,
      .line ("#version " ++ c.version), .blank]
    ++ uniforms ++ [.blank] ++ varyings ++ [.blank] ++ constants ++ [.blank] ++ functions
    ++ [.enter "void main()"] ++ body ++ [.leave]

/-- The kernel of a stage. -/
def kernel (c : Compiler) (shader : Shader) (stage : Stage) : Except Lowering.Cause Kernel := do
  return { stage := stage.kind, source := Entry.render (← c.entries shader stage) }

/-- The kernels of a shader. -/
def compile (c : Compiler) (shader : Shader) : Except Lowering.Cause (List Kernel) :=
  shader.program.stages.mapM (c.kernel shader)

end Compiler

end Shading
