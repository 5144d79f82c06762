import Shading.Config
import Shading.Include.Stack
import Shading.Grammar.Program

/-!
# Compiling texts

From a text on its own, without a resolver for the files that it may include, to its kernels.
-/

namespace Shading

namespace Shader

/-- The program of a text, before its includes are looked at. -/
def programOfText (path source : String) : Except Error Program := do
  let tokens ← (tokenize source).mapError (.lex path)
  (Program.ofTokens tokens).mapError (.parse path)

/-- The shader of a text that includes no file but itself. -/
def ofText (pipeline : Pipeline) (path source : String) : Except Error Shader := do
  let program := pipeline.apply (← programOfText path source)
  let included := program.includes.toList.map Path.normalize
  match included.find? fun p => !(IncludeStack.root 0 path).contains p with
  | some missing => throw (.inclusion .noResolver missing)
  | none => return { path, program }

end Shader

namespace Compiler

/-- The kernels of a shader. -/
def kernels (c : Compiler) (shader : Shader) : Except Error (List Kernel) :=
  (c.compile shader).mapError .lowering

/-- The kernels of a text. -/
def kernelsOfText (c : Compiler) (pipeline : Pipeline) (path source : String) :
    Except Error (List Kernel) := do
  c.kernels (← Shader.ofText pipeline path source)

end Compiler

end Shading
