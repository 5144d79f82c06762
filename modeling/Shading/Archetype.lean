import Shading.Program

/-!
# Archetypes

Standard expansions of a program, applied after a file has been read and before its includes are
merged in.  Each has a condition, and those of a pipeline see the work of the ones before them.

* `Expansion` — a condition and what to do under it;
* `Expansion.sprite` — the standard inputs of a sprite;
* `Expansion.renameUniforms`, `Expansion.retype` — plain expansions to put a pipeline together from;
* `Pipeline.apply` — the expansions one after another.
-/

namespace Shading

/-- A change to programs, made where it applies. -/
structure Expansion where
  applies : Program → Bool
  expand : Program → Program

namespace Expansion

/-- The uniforms that every sprite has. -/
def spriteUniforms : List Binding :=
  [{ primitive := { kind := .matrix, cardinality := some 4 }, name := "u_projectionView" },
   { primitive := { kind := .sampler, cardinality := some 2 }, name := "u_texture" }]

/-- The varyings that every sprite has. -/
def spriteVaryings : List Binding :=
  [{ primitive := { kind := .float, cardinality := some 2 }, name := "v_uv" },
   { primitive := { kind := .float, cardinality := some 4 }, name := "v_color" }]

/-- The vertex stage of a sprite that declares none. -/
def spriteVertex : Stage :=
  { kind := .vertex, parameters := [], body := [.comment "default sprite vertex stage"] }

/-- A program of the type `sprite` gets the standard uniforms and varyings before its own, and a
vertex stage if it has none. -/
def sprite : Expansion where
  applies p := p.shaderType == "sprite"
  expand p :=
    { p with
      uniforms := spriteUniforms ++ p.uniforms
      varyings := spriteVaryings ++ p.varyings
      stages := if p.hasStage .vertex then p.stages else spriteVertex :: p.stages }

/-- Puts a text before the names of all uniforms. -/
def renameUniforms (mark : String) : Expansion where
  applies p := !p.uniforms.isEmpty
  expand p := { p with uniforms := p.uniforms.map fun b => { b with name := mark ++ b.name } }

/-- Gives every program a type. -/
def retype (kind : String) : Expansion where
  applies _ := true
  expand p := p.withShaderType kind

/-- The expansion of an archetype. -/
def ofArchetype? : String → Option Expansion
  | "sprite" => some sprite
  | _ => none

/-- The program after the expansion, if it applies. -/
def run (e : Expansion) (p : Program) : Program := if e.applies p then e.expand p else p

end Expansion

/-- Expansions in the order in which they are made. -/
abbrev Pipeline := List Expansion

namespace Pipeline

/-- The program after all expansions. -/
def apply (pipeline : Pipeline) (p : Program) : Program := pipeline.foldl (fun p e => e.run p) p

@[simp] theorem apply_nil (p : Program) : apply [] p = p := rfl

theorem apply_append (first second : Pipeline) (p : Program) :
    apply (first ++ second) p = apply second (apply first p) := by
  simp [apply, List.foldl_append]

/-- The pipeline of archetypes, or the first that is unknown. -/
def ofArchetypes : List String → Except String Pipeline
  | [] => .ok []
  | name :: names =>
    match Expansion.ofArchetype? name with
    | none => .error name
    | some expansion => (ofArchetypes names).map (expansion :: ·)

end Pipeline

end Shading
