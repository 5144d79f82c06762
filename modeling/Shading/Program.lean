import Shading.Statement

/-!
# Programs

What a shader declares: its type, the files it includes, and its declarations in order.  A shader is
a program with the path it was read from.

* `PathSet` — a set of paths in the order in which they were first inserted;
* `Program.merge` — the declarations of two programs, one after the other.
-/

namespace Shading

/-- A set of paths in the order in which they were first inserted. -/
structure PathSet where
  toList : List String := []
  nodup : toList.Nodup := by simp
deriving Repr

namespace PathSet

instance : EmptyCollection PathSet := ⟨{}⟩

/-- Adds a path at the end, unless it is there. -/
def insert (s : PathSet) (path : String) : PathSet :=
  if h : path ∈ s.toList then s
  else
    { toList := s.toList ++ [path]
      nodup := by
        rw [List.nodup_append]
        refine ⟨s.nodup, by simp, fun a ha b hb e => h ?_⟩
        rwa [← List.mem_singleton.1 hb, ← e] }

/-- Adds paths one after another. -/
def insertAll (s : PathSet) (paths : List String) : PathSet := paths.foldl insert s

/-- The set of the paths of a list. -/
def ofList (paths : List String) : PathSet := insertAll ∅ paths

/-- The paths of both sets, those of the first before the new ones of the second. -/
def union (s t : PathSet) : PathSet := s.insertAll t.toList

theorem toList_insert (s : PathSet) (path : String) :
    (s.insert path).toList = if path ∈ s.toList then s.toList else s.toList ++ [path] := by
  unfold insert
  split <;> simp [*]

@[simp] theorem mem_insert (s : PathSet) (path q : String) :
    q ∈ (s.insert path).toList ↔ q ∈ s.toList ∨ q = path := by
  rw [toList_insert]
  split
  · constructor
    · exact .inl
    · rintro (h | rfl) <;> assumption
  · simp

@[simp] theorem mem_insertAll (s : PathSet) (paths : List String) (q : String) :
    q ∈ (s.insertAll paths).toList ↔ q ∈ s.toList ∨ q ∈ paths := by
  unfold insertAll
  induction paths generalizing s with
  | nil => simp
  | cons path paths ih => simp [ih, or_assoc]

end PathSet

/-- The declarations of a shader file, and of the files it includes once these are merged in. -/
structure Program where
  shaderType : String := "none"
  includes : PathSet := ∅
  uniforms : List Binding := []
  varyings : List Binding := []
  constants : List Constant := []
  functions : List Function := []
  stages : List Stage := []
deriving Repr

namespace Program

/-- The declarations of both programs, those of the first before those of the second.  The type is
that of the first; declarations of one name are all kept. -/
def merge (p q : Program) : Program where
  shaderType := p.shaderType
  includes := p.includes.union q.includes
  uniforms := p.uniforms ++ q.uniforms
  varyings := p.varyings ++ q.varyings
  constants := p.constants ++ q.constants
  functions := p.functions ++ q.functions
  stages := p.stages ++ q.stages

/-- Whether a stage of this kind is declared. -/
def hasStage (p : Program) (kind : StageKind) : Bool := p.stages.any (·.kind = kind)

/-- Sets the type. -/
def withShaderType (p : Program) (kind : String) : Program := { p with shaderType := kind }

/-- Adds an included file. -/
def addInclude (p : Program) (path : String) : Program := { p with includes := p.includes.insert path }

/-- Adds a uniform. -/
def addUniform (p : Program) (b : Binding) : Program := { p with uniforms := p.uniforms ++ [b] }

/-- Adds a varying. -/
def addVarying (p : Program) (b : Binding) : Program := { p with varyings := p.varyings ++ [b] }

/-- Adds a constant. -/
def addConstant (p : Program) (c : Constant) : Program := { p with constants := p.constants ++ [c] }

/-- Adds a function. -/
def addFunction (p : Program) (f : Function) : Program := { p with functions := p.functions ++ [f] }

/-- Adds a stage. -/
def addStage (p : Program) (s : Stage) : Program := { p with stages := p.stages ++ [s] }

end Program

/-- A program and the path it was read from. -/
structure Shader where
  path : String
  program : Program
deriving Repr

end Shading
