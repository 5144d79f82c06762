import Shading.Include.Path

/-!
# Include stacks

The chain of files that are being read, each on behalf of the one before it.  Every compilation has a
chain of its own, which all stacks of that compilation share.
-/

namespace Shading

/-- The files being read, in normal form, the outermost first. -/
structure IncludeStack where
  chain : Nat
  paths : List String
deriving DecidableEq, Repr

namespace IncludeStack

/-- The stack at the start of a compilation. -/
def root (chain : Nat) (path : String) : IncludeStack := ⟨chain, [Path.normalize path]⟩

/-- The stack for a file included by the innermost. -/
def push (s : IncludeStack) (path : String) : IncludeStack :=
  { s with paths := s.paths ++ [Path.normalize path] }

/-- Whether a file is being read. -/
def contains (s : IncludeStack) (path : String) : Bool := s.paths.contains (Path.normalize path)

/-- How many files are being read. -/
def depth (s : IncludeStack) : Nat := s.paths.length

@[simp] theorem chain_push (s : IncludeStack) (path : String) : (s.push path).chain = s.chain := rfl

@[simp] theorem depth_push (s : IncludeStack) (path : String) : (s.push path).depth = s.depth + 1 := by
  simp [push, depth]

theorem contains_push_self (s : IncludeStack) (path : String) : (s.push path).contains path := by
  simp [push, contains]

end IncludeStack

end Shading
