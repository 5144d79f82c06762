import Shading.Session.Task
import Shading.Proofs.Acyclic

/-!
# The include graph

What a file declares by itself, which files it includes, and what comes out when its includes are put
in one after another, each expanded in the same way.  The expansion reads every file anew and knows
of no cache and no other compilation.  It comes to an end over finitely many files that include each
other without a loop.

* `Setting.fileProgram` — the program of a file by itself;
* `Setting.Includes`, `Setting.LoopFree` — the graph, and when it has no loop;
* `Setting.LoopFree.expand` — the recursive expansion of a file;
* `Setting.LoopFree.expand_eq` — its equation.
-/

namespace Shading

open Relation

/-- The files that a program includes, each once, in the order in which they first occur. -/
def Program.links (p : Program) : List String := (p.includes.toList.map Path.normalize).eraseDups

/-- A program with the programs of files put in, one after another. -/
def Program.gather (give : String → Except Error Shader) (p : Program) (keys : List String) :
    Except Error Program :=
  keys.foldlM (fun p key => (give key).map fun shader => p.merge shader.program) p

@[simp] lemma Program.gather_nil (give : String → Except Error Shader) (p : Program) :
    p.gather give [] = .ok p := rfl

lemma Program.gather_cons (give : String → Except Error Shader) (p : Program) (key : String)
    (keys : List String) :
    p.gather give (key :: keys) =
      (give key).bind fun shader => (p.merge shader.program).gather give keys := by
  unfold Program.gather
  rw [List.foldlM_cons]
  cases give key <;> rfl

/-- What is put in depends on the files that are. -/
lemma Program.gather_congr {give give' : String → Except Error Shader} {keys : List String}
    (h : ∀ key ∈ keys, give key = give' key) (p : Program) :
    p.gather give keys = p.gather give' keys := by
  induction keys generalizing p with
  | nil => rfl
  | cons key keys ih =>
    have hrest := ih fun i hi => h i (List.mem_cons_of_mem _ hi)
    rw [Program.gather_cons, Program.gather_cons, h key List.mem_cons_self]
    congr 1
    funext shader
    exact hrest (p.merge shader.program)

namespace Setting

variable (setting : Setting)

/-- The program of a file by itself, as the pipeline leaves it. -/
def fileProgram (key : String) : Except Error Program := do
  let readings ← setting.sources key
  let tokens ← (tokenizeReadings (fun _ => false) readings).mapError (.ofInterruption key)
  let program ← (Program.ofTokens tokens).mapError (.parse key)
  return setting.pipeline.apply program

/-- A file under a settled path includes another. -/
def Includes (key i : String) : Prop :=
  Path.normalize key = key ∧ ∃ program, setting.fileProgram key = .ok program ∧ i ∈ program.links

/-- Finitely many files, which include files under settled paths and never, in any number of steps,
themselves. -/
structure LoopFree : Prop where
  finite : {key | Path.normalize key = key ∧ ∃ readings, setting.sources key = .ok readings}.Finite
  settled : ∀ key i, setting.Includes key i → Path.normalize i = i
  acyclic : Acyclic setting.Includes

variable {setting}

lemma sources_of_fileProgram {key : String} {program : Program}
    (h : setting.fileProgram key = .ok program) : ∃ readings, setting.sources key = .ok readings := by
  cases hs : setting.sources key with
  | error e => simp [fileProgram, hs, bind, Except.bind] at h
  | ok readings => exact ⟨readings, rfl⟩

namespace LoopFree

variable (h : setting.LoopFree)

include h

/-- **Walks along includes come to an end.** -/
theorem wellFounded : WellFounded fun i key => setting.Includes key i := by
  refine h.acyclic.wellFounded (h.finite.subset ?_)
  rintro key ⟨-, i, hkey, program, hprogram, -⟩
  exact ⟨hkey, sources_of_fileProgram hprogram⟩

open Classical in
/-- **The recursive expansion of a file**: its own program, with the expansion of each file that it
includes put in.  Only files under settled paths have one. -/
noncomputable def expand : String → Except Error Shader :=
  h.wellFounded.fix fun key expand => do
    let program ← setting.fileProgram key
    let give (i : String) : Except Error Shader :=
      if hi : setting.Includes key i then expand i hi else .error (.inclusion .notFound i)
    return ⟨key, ← program.gather give program.links⟩

open Classical in
/-- **The equation of the expansion.** -/
theorem expand_eq {key : String} (hkey : Path.normalize key = key) :
    h.expand key = (setting.fileProgram key).bind fun program =>
      (program.gather h.expand program.links).map (Shader.mk key) := by
  let give (i : String) : Except Error Shader :=
    if setting.Includes key i then h.expand i else .error (.inclusion .notFound i)
  have hfix : h.expand key = (setting.fileProgram key).bind fun program =>
      (program.gather give program.links).bind fun merged => .ok ⟨key, merged⟩ :=
    h.wellFounded.fix_eq _ key
  rw [hfix]
  cases hp : setting.fileProgram key with
  | error e => rfl
  | ok program =>
    -- all links of a file under a settled path are edges of the graph
    have hgive : ∀ i ∈ program.links, give i = h.expand i := fun i hi =>
      if_pos ⟨hkey, program, hp, hi⟩
    simp only [Except.bind]
    rw [Program.gather_congr hgive]
    cases program.gather h.expand program.links <;> rfl

end LoopFree

end Setting

end Shading
