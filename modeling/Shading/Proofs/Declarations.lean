import Mathlib.Data.List.Basic
import Shading.Program

/-!
# What programs declare

The declarations of a program without regard to their number, and the order in which merging puts them
together.  To merge a program into another adds its declarations, and what was there stays in front.

* `Declaration`, `Program.Declares` — all that a program can declare;
* `Program.Begins` — every list of a program begins with that of another;
* `Program.declares_merge`, `Program.begins_merge` — what merging does.
-/

namespace Shading

/-- One thing that a program declares. -/
inductive Declaration
  | included (path : String)
  | uniform (binding : Binding)
  | varying (binding : Binding)
  | constant (constant : Constant)
  | function (function : Function)
  | stage (stage : Stage)

namespace PathSet

variable (s : PathSet)

lemma prefix_insert (path : String) : s.toList <+: (s.insert path).toList := by
  rw [toList_insert]
  split
  · exact List.prefix_rfl
  · exact List.prefix_append _ _

/-- What a set holds stays in front when more is added. -/
lemma prefix_insertAll (paths : List String) : s.toList <+: (s.insertAll paths).toList := by
  induction paths generalizing s with
  | nil => exact List.prefix_rfl
  | cons path paths ih => exact (s.prefix_insert path).trans (ih (s.insert path))

lemma insert_of_mem {path : String} (h : path ∈ s.toList) : s.insert path = s := dif_pos h

lemma insertAll_append (paths later : List String) :
    s.insertAll (paths ++ later) = (s.insertAll paths).insertAll later := List.foldl_append

/-- A repeated path makes no difference, wherever it was dropped. -/
lemma insertAll_insertAll (t : PathSet) (paths : List String) :
    s.insertAll (t.insertAll paths).toList = (s.insertAll t.toList).insertAll paths := by
  induction paths generalizing t with
  | nil => rfl
  | cons path paths ih =>
    have hinsert : s.insertAll (t.insert path).toList = (s.insertAll t.toList).insert path := by
      rw [toList_insert]
      split
      · next hmem => rw [insert_of_mem _ ((mem_insertAll s _ _).2 (.inr hmem))]
      · rw [insertAll_append]
        rfl
    calc s.insertAll ((t.insert path).insertAll paths).toList
        = (s.insertAll (t.insert path).toList).insertAll paths := ih (t.insert path)
      _ = ((s.insertAll t.toList).insert path).insertAll paths := by rw [hinsert]

/-- The set of two lists is the union of their sets. -/
lemma ofList_append (paths later : List String) :
    ofList (paths ++ later) = (ofList paths).union (ofList later) := by
  unfold union
  rw [ofList, ofList, ofList, insertAll_append, insertAll_insertAll]
  rfl

end PathSet

namespace Program

/-- A program declares this. -/
def Declares (p : Program) : Declaration → Prop
  | .included path => path ∈ p.includes.toList
  | .uniform binding => binding ∈ p.uniforms
  | .varying binding => binding ∈ p.varyings
  | .constant constant => constant ∈ p.constants
  | .function function => function ∈ p.functions
  | .stage stage => stage ∈ p.stages

/-- Every list of `p` begins with that of `q`. -/
structure Begins (p q : Program) : Prop where
  includes : q.includes.toList <+: p.includes.toList
  uniforms : q.uniforms <+: p.uniforms
  varyings : q.varyings <+: p.varyings
  constants : q.constants <+: p.constants
  functions : q.functions <+: p.functions
  stages : q.stages <+: p.stages

variable {p q r : Program} {d : Declaration}

/-- **A merged program declares what either declares.** -/
lemma declares_merge : (p.merge q).Declares d ↔ p.Declares d ∨ q.Declares d := by
  cases d <;> simp [Declares, merge, PathSet.union]

lemma Begins.rfl : p.Begins p := by constructor <;> exact List.prefix_rfl

lemma Begins.trans (hpq : p.Begins q) (hqr : q.Begins r) : p.Begins r where
  includes := hqr.includes.trans hpq.includes
  uniforms := hqr.uniforms.trans hpq.uniforms
  varyings := hqr.varyings.trans hpq.varyings
  constants := hqr.constants.trans hpq.constants
  functions := hqr.functions.trans hpq.functions
  stages := hqr.stages.trans hpq.stages

/-- **What was there stays in front.** -/
lemma begins_merge (p q : Program) : (p.merge q).Begins p where
  includes := p.includes.prefix_insertAll q.includes.toList
  uniforms := List.prefix_append _ _
  varyings := List.prefix_append _ _
  constants := List.prefix_append _ _
  functions := List.prefix_append _ _
  stages := List.prefix_append _ _

end Program

end Shading
