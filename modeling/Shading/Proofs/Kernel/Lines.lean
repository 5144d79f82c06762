import Shading.Kernel
import Shading.Proofs.Results

/-!
# The lines of kernels

The lines of an entry depend on the depth, which is that behind the entries before it.  What closes all
that it opens leaves the depth as it was, so that its lines are the same whatever else is written.

* `Kernel.text` — the text that has some lines;
* `Entry.Balanced` — entries that close just what they open;
* `Entry.allLines_flatten` — the lines of balanced parts;
* `Compiler.entries_eq_ok_iff` — the parts of a kernel.
-/

namespace Shading

/-- The text that has these lines. -/
def Kernel.text (lines : List String) : String := String.join (lines.map (· ++ "\n"))

/-! ### Balanced entries -/

namespace Entry

/-- The entries close just what they open. -/
def Balanced (es : List Entry) : Prop := ∀ depth, depthAfterAll depth es = depth

variable {es fs : List Entry} {parts : List (List Entry)}

lemma depthAfterAll_append (depth : Nat) (es fs : List Entry) :
    depthAfterAll depth (es ++ fs) = depthAfterAll (depthAfterAll depth es) fs := List.foldl_append

/-- Entries that open and close nothing. -/
lemma balanced_of_forall (h : ∀ e ∈ es, ∀ depth, e.depthAfter depth = depth) : Balanced es := by
  intro depth
  induction es with
  | nil => rfl
  | cons e es ih =>
    obtain ⟨he, hes⟩ := List.forall_mem_cons.1 h
    exact (congrArg (depthAfterAll · es) (he depth)).trans (ih hes)

lemma Balanced.append (hes : Balanced es) (hfs : Balanced fs) : Balanced (es ++ fs) := fun depth => by
  rw [depthAfterAll_append, hes, hfs]

lemma Balanced.flatten (h : ∀ es ∈ parts, Balanced es) : Balanced parts.flatten := by
  induction parts with
  | nil => exact fun _ => rfl
  | cons es parts ih =>
    obtain ⟨hes, hparts⟩ := List.forall_mem_cons.1 h
    exact hes.append (ih hparts)

/-- A block is closed where it was opened. -/
lemma Balanced.block (h : Balanced es) (header : String) : Balanced (.enter header :: es ++ [.leave]) := by
  intro depth
  show depthAfterAll (depth + 1) (es ++ [.leave]) = depth
  rw [depthAfterAll_append, h]
  rfl

lemma Balanced.allLines_append (h : Balanced es) (depth : Nat) (fs : List Entry) :
    allLines depth (es ++ fs) = allLines depth es ++ allLines depth fs := by
  rw [Entry.allLines_append, h]

/-- **The lines of balanced parts** are those of each by itself. -/
lemma allLines_flatten (h : ∀ es ∈ parts, Balanced es) (depth : Nat) :
    allLines depth parts.flatten = parts.flatMap (allLines depth) := by
  induction parts with
  | nil => rfl
  | cons es parts ih =>
    obtain ⟨hes, hparts⟩ := List.forall_mem_cons.1 h
    rw [List.flatten_cons, hes.allLines_append, ih hparts, List.flatMap_cons]

/-- Items that are written on one line each. -/
lemma forall₂_allLines {α : Type} {R : α → Entry → Prop} {W : α → String → Prop} {items : List α}
    (hline : ∀ a e, R a e → ∃ line, W a line ∧ e.lines 0 = [line] ∧ e.depthAfter 0 = 0)
    (h : List.Forall₂ R items es) : List.Forall₂ W items (allLines 0 es) := by
  induction h with
  | nil => exact .nil
  | cons ha _ ih =>
    obtain ⟨line, hW, hlines, hdepth⟩ := hline _ _ ha
    rw [allLines, hlines, hdepth]
    exact .cons hW ih

end Entry

/-! ### The entries of declarations, statements and functions -/

lemma Binding.depthAfter_entry {keyword : String} {b : Binding} {entry : Entry}
    (h : b.entry keyword = .ok entry) (depth : Nat) : entry.depthAfter depth = depth := by
  unfold Binding.entry at h
  obtain ⟨type, -, h⟩ := bind_eq_ok_iff.1 h
  cases h
  rfl

lemma Constant.depthAfter_entry {c : Constant} {entry : Entry} (h : c.entry = .ok entry) (depth : Nat) :
    entry.depthAfter depth = depth := by
  unfold Constant.entry at h
  obtain ⟨type, -, h⟩ := bind_eq_ok_iff.1 h
  obtain ⟨value, -, h⟩ := bind_eq_ok_iff.1 h
  cases h
  rfl

/-- A statement opens no block. -/
lemma Statement.balanced_fullEntries {s : Statement} {es : List Entry} (h : s.fullEntries = .ok es) :
    Entry.Balanced es := by
  cases s with
  | comment | includeFile | shaderType =>
    cases h
    exact fun _ => rfl
  | assign | returns | expression =>
    obtain ⟨text, -, h⟩ := bind_eq_ok_iff.1 h
    cases h
    exact fun _ => rfl
  | constant declared =>
    obtain ⟨entry, hentry, h⟩ := bind_eq_ok_iff.1 h
    cases h
    exact Constant.depthAfter_entry hentry
  | _ => cases h

/-- A function is a block with a blank line behind it. -/
lemma Function.entries_eq_ok {f : Function} {es : List Entry} (h : f.entries = .ok es) :
    ∃ header inner, es = .enter header :: inner ++ [.leave, .blank] ∧ Entry.Balanced inner := by
  unfold Function.entries at h
  obtain ⟨parameters, -, h⟩ := bind_eq_ok_iff.1 h
  obtain ⟨returned, -, h⟩ := bind_eq_ok_iff.1 h
  obtain ⟨body, hbody, h⟩ := bind_eq_ok_iff.1 h
  obtain ⟨parts, hparts, hbody⟩ := bind_eq_ok_iff.1 hbody
  cases h
  cases hbody
  refine ⟨_, parts.flatten, rfl, Entry.Balanced.flatten ?_⟩
  exact forall_mem_of_mapM hparts fun _ _ => Statement.balanced_fullEntries

lemma Function.balanced_entries {f : Function} {es : List Entry} (h : f.entries = .ok es) :
    Entry.Balanced es := by
  obtain ⟨header, inner, rfl, hinner⟩ := Function.entries_eq_ok h
  have hblank : Entry.Balanced [.blank] := fun _ => rfl
  simpa using (hinner.block header).append hblank

/-! ### The parts of a kernel -/

namespace Compiler

variable {c : Compiler} {shader : Shader} {stage : Stage} {es : List Entry}

/-- The entries before the declarations. -/
def title (c : Compiler) (shader : Shader) (stage : Stage) : List Entry :=
  [.comment (stage.kind.title ++ " compiled from " ++ shader.path), .comment signature, .blank,
    .line ("#version " ++ c.version), .blank]

lemma balanced_title (c : Compiler) (shader : Shader) (stage : Stage) :
    Entry.Balanced (c.title shader stage) := fun _ => rfl

/-- Declarations open no block. -/
lemma balanced_declarations (c : Compiler) (stage : Stage) {uniforms varyings constants : List Entry}
    (hu : shader.program.uniforms.mapM (Binding.entry "uniform") = .ok uniforms)
    (hv : shader.program.varyings.mapM (Binding.entry "varying") = .ok varyings)
    (hc : shader.program.constants.mapM Constant.entry = .ok constants) :
    Entry.Balanced (c.title shader stage ++ uniforms ++ [.blank] ++ varyings ++ [.blank] ++ constants ++
      [.blank]) := by
  have hblank : Entry.Balanced [.blank] := fun _ => rfl
  have hu := Entry.balanced_of_forall (forall_mem_of_mapM hu fun _ _ => Binding.depthAfter_entry)
  have hv := Entry.balanced_of_forall (forall_mem_of_mapM hv fun _ _ => Binding.depthAfter_entry)
  have hc := Entry.balanced_of_forall (forall_mem_of_mapM hc fun _ _ => Constant.depthAfter_entry)
  have htitle := balanced_title c shader stage
  exact (((((htitle.append hu).append hblank).append hv).append hblank).append hc).append hblank

/-- **The parts of a kernel**: the declarations of the program, the functions, and the body of the stage
in a block. -/
lemma entries_eq_ok_iff : c.entries shader stage = .ok es ↔ ∃ uniforms varyings constants functions body,
    shader.program.uniforms.mapM (Binding.entry "uniform") = .ok uniforms ∧
    shader.program.varyings.mapM (Binding.entry "varying") = .ok varyings ∧
    shader.program.constants.mapM Constant.entry = .ok constants ∧
    c.functionEntries shader.program.functions = .ok functions ∧
    Statement.bodyEntries c.lowering stage.body = .ok body ∧
    es = c.title shader stage ++ uniforms ++ [.blank] ++ varyings ++ [.blank] ++ constants ++ [.blank] ++
      functions ++ [.enter "void main()"] ++ body ++ [.leave] := by
  unfold entries
  simp only [bind_eq_ok_iff]
  constructor
  · rintro ⟨uniforms, hu, varyings, hv, constants, hc, functions, hf, body, hb, h⟩
    exact ⟨uniforms, varyings, constants, functions, body, hu, hv, hc, hf, hb, (Except.ok.inj h).symm⟩
  · rintro ⟨uniforms, varyings, constants, functions, body, hu, hv, hc, hf, hb, rfl⟩
    exact ⟨uniforms, hu, varyings, hv, constants, hc, functions, hf, body, hb, rfl⟩

end Compiler

end Shading
