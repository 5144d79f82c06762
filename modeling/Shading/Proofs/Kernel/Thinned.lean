import Mathlib.Data.List.Flatten
import Shading.Proofs.Kernel.Lines

/-!
# Kernels with comments only

Where a shader can be compiled in full, it can be compiled with comments only, and the kernels are those
in full without some of their lines: the functions, each with the blank line behind it, and the
statements of the stage that are no comments.  All other lines are the same, in the same order.

* `Kernel.Parts` — the lines of a kernel with the functions and the statements that they come from;
* `Kernel.Parts.thinned` — without the functions and the statements that are no comments;
* `Kernel.Parts.sublist_thinned` — nothing but whole lines is left out;
* `Kernel.Parts.lines_ofEntries` — the lines of a kernel part by part;
* `Compiler.kernel_thinned` — one stage under both lowerings;
* `Compiler.compile_thinned` — all stages.
-/

namespace Shading

/-- Whether the statement is a comment. -/
def Statement.isComment : Statement → Bool
  | .comment _ => true
  | _ => false

namespace Kernel

/-- The lines of a kernel: those down to the functions, those of each function and those of each statement
of the stage. -/
structure Parts where
  head : List String
  functions : List (Function × List String)
  body : List (Statement × List String)

namespace Parts

/-- All lines. -/
def lines (k : Parts) : List String :=
  k.head ++ k.functions.flatMap (·.2) ++ ["void main()", "\x7b"] ++ k.body.flatMap (·.2) ++ ["\x7d"]

/-- Without the functions, and without the statements that are no comments. -/
def thinned (k : Parts) : Parts := { k with functions := [], body := k.body.filter (·.1.isComment) }

/-- The functions and statements are all those of the program and of the stage, in order, each with the
lines that it is written on: a function with a blank line behind it. -/
structure Of (k : Parts) (program : Program) (stage : Stage) : Prop where
  functions : k.functions.map (·.1) = program.functions
  body : k.body.map (·.1) = stage.body
  function_lines : ∀ part ∈ k.functions, ∃ es header inner, part.1.entries = .ok es ∧
    part.2 = Entry.allLines 0 es ∧ part.2 = header :: "\x7b" :: (inner ++ ["\x7d", ""])
  statement_lines : ∀ part ∈ k.body, ∃ es, part.1.fullEntries = .ok es ∧ part.2 = Entry.allLines 1 es

/-- **Nothing but whole lines is left out.** -/
lemma sublist_thinned (k : Parts) : k.thinned.lines.Sublist k.lines := by
  have hfunctions : (k.head ++ k.thinned.functions.flatMap (·.2)).Sublist
      (k.head ++ k.functions.flatMap (·.2)) :=
    (List.nil_sublist _).append_left k.head
  have hbody : (k.thinned.body.flatMap (·.2)).Sublist (k.body.flatMap (·.2)) :=
    List.filter_sublist.flatMap _
  exact ((hfunctions.append_right _).append hbody).append_right _

end Parts

/-- The one kernel of the stage is in full and the other has comments only. -/
def Thins (program : Program) (stage : Stage) (full short : Kernel) : Prop :=
  full.stage = stage.kind ∧ short.stage = stage.kind ∧ ∃ k : Parts, k.Of program stage ∧
    full.source = text k.lines ∧ short.source = text k.thinned.lines ∧ k.thinned.lines.Sublist k.lines

end Kernel

/-! ### The lines of functions, statements and kernels -/

/-- The lines of a function are those of a block and a blank one. -/
lemma Function.allLines_entries {f : Function} {es : List Entry} (h : f.entries = .ok es) :
    ∃ header inner, Entry.allLines 0 es = header :: "\x7b" :: (inner ++ ["\x7d", ""]) := by
  obtain ⟨header, inner, rfl, hinner⟩ := Function.entries_eq_ok h
  refine ⟨header, Entry.allLines 1 inner, ?_⟩
  simp only [List.cons_append, Entry.allLines, Entry.depthAfter, hinner.allLines_append, Entry.lines]
  simp [Entry.indentation]

/-- With comments only, a statement that can be written has its lines if it is a comment, and no others. -/
lemma Statement.entries_comments {s : Statement} {es : List Entry} (h : s.fullEntries = .ok es) :
    s.entries .comments = .ok (if s.isComment then es else []) := by
  cases s with
  | comment => exact h
  | _ => rfl

lemma Statement.bodyEntries_comments {parts : List (Statement × List Entry)}
    (h : ∀ part ∈ parts, part.1.fullEntries = .ok part.2) :
    Statement.bodyEntries .comments (parts.map (·.1)) =
      .ok ((parts.filter (·.1.isComment)).map (·.2)).flatten := by
  have hparts : (parts.map (·.1)).mapM (Statement.entries .comments) =
      .ok (parts.map fun part => if part.1.isComment then part.2 else []) := by
    rw [mapM_eq_ok_iff, List.forall₂_map_left_iff, List.forall₂_map_right_iff, List.forall₂_same]
    exact fun part hpart => entries_comments (h part hpart)
  refine bind_eq_ok_iff.2 ⟨_, hparts, congrArg Except.ok ?_⟩
  clear h hparts
  induction parts with
  | nil => rfl
  | cons part parts ih =>
    rw [List.map_cons, List.flatten_cons, ih, List.filter_cons]
    split <;> simp [*]

/-! ### The entries of both lowerings -/

/-- The entries of a kernel: those down to the functions, those of each function and those of each statement
of the stage. -/
def Entry.assembled (head : List Entry) (functions : List (Function × List Entry))
    (body : List (Statement × List Entry)) : List Entry :=
  head ++ (functions.map (·.2)).flatten ++ [.enter "void main()"] ++ (body.map (·.2)).flatten ++ [.leave]

namespace Kernel.Parts

variable {head : List Entry} {functions : List (Function × List Entry)} {body : List (Statement × List Entry)}

/-- The lines of entries, each part by itself. -/
def ofEntries (head : List Entry) (functions : List (Function × List Entry))
    (body : List (Statement × List Entry)) : Parts where
  head := Entry.allLines 0 head
  functions := functions.map fun part => (part.1, Entry.allLines 0 part.2)
  body := body.map fun part => (part.1, Entry.allLines 1 part.2)

lemma thinned_ofEntries : (ofEntries head functions body).thinned =
    ofEntries head [] (body.filter (·.1.isComment)) := by
  simp [thinned, ofEntries, List.filter_map, Function.comp_def]

/-- Behind a function and behind a statement the depth is what it was before, so that the lines of the whole
are those of the parts. -/
lemma lines_ofEntries (hhead : Entry.Balanced head) (hf : ∀ part ∈ functions, Entry.Balanced part.2)
    (hb : ∀ part ∈ body, Entry.Balanced part.2) :
    (ofEntries head functions body).lines = Entry.allLines 0 (Entry.assembled head functions body) := by
  have hf : ∀ es ∈ functions.map (·.2), Entry.Balanced es := List.forall_mem_map.2 hf
  have hb : ∀ es ∈ body.map (·.2), Entry.Balanced es := List.forall_mem_map.2 hb
  have hmain : Entry.allLines 0 [.enter "void main()"] = ["void main()", "\x7b"] := by
    simp [Entry.allLines, Entry.lines, Entry.indentation]
  have hleave : Entry.allLines 1 [.leave] = ["\x7d"] := by
    simp [Entry.allLines, Entry.lines, Entry.indentation]
  symm
  calc Entry.allLines 0 (Entry.assembled head functions body)
      = Entry.allLines 0 head ++ (Entry.allLines 0 (functions.map (·.2)).flatten ++
          (Entry.allLines 0 [.enter "void main()"] ++
            Entry.allLines 1 ((body.map (·.2)).flatten ++ [.leave]))) := by
        simp only [Entry.assembled, List.append_assoc]
        rw [hhead.allLines_append, (Entry.Balanced.flatten hf).allLines_append, Entry.allLines_append]
        rfl
    _ = (ofEntries head functions body).lines := by
        rw [(Entry.Balanced.flatten hb).allLines_append, hmain, hleave, Entry.allLines_flatten hf,
          Entry.allLines_flatten hb]
        simp [ofEntries, lines, List.flatMap_map]

lemma of_ofEntries {program : Program} {stage : Stage} (hfirst : functions.map (·.1) = program.functions)
    (hfunctions : ∀ part ∈ functions, part.1.entries = .ok part.2)
    (hstatements : body.map (·.1) = stage.body)
    (hbody : ∀ part ∈ body, part.1.fullEntries = .ok part.2) :
    (ofEntries head functions body).Of program stage := by
  constructor
  case functions => simpa [ofEntries, Function.comp_def] using hfirst
  case body => simpa [ofEntries, Function.comp_def] using hstatements
  case function_lines =>
    refine List.forall_mem_map.2 fun part hpart => ?_
    obtain ⟨header, inner, hlines⟩ := Function.allLines_entries (hfunctions part hpart)
    exact ⟨part.2, header, inner, hfunctions part hpart, rfl, hlines⟩
  case statement_lines =>
    exact List.forall_mem_map.2 fun part hpart => ⟨part.2, hbody part hpart, rfl⟩

end Kernel.Parts

/-! ### One stage and all stages -/

namespace Compiler

variable {version : String} {shader : Shader}

/-- The entries of a stage in full, and those with comments only. -/
lemma entries_thinned {stage : Stage} {es : List Entry}
    (h : Compiler.entries ⟨version, .full⟩ shader stage = .ok es) : ∃ head functions body,
      Entry.Balanced head ∧
      functions.map (·.1) = shader.program.functions ∧ (∀ part ∈ functions, part.1.entries = .ok part.2) ∧
      body.map (·.1) = stage.body ∧ (∀ part ∈ body, part.1.fullEntries = .ok part.2) ∧
      es = Entry.assembled head functions body ∧
      Compiler.entries ⟨version, .comments⟩ shader stage =
        .ok (Entry.assembled head [] (body.filter (·.1.isComment))) := by
  obtain ⟨uniforms, varyings, constants, _, _, hu, hv, hc, hf, hb, rfl⟩ := entries_eq_ok_iff.1 h
  obtain ⟨fs, hfs, hf⟩ := bind_eq_ok_iff.1 hf
  obtain ⟨bs, hbs, hb⟩ := bind_eq_ok_iff.1 hb
  obtain ⟨functions, hfirst, hsecond, hfunctions⟩ := exists_pairs_of_forall₂ (mapM_eq_ok_iff.1 hfs)
  obtain ⟨body, hstatements, hentries, hbody⟩ := exists_pairs_of_forall₂ (mapM_eq_ok_iff.1 hbs)
  have hhead := balanced_declarations ⟨version, .full⟩ stage hu hv hc
  refine ⟨_, functions, body, hhead, hfirst, hfunctions, hstatements, hbody, ?_, ?_⟩
  · rw [Entry.assembled, hsecond, hentries, Except.ok.inj hf, Except.ok.inj hb]
  · refine entries_eq_ok_iff.2 ⟨uniforms, varyings, constants, [], _, hu, hv, hc, rfl, ?_, rfl⟩
    rw [← hstatements]
    exact Statement.bodyEntries_comments hbody

/-- **One stage under both lowerings.** -/
theorem kernel_thinned {stage : Stage} {full : Kernel}
    (h : Compiler.kernel ⟨version, .full⟩ shader stage = .ok full) :
    ∃ short, Compiler.kernel ⟨version, .comments⟩ shader stage = .ok short ∧
      Kernel.Thins shader.program stage full short := by
  obtain ⟨es, hes, h⟩ := bind_eq_ok_iff.1 h
  cases h
  obtain ⟨head, functions, body, hhead, hfirst, hfunctions, hstatements, hbody, rfl, hshort⟩ :=
    entries_thinned hes
  have hf : ∀ part ∈ functions, Entry.Balanced part.2 := fun part hpart =>
    Function.balanced_entries (hfunctions part hpart)
  have hb : ∀ part ∈ body, Entry.Balanced part.2 := fun part hpart =>
    Statement.balanced_fullEntries (hbody part hpart)
  refine ⟨_, bind_eq_ok_iff.2 ⟨_, hshort, rfl⟩, rfl, rfl, .ofEntries head functions body,
    Kernel.Parts.of_ofEntries hfirst hfunctions hstatements hbody, ?_, ?_, Kernel.Parts.sublist_thinned _⟩
  · rw [Kernel.Parts.lines_ofEntries hhead hf hb]
    rfl
  · rw [Kernel.Parts.thinned_ofEntries, Kernel.Parts.lines_ofEntries hhead (by simp) fun part hpart =>
      hb part (List.mem_of_mem_filter hpart)]
    rfl

/-- **Kernels with comments only are kernels in full with lines left out.**  Where a shader can be
compiled in full, it can be compiled with comments only, to as many kernels of the same stages, and each
is that in full without the functions and the statements that are no comments. -/
theorem compile_thinned {kernels : List Kernel}
    (h : Compiler.compile ⟨version, .full⟩ shader = .ok kernels) :
    ∃ pairs : List (Kernel × Kernel), pairs.map (·.1) = kernels ∧
      Compiler.compile ⟨version, .comments⟩ shader = .ok (pairs.map (·.2)) ∧
      List.Forall₂ (fun stage pair => Kernel.Thins shader.program stage pair.1 pair.2)
        shader.program.stages pairs := by
  unfold compile at h ⊢
  simp only [mapM_eq_ok_iff] at h ⊢
  generalize shader.program.stages = stages at h ⊢
  induction h with
  | nil => exact ⟨[], rfl, .nil, .nil⟩
  | @cons stage full _ _ hfull _ ih =>
    obtain ⟨short, hshort, hthins⟩ := kernel_thinned hfull
    obtain ⟨pairs, rfl, hshorts, hpairs⟩ := ih
    exact ⟨(full, short) :: pairs, rfl, .cons hshort hshorts, .cons hthins hpairs⟩

/-- A function is left out, and an assignment behind a comment. -/
theorem compile_thinned_comment :
    let shader : Shader := {
      path := "t"
      program := {
        functions := [⟨{ kind := .float }, "h", [⟨{ kind := .float }, "x"⟩], [.returns (.symbol "x")]⟩]
        stages := [⟨.fragment, [], [.comment "c", .assign "y" (.symbol "x")]⟩] } }
    let kernels : List Kernel := [{
      stage := .fragment
      source := "// Fragment compiled from t\n// Compiled using shade-glsl v0.1.5\n\n#version 330\n\n\n\n\n" ++
        "float h(float x)\n\x7b\n  return x;\n\x7d\n\nvoid main()\n\x7b\n  // c\n  y = x;\n\x7d\n" }]
    Compiler.compile ⟨"330", .full⟩ shader = .ok kernels ∧
    ∃ pairs : List (Kernel × Kernel), pairs.map (·.1) = kernels ∧
      Compiler.compile ⟨"330", .comments⟩ shader = .ok (pairs.map (·.2)) ∧
      List.Forall₂ (fun stage pair => Kernel.Thins shader.program stage pair.1 pair.2)
        shader.program.stages pairs := by
  intro shader kernels
  have h : (Compiler.compile ⟨"330", .full⟩ shader).toOption = some kernels := by decide +kernel
  exact ⟨eq_ok_of_toOption h, compile_thinned (eq_ok_of_toOption h)⟩

end Compiler

end Shading
