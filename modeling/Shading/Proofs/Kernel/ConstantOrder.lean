import Shading.Proofs.Kernel.Compiles
import Shading.Proofs.Kernel.Lines
import Shading.Proofs.Session.Schedule
import Shading.Source.Memory

/-!
# The order of constants

A kernel declares the constants of the merged program in their order, one line each.  A merged program
has the constants of a file first and those of the files that it includes behind them, and the same
again inside each of these.  So a constant stands behind the constants of its own file that it was
written behind, and before those of all files that its own file includes.

* `Compiler.exists_lines` — the lines of a kernel that declare constants;
* `Setting.Stands` — a constant among those of its own file and of the files included there;
* `Setting.LoopFree.stands_of_expand` — so stand all constants of an expansion;
* `Session.constants_own_before_included` — what a kernel declares before and behind a constant.
-/

namespace Shading

open Relation

mutual

/-- The names that an expression mentions. -/
def Expr.names : Expr → List String
  | .constant _ => []
  | .symbol name => [name]
  | .variadic values => Expr.namesAll values
  | .parameter binding => [binding.name]
  | .construct _ value => value.names
  | .sample sampler value => sampler :: value.names
  | .binary _ left right => left.names ++ right.names
  | .unary _ value => value.names

/-- The names that expressions mention. -/
def Expr.namesAll : List Expr → List String
  | [] => []
  | e :: es => e.names ++ Expr.namesAll es

end

/-! ### The lines of a kernel -/

/-- The line that declares a constant. -/
def Constant.line (c : Constant) : Except Lowering.Cause String := do
  let type ← c.primitive.glsl
  let value ← c.value.glsl
  return "const " ++ Entry.qualifier c.primitive.qualifier? ++ type ++ " " ++ c.name ++ " = " ++ value ++ ";"

lemma Constant.lines_entry {c : Constant} {entry : Entry} (h : c.entry = .ok entry) (depth : Nat) :
    ∃ line, c.line = .ok line ∧ entry.lines depth = [Entry.indentation depth ++ line] := by
  unfold Constant.entry at h
  obtain ⟨type, htype, h⟩ := bind_eq_ok_iff.1 h
  obtain ⟨value, hvalue, h⟩ := bind_eq_ok_iff.1 h
  cases h
  have hline : c.line = .ok _ := bind_eq_ok_iff.2 ⟨type, htype, bind_eq_ok_iff.2 ⟨value, hvalue, rfl⟩⟩
  exact ⟨_, hline, by simp [Entry.lines, String.append_assoc]⟩

lemma Constant.forall₂_allLines {constants : List Constant} {entries : List Entry}
    (h : List.Forall₂ (fun c entry => Constant.entry c = .ok entry) constants entries) :
    List.Forall₂ (fun c line => Constant.line c = .ok line) constants (Entry.allLines 0 entries) := by
  refine Entry.forall₂_allLines (fun c entry hc => ?_) h
  obtain ⟨line, hline, hlines⟩ := Constant.lines_entry hc 0
  exact ⟨line, hline, by simpa [Entry.indentation] using hlines, Constant.depthAfter_entry hc 0⟩

namespace Compiler

variable {c : Compiler} {shader : Shader}

/-- What stands before the constants of a kernel closes all that it opens. -/
lemma entries_eq_ok {stage : Stage} {es : List Entry} (h : c.entries shader stage = .ok es) :
    ∃ first constants later, Entry.Balanced first ∧
      shader.program.constants.mapM Constant.entry = .ok constants ∧
      es = first ++ constants ++ later := by
  obtain ⟨uniforms, varyings, constants, functions, body, huniforms, hvaryings, hconstants, -, -, rfl⟩ :=
    entries_eq_ok_iff.1 h
  have hblank : Entry.Balanced [.blank] := fun _ => rfl
  refine ⟨c.title shader stage ++ uniforms ++ [.blank] ++ varyings ++ [.blank], constants,
    [.blank] ++ functions ++ [.enter "void main()"] ++ body ++ [.leave], ?_, hconstants, by simp⟩
  have hu := Entry.balanced_of_forall (forall_mem_of_mapM huniforms fun _ _ => Binding.depthAfter_entry)
  have hv := Entry.balanced_of_forall (forall_mem_of_mapM hvaryings fun _ _ => Binding.depthAfter_entry)
  exact ((((balanced_title c shader stage).append hu).append hblank).append hv).append hblank

/-- **The lines of a kernel** that declare constants stand together, one for each constant of the
program and in their order. -/
theorem exists_lines {stage : Stage} {kernel : Kernel} (h : c.kernel shader stage = .ok kernel) :
    ∃ before lines after, kernel.source = Kernel.text (before ++ lines ++ after) ∧
      List.Forall₂ (fun d line => Constant.line d = .ok line) shader.program.constants lines := by
  unfold Compiler.kernel at h
  obtain ⟨es, hes, h⟩ := bind_eq_ok_iff.1 h
  cases h
  obtain ⟨first, constants, later, hfirst, hconstants, rfl⟩ := entries_eq_ok hes
  have hlines : Entry.allLines 0 (first ++ constants ++ later) = Entry.allLines 0 first ++
      Entry.allLines 0 constants ++ Entry.allLines (Entry.depthAfterAll 0 constants) later := by
    rw [List.append_assoc, hfirst.allLines_append, Entry.allLines_append, List.append_assoc]
  exact ⟨_, _, _, congrArg Kernel.text hlines,
    Constant.forall₂_allLines (mapM_eq_ok_iff.1 hconstants)⟩

end Compiler

/-! ### The constants of an expansion -/

/-- What is put in stands behind the program, in the order of the files. -/
lemma Program.constants_gather {give : String → Except Error Shader} {keys : List String} {p q : Program}
    (h : p.gather give keys = .ok q) :
    ∃ shaders, List.Forall₂ (fun key shader => give key = .ok shader) keys shaders ∧
      q.constants = p.constants ++ shaders.flatMap (·.program.constants) := by
  induction keys generalizing p with
  | nil => exact ⟨[], .nil, by simpa [eq_comm] using congrArg Program.constants (Except.ok.inj h)⟩
  | cons key keys ih =>
    rw [gather_cons] at h
    cases hkey : give key with
    | error e => simp [hkey, Except.bind] at h
    | ok shader =>
      rw [hkey] at h
      obtain ⟨shaders, hshaders, hq⟩ := ih h
      refine ⟨shader :: shaders, .cons hkey hshaders, ?_⟩
      rw [hq]
      simp [Program.merge]

namespace Setting

variable (setting : Setting)

/-- The file, under a settled path, declares a constant behind some others. -/
def Declares (file : String) (own : List Constant) (c : Constant) : Prop :=
  Path.normalize file = file ∧
    ∃ program later, setting.fileProgram file = .ok program ∧ program.constants = own ++ c :: later

/-- A file that the first one includes, directly or not, declares the constant. -/
def DeclaresInside (file : String) (c : Constant) : Prop :=
  ∃ file' own, TransGen setting.Includes file file' ∧ setting.Declares file' own c

/-- The constant stands behind what its file declares before it, and before all that the files
included there declare. -/
def Stands (c : Constant) (earlier later : List Constant) : Prop :=
  ∃ file own, setting.Declares file own c ∧ (∀ d ∈ own, d ∈ earlier) ∧
    ∀ d, setting.DeclaresInside file d → d ∈ later

/-- Each of the constants so stands among the others. -/
def Ordered (constants : List Constant) : Prop :=
  ∀ earlier c later, constants = earlier ++ c :: later → setting.Stands c earlier later

variable {setting}

lemma Stands.mono {c : Constant} {earlier earlier' later later' : List Constant}
    (h : setting.Stands c earlier later) (he : earlier ⊆ earlier') (hl : later ⊆ later') :
    setting.Stands c earlier' later' := by
  obtain ⟨file, own, hdeclares, hown, hinside⟩ := h
  exact ⟨file, own, hdeclares, fun d hd => he (hown d hd), fun d hd => hl (hinside d hd)⟩

/-- A constant of two lists stands in the one or in the other. -/
lemma ordered_append {xs ys : List Constant}
    (hx : ∀ earlier c later, xs = earlier ++ c :: later → setting.Stands c earlier (later ++ ys))
    (hy : setting.Ordered ys) : setting.Ordered (xs ++ ys) := by
  intro earlier c later h
  rcases List.append_eq_append_iff.1 h with ⟨between, rfl, hys⟩ | ⟨between, rfl, hlater⟩
  · exact (hy between c later hys).mono (List.subset_append_right _ _) (List.Subset.refl _)
  · cases between with
    | nil =>
      have h0 := hy [] c later (by simpa using hlater.symm)
      exact h0.mono (List.nil_subset _) (List.Subset.refl _)
    | cons d between =>
      obtain ⟨rfl, rfl⟩ := List.cons.inj hlater
      exact hx earlier c between rfl

lemma ordered_flatMap {shaders : List Shader} (h : ∀ s ∈ shaders, setting.Ordered s.program.constants) :
    setting.Ordered (shaders.flatMap (·.program.constants)) := by
  induction shaders with
  | nil =>
    intro earlier c later hnil
    simp at hnil
  | cons s shaders ih =>
    obtain ⟨hs, hshaders⟩ := List.forall_mem_cons.1 h
    rw [List.flatMap_cons]
    refine ordered_append (fun earlier c later heq => ?_) (ih hshaders)
    exact (hs earlier c later heq).mono (List.Subset.refl _) (List.subset_append_left _ _)

namespace LoopFree

variable (hl : setting.LoopFree) {key : String} {shader : Shader}

/-- **The constants of an expansion**: those of the file itself, and then those of the expansion of
each file that it includes. -/
lemma constants_expand (hkey : Path.normalize key = key) (h : hl.expand key = .ok shader) :
    ∃ program shaders, setting.fileProgram key = .ok program ∧
      List.Forall₂ (fun i shader => hl.expand i = .ok shader) program.links shaders ∧
      shader.program.constants = program.constants ++ shaders.flatMap (·.program.constants) := by
  rw [hl.expand_eq hkey] at h
  cases hprogram : setting.fileProgram key with
  | error e => simp [hprogram, Except.bind] at h
  | ok program =>
    cases hgather : program.gather hl.expand program.links with
    | error e => simp [hprogram, hgather, Except.bind, Except.map] at h
    | ok merged =>
      obtain rfl : ⟨key, merged⟩ = shader := by simpa [hprogram, hgather, Except.bind, Except.map] using h
      obtain ⟨shaders, hshaders, hmerged⟩ := Program.constants_gather hgather
      exact ⟨program, shaders, rfl, hshaders, hmerged⟩

lemma exists_inner {program : Program} {shaders : List Shader} {i : String}
    (hprogram : setting.fileProgram key = .ok program)
    (h : List.Forall₂ (fun i shader => hl.expand i = .ok shader) program.links shaders)
    (hi : setting.Includes key i) : ∃ inner, hl.expand i = .ok inner ∧
      inner.program.constants ⊆ shaders.flatMap (·.program.constants) := by
  obtain ⟨-, program', hprogram', hlink⟩ := hi
  obtain rfl : program = program' := Except.ok.inj (hprogram.symm.trans hprogram')
  obtain ⟨inner, hinner, hexpand⟩ := exists_mem_of_forall₂ h hlink
  exact ⟨inner, hexpand, fun d hd => List.mem_flatMap.2 ⟨inner, hinner, hd⟩⟩

/-- What a file declares is in the expansion of every file that leads to it. -/
lemma mem_constants_expand {file : String} {own : List Constant} {d : Constant}
    (hreach : ReflTransGen setting.Includes key file) (hd : setting.Declares file own d)
    (hkey : Path.normalize key = key) (h : hl.expand key = .ok shader) :
    d ∈ shader.program.constants := by
  induction hreach using ReflTransGen.head_induction_on generalizing shader with
  | refl =>
    obtain ⟨program, shaders, hprogram, -, hconstants⟩ := hl.constants_expand hkey h
    obtain ⟨-, program', later, hprogram', hown⟩ := hd
    obtain rfl : program = program' := Except.ok.inj (hprogram.symm.trans hprogram')
    rw [hconstants, hown]
    simp
  | head hnext _ ih =>
    obtain ⟨program, shaders, hprogram, hshaders, hconstants⟩ := hl.constants_expand hkey h
    obtain ⟨inner, hinner, hsubset⟩ := exists_inner hl hprogram hshaders hnext
    rw [hconstants]
    exact List.mem_append_right _ (hsubset (ih (hl.settled _ _ hnext) hinner))

/-- **The constants of an expansion are ordered**: own before included. -/
theorem ordered_expand (hkey : Path.normalize key = key) (h : hl.expand key = .ok shader) :
    setting.Ordered shader.program.constants := by
  -- along includes, so that the constants of every included file are ordered already
  induction key using hl.wellFounded.induction generalizing shader with
  | _ key ih =>
    obtain ⟨program, shaders, hprogram, hshaders, hconstants⟩ := hl.constants_expand hkey h
    rw [hconstants]
    refine ordered_append (fun earlier c later hown => ?_) (ordered_flatMap fun s hs => ?_)
    · refine ⟨key, earlier, ⟨hkey, program, later, hprogram, hown⟩, fun _ hd => hd, ?_⟩
      rintro d ⟨file, own, hreach, hd⟩
      obtain ⟨i, hi, hreach⟩ := TransGen.head'_iff.1 hreach
      obtain ⟨inner, hinner, hsubset⟩ := exists_inner hl hprogram hshaders hi
      have hmem := hl.mem_constants_expand hreach hd (hl.settled _ _ hi) hinner
      exact List.mem_append_right _ (hsubset hmem)
    · obtain ⟨i, hi, hexpand⟩ := exists_mem_of_forall₂ hshaders.flip hs
      have hincludes : setting.Includes key i := ⟨hkey, program, hprogram, hi⟩
      exact ih i hincludes (hl.settled _ _ hincludes) hexpand

end LoopFree

end Setting

/-! ### The constants of a kernel -/

namespace Setting

/-- Among constants, the value of each mentions only such as its file has declared before it and such
as the files included there declare. -/
def Scoped (setting : Setting) : Prop :=
  ∀ file own c, setting.Declares file own c → ∀ file' own' d, setting.Declares file' own' d →
    d.name ∈ c.value.names → d ∈ own ∨ setting.DeclaresInside file d

/-- The kernel declares the constants in their order, a line for each.  What a constant mentions of its
own file has a line before its own, and what it mentions of included files has one behind it. -/
def Arranges (setting : Setting) (kernel : Kernel) (constants : List Constant) : Prop :=
  ∃ head tail, ∀ earlier c later, constants = earlier ++ c :: later → ∃ before line after file own,
    kernel.source = Kernel.text (head ++ (before ++ line :: after) ++ tail) ∧
    List.Forall₂ (fun d l => Constant.line d = .ok l) earlier before ∧ c.line = .ok line ∧
    List.Forall₂ (fun d l => Constant.line d = .ok l) later after ∧
    setting.Declares file own c ∧
    ∀ file' own' d, setting.Declares file' own' d → d.name ∈ c.value.names →
      (d ∈ own ∧ ∃ l ∈ before, d.line = .ok l) ∨
      (setting.DeclaresInside file d ∧ ∃ l ∈ after, d.line = .ok l)

variable {setting : Setting}

/-- **A kernel arranges ordered constants.** -/
lemma Ordered.arranges {compiler : Compiler} {shader : Shader} {stage : Stage} {kernel : Kernel}
    (h : setting.Ordered shader.program.constants) (hscoped : setting.Scoped)
    (hkernel : compiler.kernel shader stage = .ok kernel) :
    setting.Arranges kernel shader.program.constants := by
  obtain ⟨head, lines, tail, hsource, hlines⟩ := Compiler.exists_lines hkernel
  refine ⟨head, tail, fun earlier c later hc => ?_⟩
  rw [hc] at hlines
  obtain ⟨before, rest, hbefore, hrest, rfl⟩ := exists_append_of_forall₂ hlines
  obtain ⟨line, after, hline, hafter, rfl⟩ := List.forall₂_cons_left_iff.1 hrest
  obtain ⟨file, own, hdeclares, hown, hinside⟩ := h earlier c later hc
  refine ⟨before, line, after, file, own, hsource, hbefore, hline, hafter, hdeclares, ?_⟩
  intro file' own' d hd hname
  rcases hscoped file own c hdeclares file' own' d hd hname with hmem | hmem
  · exact .inl ⟨hmem, exists_mem_of_forall₂ hbefore (hown d hmem)⟩
  · exact .inr ⟨hmem, exists_mem_of_forall₂ hafter (hinside d hmem)⟩

end Setting

namespace Session

variable {setting : Setting} {i : Nat}

/-- A request that got a shader got the expansion of its file. -/
lemma expand_of_result (hl : setting.LoopFree) (hr : setting.resolver = .cache []) {es : List Event}
    (hes : ∀ e ∈ es, e.Settled) {path : String} {cancelled : Bool} {answer : Answer}
    (hi : (begun es)[i]? = some (.start path cancelled))
    (h : (({ setting } : Session).after es).result? i = some (.ok answer)) :
    hl.expand (Path.normalize path) = .ok answer.shader := by
  obtain ⟨t, ht, hresult⟩ := Option.bind_eq_some_iff.1 h
  obtain ⟨e, he, hpath, -⟩ := rooted_after (show setting.resolver ≠ .load by simp [hr]) es i t ht
  obtain rfl : _ = e := Option.some.inj (hi.symm.trans he)
  obtain rfl : path = t.path := Option.some.inj hpath
  have hfaithful := (follows_after hl hr hes).tasks i t ht
  unfold Task.Faithful at hfaithful
  rwa [Task.result?_eq_some.1 hresult] at hfaithful

/-- **Own constants before, included ones behind.**  Take finitely many files that include each other
without a loop and in which constants mention only constants of their own file declared before them
and constants of the files included there, and any run over them.  In every kernel of a shader that a
request has got, each constant of the program has its line; the constants of its own file that it
mentions have lines before that one, and the constants of included files that it mentions have lines
behind it. -/
theorem constants_own_before_included (hl : setting.LoopFree) (hscoped : setting.Scoped)
    (hr : setting.resolver = .cache []) {es : List Event} (hes : ∀ e ∈ es, e.Settled) {path : String}
    {cancelled : Bool} {answer : Answer} (hi : (begun es)[i]? = some (.start path cancelled))
    (h : (({ setting } : Session).after es).result? i = some (.ok answer)) {compiler : Compiler}
    {kernels : List Kernel} (hkernels : compiler.compile answer.shader = .ok kernels) :
    ∀ kernel ∈ kernels, setting.Arranges kernel answer.shader.program.constants := by
  intro kernel hkernel
  have hstart : Path.normalize (Path.normalize path) = Path.normalize path :=
    hes (.start path cancelled) (List.mem_of_mem_filter (List.mem_of_getElem? hi))
  obtain ⟨stage, -, hstage⟩ := exists_mem_of_forall₂ (mapM_eq_ok_iff.1 hkernels).flip hkernel
  exact (hl.ordered_expand hstart (expand_of_result hl hr hes hi h)).arranges hscoped hstage

end Session

/-! ### A constant that comes before its definition -/

/-- The file `main` includes the file `lib` and has a constant that mentions one of `lib` and one of its
own. -/
def Setting.tints : Setting where
  sources key :=
    if key = "main" then .ok (Reading.ofText
      "#include \"lib\"\nconst float B = 2.0;\nconst float C = A + B;\nvoid fragment() \x7b\x7d")
    else if key = "lib" then .ok (Reading.ofText "const float A = 1.0;")
    else .error (.inclusion .notFound key)

namespace Setting

/-- What a file includes, and its constants with the names that they mention. -/
def outline (setting : Setting) (key : String) : Option (List String × List (String × List String)) :=
  match setting.fileProgram key with
  | .ok p => some (p.links, p.constants.map fun c => (c.name, c.value.names))
  | .error _ => none

lemma outline_eq_some {setting : Setting} {key : String} {links : List String}
    {constants : List (String × List String)} (h : setting.outline key = some (links, constants)) :
    ∃ program, setting.fileProgram key = .ok program ∧ program.links = links ∧
      program.constants.map (fun c => (c.name, c.value.names)) = constants := by
  unfold outline at h
  cases hprogram : setting.fileProgram key with
  | error e => simp [hprogram] at h
  | ok program =>
    rw [hprogram] at h
    exact ⟨program, rfl, Prod.mk.inj (Option.some.inj h)⟩

lemma outline_main : tints.outline "main" = some (["lib"], [("B", []), ("C", ["A", "B"])]) := by
  decide +kernel

lemma outline_lib : tints.outline "lib" = some ([], [("A", [])]) := by decide +kernel

lemma sources_tints {key : String} {readings : List Reading} (h : tints.sources key = .ok readings) :
    key = "main" ∨ key = "lib" := by
  by_contra hno
  obtain ⟨hmain, hlib⟩ := not_or.1 hno
  simp [tints, hmain, hlib] at h

lemma includes_tints {key i : String} : tints.Includes key i ↔ key = "main" ∧ i = "lib" := by
  obtain ⟨main, hmain, hlinks, -⟩ := outline_eq_some outline_main
  obtain ⟨lib, hlib, hnone, -⟩ := outline_eq_some outline_lib
  constructor
  · rintro ⟨-, program, hprogram, hi⟩
    obtain ⟨readings, hreadings⟩ := sources_of_fileProgram hprogram
    rcases sources_tints hreadings with rfl | rfl
    · obtain rfl : main = program := Except.ok.inj (hmain.symm.trans hprogram)
      exact ⟨rfl, by simpa [hlinks] using hi⟩
    · obtain rfl : lib = program := Except.ok.inj (hlib.symm.trans hprogram)
      simp [hnone] at hi
  · rintro ⟨rfl, rfl⟩
    exact ⟨by decide +kernel, main, hmain, by simp [hlinks]⟩

lemma loopFree_tints : tints.LoopFree where
  finite := by
    refine Set.Finite.subset (Set.toFinite {"main", "lib"}) ?_
    rintro key ⟨-, readings, hreadings⟩
    exact sources_tints hreadings
  settled key i h := by
    obtain ⟨-, rfl⟩ := includes_tints.1 h
    decide +kernel
  acyclic key h := by
    obtain ⟨i, hi, hback⟩ := TransGen.head'_iff.1 h
    obtain ⟨rfl, rfl⟩ := includes_tints.1 hi
    rcases hback.cases_head with heq | ⟨j, hj, -⟩
    · exact absurd heq (by decide)
    · exact absurd (includes_tints.1 hj).1 (by decide)

/-- The three constants of the two files. -/
lemma declares_tints : ∃ a b c : Constant, (a.name = "A" ∧ a.value.names = []) ∧
    (b.name = "B" ∧ b.value.names = []) ∧ (c.name = "C" ∧ c.value.names = ["A", "B"]) ∧
    ∀ file own d, tints.Declares file own d ↔
      file = "main" ∧ (own = [] ∧ d = b ∨ own = [b] ∧ d = c) ∨ file = "lib" ∧ own = [] ∧ d = a := by
  obtain ⟨main, hmain, -, hmainConstants⟩ := outline_eq_some outline_main
  obtain ⟨lib, hlib, -, hlibConstants⟩ := outline_eq_some outline_lib
  obtain ⟨b, rest, hmainConstants', hb, hrest⟩ := List.map_eq_cons_iff.1 hmainConstants
  obtain ⟨c, rest', rfl, hc, hrest'⟩ := List.map_eq_cons_iff.1 hrest
  obtain rfl := List.map_eq_nil_iff.1 hrest'
  obtain ⟨a, rest, hlibConstants', ha, hrest⟩ := List.map_eq_cons_iff.1 hlibConstants
  obtain rfl := List.map_eq_nil_iff.1 hrest
  refine ⟨a, b, c, Prod.mk.inj ha, Prod.mk.inj hb, Prod.mk.inj hc, fun file own d => ⟨?_, ?_⟩⟩
  · rintro ⟨-, program, later, hprogram, hown⟩
    obtain ⟨readings, hreadings⟩ := sources_of_fileProgram hprogram
    rcases sources_tints hreadings with rfl | rfl
    · obtain rfl : main = program := Except.ok.inj (hmain.symm.trans hprogram)
      rw [hmainConstants'] at hown
      left
      rcases own with _ | ⟨x, _ | ⟨y, _ | ⟨z, own⟩⟩⟩ <;> simp_all
    · obtain rfl : lib = program := Except.ok.inj (hlib.symm.trans hprogram)
      rw [hlibConstants'] at hown
      right
      rcases own with _ | ⟨x, _ | ⟨y, own⟩⟩ <;> simp_all
  · rintro (⟨rfl, ⟨rfl, rfl⟩ | ⟨rfl, rfl⟩⟩ | ⟨rfl, rfl, rfl⟩)
    · exact ⟨by decide +kernel, main, [c], hmain, hmainConstants'⟩
    · exact ⟨by decide +kernel, main, [], hmain, hmainConstants'⟩
    · exact ⟨by decide +kernel, lib, [], hlib, hlibConstants'⟩

lemma scoped_tints : tints.Scoped := by
  obtain ⟨a, b, c, ⟨ha, hna⟩, ⟨hb, hnb⟩, ⟨hc, hnc⟩, hdeclares⟩ := declares_tints
  intro file own d hd file' own' e he hname
  rcases (hdeclares _ _ _).1 hd with ⟨rfl, ⟨rfl, rfl⟩ | ⟨rfl, rfl⟩⟩ | ⟨rfl, rfl, rfl⟩
  · simp [hnb] at hname
  · rcases (hdeclares _ _ _).1 he with ⟨rfl, ⟨rfl, rfl⟩ | ⟨rfl, rfl⟩⟩ | ⟨rfl, rfl, rfl⟩
    · exact .inl List.mem_cons_self
    · simp [hnc, hc] at hname
    · exact .inr ⟨"lib", [], .single (includes_tints.2 ⟨rfl, rfl⟩), he⟩
  · simp [hna] at hname

/-- No two constants of the two files have one name. -/
lemma distinct_tints {file file' : String} {own own' : List Constant} {c d : Constant}
    (hc : tints.Declares file own c) (hd : tints.Declares file' own' d) (h : c.name = d.name) :
    file = file' ∧ own = own' ∧ c = d := by
  obtain ⟨a, b, c, ⟨ha, -⟩, ⟨hb, -⟩, ⟨hc', -⟩, hdeclares⟩ := declares_tints
  rcases (hdeclares _ _ _).1 hc with ⟨rfl, ⟨rfl, rfl⟩ | ⟨rfl, rfl⟩⟩ | ⟨rfl, rfl, rfl⟩ <;>
    rcases (hdeclares _ _ _).1 hd with ⟨rfl, ⟨rfl, rfl⟩ | ⟨rfl, rfl⟩⟩ | ⟨rfl, rfl, rfl⟩ <;>
    simp_all

end Setting

namespace Session

/-- The request for `main`, up to its end. -/
def tinted : List Event := .start "main" false :: .replicate 26 (.step 0)

/-- The constants of the shader with what they mention and their lines, and the lines of the kernel. -/
def Tinted (shader : Shader) (kernel : Kernel) : Prop :=
  shader.program.constants.map (fun c => (c.name, c.value.names, c.line.toOption)) =
    [("B", [], some "const float B = 2.0;"), ("C", ["A", "B"], some "const float C = A + B;"),
      ("A", [], some "const float A = 1.0;")] ∧
  kernel.source = Kernel.text (["// Fragment compiled from main", "// Compiled using shade-glsl v0.1.5",
    "", "#version 330 core", "", "", "", "const float B = 2.0;"] ++ "const float C = A + B;" ::
    ["const float A = 1.0;", "", "void main()", "\x7b", "\x7d"])

instance (shader : Shader) (kernel : Kernel) : Decidable (Tinted shader kernel) :=
  inferInstanceAs (Decidable (_ ∧ _))

/-- What a request for one stage got, when it is put to the test. -/
lemma exists_kernel {s : Session} {P : Shader → Kernel → Prop}
    [∀ shader kernel, Decidable (P shader kernel)]
    (h : (s.result? 0).any (fun result => result.toOption.any fun answer =>
      (({} : Compiler).compile answer.shader).toOption.any fun kernels =>
        kernels.length == 1 && kernels.all (P answer.shader ·)) = true) :
    ∃ answer kernel, s.result? 0 = some (.ok answer) ∧
      ({} : Compiler).compile answer.shader = .ok [kernel] ∧ P answer.shader kernel := by
  obtain ⟨result, hresult, hshape⟩ := (Option.any_eq_true _ _).1 h
  obtain ⟨answer, hanswer, hshape⟩ := (Option.any_eq_true _ _).1 hshape
  obtain ⟨kernels, hkernels, hshape⟩ := (Option.any_eq_true _ _).1 hshape
  obtain ⟨hlength, hP⟩ := Bool.and_eq_true_iff.1 hshape
  obtain ⟨kernel, rfl⟩ := List.length_eq_one_iff.1 (by simpa using hlength)
  rw [eq_ok_of_toOption hanswer] at hresult
  exact ⟨answer, kernel, hresult, eq_ok_of_toOption hkernels, by simpa using hP⟩

lemma exists_tinted : ∃ answer kernel,
    (({ setting := .tints } : Session).after tinted).result? 0 = some (.ok answer) ∧
    ({} : Compiler).compile answer.shader = .ok [kernel] ∧ Tinted answer.shader kernel :=
  exists_kernel (by decide +kernel)

theorem arranges_tinted : ∃ answer kernel,
    (({ setting := .tints } : Session).after tinted).result? 0 = some (.ok answer) ∧
    ({} : Compiler).compile answer.shader = .ok [kernel] ∧
    answer.shader.program.constants.map (·.name) = ["B", "C", "A"] ∧
    Setting.tints.Arranges kernel answer.shader.program.constants := by
  obtain ⟨answer, kernel, hresult, hkernel, hconstants, -⟩ := exists_tinted
  have hes : ∀ e ∈ tinted, e.Settled := by decide +kernel
  have hi : (begun tinted)[0]? = some (.start "main" false) := rfl
  refine ⟨answer, kernel, hresult, hkernel, ?_, ?_⟩
  · simpa [Function.comp_def] using congrArg (List.map Prod.fst) hconstants
  · exact constants_own_before_included Setting.loopFree_tints Setting.scoped_tints rfl hes hi hresult
      hkernel kernel List.mem_cons_self

/-- The line of the included constant stands behind the one that mentions it, and none before. -/
lemma tinted_behind {shader : Shader} {kernel : Kernel} (h : Tinted shader kernel) :
    ∃ c ∈ shader.program.constants, ∃ d ∈ shader.program.constants, d.name ∈ c.value.names ∧
      ∃ before line after, kernel.source = Kernel.text (before ++ line :: after) ∧ c.line = .ok line ∧
        ∀ l ∈ before, d.line ≠ .ok l := by
  obtain ⟨hconstants, hsource⟩ := h
  have line_of {c : Constant} {name : String} {names : List String} {line : String}
      (h : (c.name, c.value.names, c.line.toOption) = (name, names, some line)) :
      c.name = name ∧ c.value.names = names ∧ c.line = .ok line := by
    obtain ⟨hname, hnames, hline⟩ := by simpa only [Prod.mk.injEq] using h
    exact ⟨hname, hnames, eq_ok_of_toOption hline⟩
  obtain ⟨b, rest, hall, -, hrest⟩ := List.map_eq_cons_iff.1 hconstants
  obtain ⟨c, rest', rfl, hc, hrest'⟩ := List.map_eq_cons_iff.1 hrest
  obtain ⟨a, rest, rfl, ha, -⟩ := List.map_eq_cons_iff.1 hrest'
  obtain ⟨-, hnames, hcline⟩ := line_of hc
  obtain ⟨hname, -, haline⟩ := line_of ha
  refine ⟨c, by simp [hall], a, by simp [hall], by simp [hnames, hname], _, _, _, hsource, hcline,
    fun l hl heq => ?_⟩
  rw [haline] at heq
  obtain rfl := Except.ok.inj heq
  revert hl
  decide

/-! ### Paths that are not settled -/

end Session

/-- The file `main` includes two others, whose paths have normal forms that are not settled. -/
def Memory.strays : Memory := .ofList
  [("main", "#include \"/ / a\"\n#include \"/ / / a\"\nconst float C = D;\nvoid fragment() \x7b\x7d"),
    ("a", "const float A = 1.0;"), ("/ / a", "const float B = 1.0;"), ("/ / / a", "const float D = 1.0;")]

def Setting.strays : Setting where
  sources := Memory.strays.openSource

/-- No file includes one that includes another, and the constant of `main` mentions one that is included. -/
lemma Setting.outline_strays : ["main", "a", "/ / a", "/ / / a"].map Setting.strays.outline =
    [some ([Path.normalize "/ / a", Path.normalize "/ / / a"], [("C", ["D"])]), some ([], [("A", [])]),
      some ([], [("B", [])]), some ([], [("D", [])])] := by
  decide +kernel

namespace Session

/-- The request for `main`, up to its end. -/
def strayed : List Event := .start "main" false :: .replicate 40 (.step 0)

/-- The constants of the shader, and the lines of the kernel. -/
def Astray (shader : Shader) (kernel : Kernel) : Prop :=
  shader.program.constants.map (·.name) = ["C", "A", "A"] ∧
  kernel.source = Kernel.text ["// Fragment compiled from main", "// Compiled using shade-glsl v0.1.5",
    "", "#version 330 core", "", "", "", "const float C = D;", "const float A = 1.0;",
    "const float A = 1.0;", "", "void main()", "\x7b", "\x7d"]

instance (shader : Shader) (kernel : Kernel) : Decidable (Astray shader kernel) :=
  inferInstanceAs (Decidable (_ ∧ _))

/-- The cache takes both files that `main` includes for a third one. -/
lemma exists_astray : ∃ answer kernel,
    (({ setting := .strays } : Session).after strayed).result? 0 = some (.ok answer) ∧
    ({} : Compiler).compile answer.shader = .ok [kernel] ∧ Astray answer.shader kernel :=
  exists_kernel (by decide +kernel)

/-- **A constant may come before one that it mentions**, though the files include each other without a
loop, no two constants have one name and all are within scope: the kernel of `main` has the line of the
included constant behind the one that mentions it, and none before.  Where the normal forms of paths are
not settled, there may be no line of the included constant at all. -/
theorem not_preceded_by_included :
    (Setting.tints.LoopFree ∧ Setting.tints.Scoped ∧
      (∀ file own c file' own' d, Setting.tints.Declares file own c → Setting.tints.Declares file' own' d →
        c.name = d.name → file = file' ∧ own = own' ∧ c = d) ∧
      ∃ answer kernel, (({ setting := .tints } : Session).after tinted).result? 0 = some (.ok answer) ∧
        ({} : Compiler).compile answer.shader = .ok [kernel] ∧
        ∃ c ∈ answer.shader.program.constants, ∃ d ∈ answer.shader.program.constants,
          d.name ∈ c.value.names ∧ ∃ before line after,
            kernel.source = Kernel.text (before ++ line :: after) ∧ c.line = .ok line ∧
            ∀ l ∈ before, d.line ≠ .ok l) ∧
    (["main", "a", "/ / a", "/ / / a"].map Setting.strays.outline =
        [some ([Path.normalize "/ / a", Path.normalize "/ / / a"], [("C", ["D"])]),
          some ([], [("A", [])]), some ([], [("B", [])]), some ([], [("D", [])])] ∧
      (∀ path ∈ ["/ / a", "/ / / a"],
        Path.normalize (Path.normalize path) ≠ Path.normalize path) ∧
      ∃ answer kernel, (({ setting := .strays } : Session).after strayed).result? 0 = some (.ok answer) ∧
        ({} : Compiler).compile answer.shader = .ok [kernel] ∧ Astray answer.shader kernel) := by
  obtain ⟨answer, kernel, hresult, hkernel, htinted⟩ := exists_tinted
  refine ⟨⟨Setting.loopFree_tints, Setting.scoped_tints, fun _ _ _ _ _ _ => Setting.distinct_tints,
    answer, kernel, hresult, hkernel, tinted_behind htinted⟩, Setting.outline_strays, ?_, exists_astray⟩
  decide +kernel

end Session

end Shading
