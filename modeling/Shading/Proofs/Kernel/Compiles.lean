import Shading.Compile
import Shading.Proofs.Grammar.Parsed
import Shading.Proofs.Results
import Shading.Proofs.Session.Programs

/-!
# What is accepted can be compiled

Every type that a program can name has a name in GLSL, and a body holds no statement that cannot be
written.  This is so of every program that the rules read, and the sprite expansion and merging keep
it.  So the only errors of a compilation are those of its reading.

* `Primitive.Named.exists_glsl`, `Expr.Parsed.exists_glsl` — types and expressions can be written;
* `Compiler.Compiles` — one kernel for each stage, in the order of the stages;
* `Program.Accepted` — what the rules could have read, and what keeps it;
* `Compiler.compiles_of_accepted` — every shader that a compilation returns can be compiled.
-/

namespace Shading

/-! ### Types and expressions -/

/-- Every type word names a type of GLSL. -/
lemma Primitive.Named.exists_glsl {p : Primitive} (h : p.Named) : ∃ name, p.glsl = .ok name := by
  obtain ⟨word, precision, h⟩ := h
  obtain ⟨⟨kind, cardinality⟩, hshape, rfl⟩ := Option.map_eq_some_iff.1 h
  unfold shape? at hshape
  split at hshape <;> cases hshape <;> exact ⟨_, rfl⟩

lemma Primitive.Named.exists_qualified {p : Primitive} (h : p.Named) :
    ∃ name, p.qualified = .ok name := by
  obtain ⟨name, hname⟩ := h.exists_glsl
  exact ⟨Entry.qualifier p.qualifier? ++ name, by simp [qualified, hname]⟩

namespace Expr

variable {T : Token → Prop}

lemma exists_glslAll {es : List Expr} (h : ∀ e ∈ es, ∃ text, e.glsl = .ok text) :
    ∃ texts, glslAll es = .ok texts := by
  induction es with
  | nil => exact ⟨[], rfl⟩
  | cons e es ih =>
    obtain ⟨he, hes⟩ := List.forall_mem_cons.1 h
    obtain ⟨text, htext⟩ := he
    obtain ⟨texts, htexts⟩ := ih hes
    exact ⟨text :: texts, by simp [glslAll, htext, htexts, bind, Except.bind, pure, Except.pure]⟩

/-- What comes from arguments that can be written can be written. -/
lemma exists_glsl_ofArguments {es : List Expr} (h : ∀ e ∈ es, ∃ text, e.glsl = .ok text) :
    ∃ text, (ofArguments es).glsl = .ok text := by
  obtain ⟨texts, htexts⟩ := exists_glslAll h
  unfold ofArguments
  split
  · next e => exact h e (by simp)
  · exact ⟨String.intercalate ", " texts, by simp [glsl, htexts, bind, Except.bind, pure, Except.pure]⟩

/-- **Every parsed expression can be written.** -/
theorem Parsed.exists_glsl {e : Expr} (h : e.Parsed T) : ∃ text, e.glsl = .ok text := by
  induction h with
  | number | string | symbol => exact ⟨_, rfl⟩
  | @construct p arguments hp _ ih =>
    obtain ⟨name, hname⟩ := hp.exists_glsl
    obtain ⟨text, htext⟩ := exists_glsl_ofArguments ih
    exact ⟨_, by simp [glsl, hname, htext, bind, Except.bind]; rfl⟩
  | sample _ _ ih =>
    obtain ⟨text, htext⟩ := ih
    exact ⟨_, by simp [glsl, htext, bind, Except.bind]; rfl⟩
  | binary _ _ ihl ihr =>
    obtain ⟨left, hleft⟩ := ihl
    obtain ⟨right, hright⟩ := ihr
    exact ⟨_, by simp [glsl, hleft, hright, bind, Except.bind]; rfl⟩
  | unary _ ih =>
    obtain ⟨text, htext⟩ := ih
    exact ⟨_, by simp [glsl, htext, bind, Except.bind]; rfl⟩

end Expr

/-! ### Declarations and statements -/

section

variable {T : Token → Prop}

lemma Binding.Parsed.exists_glsl {b : Binding} (h : b.Parsed T) : ∃ text, b.glsl = .ok text := by
  obtain ⟨name, hname⟩ := h.primitive.exists_qualified
  exact ⟨name ++ " " ++ b.name, by simp [Binding.glsl, hname, bind, Except.bind, pure, Except.pure]⟩

lemma Binding.Parsed.exists_entry {b : Binding} (h : b.Parsed T) (keyword : String) :
    ∃ entry, b.entry keyword = .ok entry := by
  obtain ⟨name, hname⟩ := h.primitive.exists_glsl
  exact ⟨_, by simp [Binding.entry, hname, bind, Except.bind]; rfl⟩

lemma Constant.Parsed.exists_entry {c : Constant} (h : c.Parsed T) : ∃ entry, c.entry = .ok entry := by
  obtain ⟨name, hname⟩ := h.primitive.exists_glsl
  obtain ⟨text, htext⟩ := h.value.exists_glsl
  exact ⟨_, by simp [Constant.entry, hname, htext, bind, Except.bind]; rfl⟩

/-- **A statement that a body may hold can be written**, all of it or its comments. -/
lemma Statement.Parsed.exists_entries {s : Statement} (h : s.Parsed T) (lowering : Lowering) :
    ∃ entries, s.entries lowering = .ok entries := by
  cases lowering with
  | comments => cases s <;> exact ⟨_, rfl⟩
  | full =>
    cases h with
    | comment => exact ⟨_, rfl⟩
    | returns h | assign _ h | expression h =>
      obtain ⟨text, htext⟩ := h.exists_glsl
      exact ⟨_, by simp [Statement.entries, Statement.fullEntries, htext, bind, Except.bind]; rfl⟩
    | constant h =>
      obtain ⟨entry, hentry⟩ := h.exists_entry
      exact ⟨[entry], by simp [Statement.entries, Statement.fullEntries, hentry, bind, Except.bind,
        pure, Except.pure]⟩

lemma Statement.exists_bodyEntries {body : List Statement} (h : ∀ s ∈ body, s.Parsed T)
    (lowering : Lowering) : ∃ entries, Statement.bodyEntries lowering body = .ok entries := by
  obtain ⟨parts, hparts⟩ := exists_mapM_eq_ok fun s hs => (h s hs).exists_entries lowering
  exact ⟨parts.flatten, by simp [Statement.bodyEntries, hparts, bind, Except.bind, pure, Except.pure]⟩

lemma Function.Parsed.exists_entries {f : Function} (h : f.Parsed T) :
    ∃ entries, f.entries = .ok entries := by
  obtain ⟨parameters, hparameters⟩ := exists_mapM_eq_ok fun b hb => (h.parameters b hb).exists_glsl
  obtain ⟨returned, hreturned⟩ := h.returned.exists_qualified
  obtain ⟨body, hbody⟩ := Statement.exists_bodyEntries h.body .full
  exact ⟨_, by simp [Function.entries, hparameters, hreturned, hbody, bind, Except.bind]; rfl⟩

end

/-! ### Kernels -/

namespace Compiler

variable {T : Token → Prop} {c : Compiler} {shader : Shader}

/-- Compiling gives exactly one kernel for each stage, of its kind and in its place. -/
def Compiles (c : Compiler) (shader : Shader) : Prop :=
  ∃ kernels, c.compile shader = .ok kernels ∧
    kernels.map (·.stage) = shader.program.stages.map (·.kind)

lemma exists_functionEntries {functions : List Function} (h : ∀ f ∈ functions, f.Parsed T) :
    ∃ entries, c.functionEntries functions = .ok entries := by
  unfold functionEntries
  split
  · obtain ⟨parts, hparts⟩ := exists_mapM_eq_ok fun f hf => (h f hf).exists_entries
    exact ⟨parts.flatten, by simp [hparts, bind, Except.bind, pure, Except.pure]⟩
  · exact ⟨[], rfl⟩

lemma exists_entries (h : shader.program.Parsed T) {stage : Stage} (hs : stage ∈ shader.program.stages) :
    ∃ entries, c.entries shader stage = .ok entries := by
  obtain ⟨uniforms, huniforms⟩ := exists_mapM_eq_ok fun b hb => (h.uniforms b hb).exists_entry "uniform"
  obtain ⟨varyings, hvaryings⟩ := exists_mapM_eq_ok fun b hb => (h.varyings b hb).exists_entry "varying"
  obtain ⟨constants, hconstants⟩ := exists_mapM_eq_ok fun k hk => (h.constants k hk).exists_entry
  obtain ⟨functions, hfunctions⟩ := exists_functionEntries (c := c) h.functions
  obtain ⟨body, hbody⟩ := Statement.exists_bodyEntries (h.stages stage hs).body c.lowering
  exact ⟨_, by simp [entries, huniforms, hvaryings, hconstants, hfunctions, hbody, bind, Except.bind]; rfl⟩

/-- A kernel is of the kind of its stage. -/
lemma stage_kernel {stage : Stage} {kernel : Kernel} (h : c.kernel shader stage = .ok kernel) :
    kernel.stage = stage.kind := by
  unfold Compiler.kernel at h
  cases he : c.entries shader stage with
  | error cause => simp [he, bind, Except.bind] at h
  | ok entries =>
    obtain rfl : _ = kernel := by simpa [he, bind, Except.bind, pure, Except.pure] using h
    rfl

/-- **A shader whose program could have been read can be compiled.** -/
theorem compiles_of_parsed (c : Compiler) (h : shader.program.Parsed T) : c.Compiles shader := by
  have hkernel : ∀ stage ∈ shader.program.stages, ∃ kernel, c.kernel shader stage = .ok kernel := by
    intro stage hs
    obtain ⟨entries, hentries⟩ := exists_entries (c := c) h hs
    exact ⟨_, by simp [Compiler.kernel, hentries, bind, Except.bind]; rfl⟩
  obtain ⟨kernels, hkernels⟩ := exists_mapM_eq_ok hkernel
  have hkinds : List.Forall₂ (· = ·) (kernels.map (·.stage)) (shader.program.stages.map (·.kind)) := by
    rw [List.forall₂_map_left_iff, List.forall₂_map_right_iff]
    exact ((mapM_eq_ok_iff.1 hkernels).imp fun _ _ => stage_kernel).flip
  rw [List.forall₂_eq_eq_eq] at hkinds
  exact ⟨kernels, hkernels, hkinds⟩

end Compiler

/-! ### What keeps a program acceptable -/

namespace Program

/-- The rules could have read the program, from some tokens. -/
abbrev Accepted (p : Program) : Prop := p.Parsed fun _ => True

variable {p q : Program}

lemma Parsed.merge {T : Token → Prop} (hp : p.Parsed T) (hq : q.Parsed T) : (p.merge q).Parsed T where
  uniforms := List.forall_mem_append.2 ⟨hp.uniforms, hq.uniforms⟩
  varyings := List.forall_mem_append.2 ⟨hp.varyings, hq.varyings⟩
  constants := List.forall_mem_append.2 ⟨hp.constants, hq.constants⟩
  functions := List.forall_mem_append.2 ⟨hp.functions, hq.functions⟩
  stages := List.forall_mem_append.2 ⟨hp.stages, hq.stages⟩

/-- Some token has any given kind. -/
lemma occurs_true (kind : Token.Kind) : Rule.Occurs (fun _ => True) kind :=
  ⟨⟨kind, ⟨0, 0, .start⟩, ""⟩, trivial, rfl⟩

/-- The inputs of a sprite and its vertex stage are such that they could have been read, if there are
tokens for their names and for the comment. -/
lemma Parsed.sprite {T : Token → Prop}
    (hnames : ∀ b ∈ Expansion.spriteUniforms ++ Expansion.spriteVaryings,
      Rule.Occurs T (.identifier b.name))
    (hcomment : Rule.Occurs T (.comment "default sprite vertex stage")) (h : p.Parsed T) :
    (Expansion.sprite.run p).Parsed T := by
  have hbinding : ∀ b ∈ Expansion.spriteUniforms ++ Expansion.spriteVaryings, b.Parsed T := by
    have hnamed : ∀ b ∈ Expansion.spriteUniforms ++ Expansion.spriteVaryings, b.primitive.Named := by
      simp only [Expansion.spriteUniforms, Expansion.spriteVaryings, List.cons_append, List.nil_append,
        List.forall_mem_cons]
      exact ⟨⟨"mat4", none, rfl⟩, ⟨"sampler2d", none, rfl⟩, ⟨"vec2", none, rfl⟩, ⟨"vec4", none, rfl⟩,
        by simp⟩
    exact fun b hb => ⟨hnamed b hb, hnames b hb⟩
  obtain ⟨huniforms, hvaryings⟩ := List.forall_mem_append.1 hbinding
  have hvertex : Expansion.spriteVertex.Parsed T :=
    ⟨by simp [Expansion.spriteVertex], by simpa [Expansion.spriteVertex] using .comment hcomment⟩
  unfold Expansion.run
  split
  · refine ⟨List.forall_mem_append.2 ⟨huniforms, h.uniforms⟩,
      List.forall_mem_append.2 ⟨hvaryings, h.varyings⟩, h.constants, h.functions, ?_⟩
    simp only [Expansion.sprite]
    split
    · exact h.stages
    · exact List.forall_mem_cons.2 ⟨hvertex, h.stages⟩
  · exact h

lemma Accepted.sprite (h : p.Accepted) : (Expansion.sprite.run p).Accepted :=
  Parsed.sprite (fun _ _ => occurs_true _) (occurs_true _) h

/-- **What the sprite expansion keeps, the pipelines of archetypes keep.** -/
lemma apply_of_sprite {P : Program → Prop} (hsprite : ∀ p, P p → P (Expansion.sprite.run p))
    {archetypes : List String} {pipeline : Pipeline}
    (hp : Pipeline.ofArchetypes archetypes = .ok pipeline) (h : P p) : P (pipeline.apply p) := by
  induction archetypes generalizing pipeline p with
  | nil =>
    obtain rfl : [] = pipeline := by simpa [Pipeline.ofArchetypes] using hp
    exact h
  | cons name names ih =>
    unfold Pipeline.ofArchetypes at hp
    split at hp
    · cases hp
    · next expansion hname =>
      cases hnames : Pipeline.ofArchetypes names with
      | error other => simp [hnames, Except.map] at hp
      | ok rest =>
        obtain rfl : expansion :: rest = pipeline := by simpa [hnames, Except.map] using hp
        -- the only archetype is the sprite
        obtain rfl : Expansion.sprite = expansion := by
          unfold Expansion.ofArchetype? at hname
          split at hname <;> cases hname
          rfl
        show P (rest.apply (Expansion.sprite.run p))
        exact ih hnames (hsprite p h)

lemma Accepted.apply {archetypes : List String} {pipeline : Pipeline}
    (hp : Pipeline.ofArchetypes archetypes = .ok pipeline) (h : p.Accepted) :
    (pipeline.apply p).Accepted :=
  apply_of_sprite (P := Accepted) (fun _ => Accepted.sprite) hp h

lemma inherited_accepted {archetypes : List String} {pipeline : Pipeline}
    (hp : Pipeline.ofArchetypes archetypes = .ok pipeline) : Inherited pipeline Accepted where
  empty := ⟨by simp, by simp, by simp, by simp, by simp⟩
  read _ _ h := Accepted.apply hp (parsed_ofTokens (by simp) h)
  merge _ _ := Parsed.merge

end Program

/-! ### Compilations -/

/-- The shader of a text is what its tokens say, and otherwise the error is not one of lowering. -/
lemma Shader.ofText_cases (pipeline : Pipeline) (path source : String) :
    (∃ tokens program, Program.ofTokens tokens = .ok program ∧
      ofText pipeline path source = .ok ⟨path, pipeline.apply program⟩) ∨
    ∃ error, ofText pipeline path source = .error error ∧ ∀ cause, error ≠ .lowering cause := by
  unfold ofText programOfText
  cases tokenize source with
  | error fault => exact .inr ⟨.lex path fault, rfl, by simp⟩
  | ok tokens =>
    cases hprogram : Program.ofTokens tokens with
    | error fault => exact .inr ⟨.parse path fault, by simp [hprogram, Except.mapError, bind, Except.bind],
        by simp⟩
    | ok program =>
      simp only [hprogram, Except.mapError, bind, Except.bind]
      split
      · next missing _ => exact .inr ⟨.inclusion .noResolver missing, rfl, by simp⟩
      · exact .inl ⟨tokens, program, hprogram, rfl⟩

lemma Config.ofArchetypes_of_pipeline {archetypes : List String} {pipeline : Pipeline}
    (h : Config.pipeline archetypes = .ok pipeline) : Pipeline.ofArchetypes archetypes = .ok pipeline := by
  unfold Config.pipeline at h
  split at h
  · next hp =>
    cases h
    exact hp
  · cases h

namespace Compiler

/-- **What is accepted can be compiled**, under every version and lowering and with every pipeline that
a configuration names: the shader of a text by itself, and the shader that any compilation of a session
returns, whatever resolver and sources it has and whatever the others do.  There is one kernel for each
stage of the merged program, and no text leads to an error of lowering. -/
theorem compiles_of_accepted (c : Compiler) {archetypes : List String} {pipeline : Pipeline}
    (hp : Config.pipeline archetypes = .ok pipeline) :
    (∀ path source shader, Shader.ofText pipeline path source = .ok shader → c.Compiles shader) ∧
    (∀ path source cause, c.kernelsOfText pipeline path source ≠ .error (.lowering cause)) ∧
    ∀ resolver sources gates es i answer,
      (({ setting := { pipeline, resolver, sources, gates } } : Session).after es).result? i =
        some (.ok answer) → c.Compiles answer.shader := by
  have hinherited := Program.inherited_accepted (Config.ofArchetypes_of_pipeline hp)
  have htext : ∀ path source shader, Shader.ofText pipeline path source = .ok shader →
      c.Compiles shader := by
    intro path source shader h
    rcases Shader.ofText_cases pipeline path source with ⟨tokens, program, hprogram, hok⟩ | ⟨_, herror, -⟩
    · obtain rfl : _ = shader := Except.ok.inj (hok.symm.trans h)
      exact c.compiles_of_parsed (hinherited.read tokens program hprogram)
    · rw [herror] at h
      cases h
  refine ⟨htext, fun path source cause h => ?_, fun resolver sources gates es i answer h => ?_⟩
  · unfold kernelsOfText kernels at h
    rcases Shader.ofText_cases pipeline path source with ⟨_, _, -, hok⟩ | ⟨error, herror, hne⟩
    · obtain ⟨kernels, hkernels, -⟩ := htext path source _ hok
      simp [hok, hkernels, Except.mapError, bind, Except.bind] at h
    · exact hne cause (by simpa [herror, bind, Except.bind] using h)
  · obtain ⟨t, ht, hresult⟩ := Option.bind_eq_some_iff.1 h
    let setting : Setting := { pipeline, resolver, sources, gates }
    have hsession : (({ setting } : Session).after es).Holds Program.Accepted :=
      Session.holds_after hinherited es
    have hholds := hsession.tasks i t ht
    have hanswer : t.answer? = some answer := by
      unfold Task.result? at hresult
      split at hresult
      · next hphase => simp [Task.answer?, hphase, Option.some.inj hresult]
      · cases hresult
    exact c.compiles_of_parsed (hholds.answer answer hanswer)

/-- A sprite that samples a texture and includes a file with a function, as a text by itself and in a
session that reads both files. -/
theorem compiles_sprite :
    let source := "#shader_type sprite\nvoid fragment() \x7b x = SAMPLE(t, -u) * vec4(1); \x7d"
    let sources : String → Except Error (List Reading) := fun key =>
      if key = "lib" then .ok (Reading.ofText "float h(float x) \x7b return x / 2.0; \x7d")
      else .ok (Reading.ofText ("#include \"lib\"\n" ++ source))
    let s : Session := { setting := { pipeline := [.sprite], sources } }
    let c : Compiler := { version := "300 es", lowering := .full }
    (∃ shader, Shader.ofText [.sprite] "sprite" source = .ok shader ∧ c.Compiles shader) ∧
    ∃ answer, (s.after (.start "main" false :: .replicate 40 (.step 0))).result? 0 = some (.ok answer) ∧
      answer.shader.program.stages.length = 2 ∧ c.Compiles answer.shader := by
  intro source sources s c
  obtain ⟨htext, -, hsession⟩ := compiles_of_accepted c
    (show Config.pipeline ["sprite"] = .ok [.sprite] from rfl)
  constructor
  · have hok : (Shader.ofText [.sprite] "sprite" source).isOk = true := by decide +kernel
    cases h : Shader.ofText [.sprite] "sprite" source with
    | error error => simp [h, Except.isOk, Except.toBool] at hok
    | ok shader => exact ⟨shader, rfl, htext _ _ shader h⟩
  · have hdone : ((s.after (.start "main" false :: .replicate 40 (.step 0))).result? 0).any (fun result =>
        result.toOption.any (·.shader.program.stages.length == 2)) = true := by
      decide +kernel
    obtain ⟨result, hresult, hstages⟩ := (Option.any_eq_true _ _).1 hdone
    cases result with
    | error error => cases hstages
    | ok answer =>
      have htwo : answer.shader.program.stages.length = 2 := by simpa [Except.toOption] using hstages
      exact ⟨answer, hresult, htwo, hsession _ _ _ _ 0 answer hresult⟩

end Compiler

end Shading
