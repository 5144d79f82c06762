import Shading.Proofs.Kernel.LineByLine
import Shading.Proofs.Session.Requests
import Shading.Proofs.Source.Streaming

/-!
# Line feeds in a session

What a session reads comes to it line by line, so that no token and no name of an included file has a
line feed.  The only line feeds in the paths of a task are those of the path that it was asked for, and
the texts in its programs have none.

* `OneLine.normalize` — normal forms of paths have no other line feeds;
* `Reading.OneLine` — a line that was read ends with its line feed;
* `Task.Lined` — where a task has no line feed;
* `Task.Lined.step` — a step keeps it;
* `Session.lined_after` — it holds throughout every run;
* `Compiler.keepsLines_of_accepted` — the kernels of all shaders, line by line.
-/

namespace Shading

/-! ### Paths -/

namespace Path

lemma mem_join {ss : List (List Char)} {c : Char} (h : c ∈ join ss) : c = '/' ∨ ∃ s ∈ ss, c ∈ s := by
  induction ss with
  | nil => cases h
  | cons s ss ih =>
    by_cases hlast : ss = []
    · subst hlast
      exact .inr ⟨s, List.mem_singleton_self s, h⟩
    · rw [join_cons hlast, List.mem_append, List.mem_cons] at h
      rcases h with h | rfl | h
      · exact .inr ⟨s, List.mem_cons_self, h⟩
      · exact .inl rfl
      · rcases ih h with hslash | ⟨s', hs', h⟩
        · exact .inl hslash
        · exact .inr ⟨s', List.mem_cons_of_mem _ hs', h⟩

/-- Only slashes are new in a normal form. -/
lemma mem_normalizeChars {cs : List Char} {c : Char} (hc : c ≠ '/') (h : c ∈ normalizeChars cs) :
    c ∈ cs := by
  rw [normalizeChars_eq] at h
  obtain ⟨s, hs, hmem⟩ := (mem_join h).resolve_left hc
  have hprepared : c ∈ prepared cs := (mem_segments (mem_of_mem_parts hs) c hmem).1
  have hslashed : c ∈ (Text.trim cs).map slash := by
    unfold prepared dropScheme at hprepared
    split at hprepared
    · exact List.mem_of_mem_drop hprepared
    · exact hprepared
  obtain ⟨d, hd, hslash⟩ := List.mem_map.1 hslashed
  obtain rfl : d = c := by
    unfold slash at hslash
    split at hslash
    · exact absurd hslash.symm hc
    · exact hslash
  exact (Text.trim_isInfix cs).subset hd

end Path

lemma OneLine.normalize {path : String} (h : OneLine path) : OneLine (Path.normalize path) := by
  rw [OneLine, Path.normalize, String.toList_ofList]
  exact fun hmem => h (Path.mem_normalizeChars (by decide) hmem)

/-! ### Readings -/

/-- A piece is not cut again. -/
lemma Text.splitAfter_of_mem {α : Type} {ends : α → Bool} {xs piece : List α}
    (h : piece ∈ splitAfter ends xs) : splitAfter ends piece = [piece] := by
  induction xs using piece_induction ends with
  | nil => cases h
  | last first hfirst hne =>
    rw [splitAfter_of_forall hfirst hne, List.mem_singleton] at h
    rw [h, splitAfter_of_forall hfirst hne]
  | cons first x rest hfirst hx ih =>
    rw [splitAfter_append_cons hfirst hx] at h
    rcases List.mem_cons.1 h with rfl | h
    · exact splitAfter_append_cons hfirst hx []
    · exact ih h

lemma Scanner.spelled_line {s s' : Scanner} {text : List Char} {ts : List Token}
    (h : '\n' ∉ text.dropLast) (hline : s.line text = (s', .ok ts)) : ∀ t ∈ ts, t.IsSpelled := by
  unfold Scanner.line at hline
  split at hline
  · next htokens =>
    obtain ⟨-, hts⟩ := Prod.mk.inj hline
    obtain rfl := Except.ok.inj hts
    exact Scan.spelled_tokens (Text.not_mem_content h) htokens
  · cases (Prod.mk.inj hline).2

namespace Reading

/-- In a line that was read only the last character ends it. -/
def OneLine (r : Reading) : Prop := ∀ line, r.line = .ok line → '\n' ∉ line.dropLast

lemma oneLine_ofLines {asked : Nat} {lines : List (List Char)} (h : ∀ line ∈ lines, '\n' ∉ line.dropLast) :
    ∀ r ∈ ofLines asked lines, r.OneLine := by
  induction lines generalizing asked with
  | nil => simp [ofLines]
  | cons line lines ih =>
    obtain ⟨hline, hlines⟩ := List.forall_mem_cons.1 h
    refine List.forall_mem_cons.2 ⟨?_, ih hlines⟩
    rintro _ ⟨⟩
    exact hline

/-- **The lines of a text.** -/
lemma oneLine_ofText (text : String) : ∀ r ∈ ofText text, r.OneLine :=
  oneLine_ofLines fun _ => Text.not_mem_dropLast_of_mem_lines

/-- **The lines of bytes**, those that can be read. -/
lemma oneLine_ofBytes (bytes : List UInt8) : ∀ r ∈ ofBytes bytes, r.OneLine := by
  intro r hr line hline
  have hpiece : r.line ∈ (Text.splitAfter (· == 10) bytes).map decode := by
    rw [← map_line_ofBytes]
    exact List.mem_map_of_mem hr
  obtain ⟨piece, hmem, hdecode⟩ := List.mem_map.1 hpiece
  rw [hline] at hdecode
  obtain rfl := decode_eq_ok.1 hdecode
  have hlines : (Text.lines line).map Utf8.encode = [line].map Utf8.encode := by
    rw [← Utf8.splitAfter_encode]
    exact Text.splitAfter_of_mem hmem
  have hone := List.map_injective_iff.2 Utf8.encode_injective hlines
  exact Text.not_mem_dropLast_of_mem_lines (hone ▸ List.mem_singleton_self line)

end Reading

/-! ### Tasks -/

/-- Every source is read line by line. -/
def SourcesLined (sources : String → Except Error (List Reading)) : Prop :=
  ∀ key readings, sources key = .ok readings → ∀ r ∈ readings, r.OneLine

/-- The sources are read line by line, and the pipeline leaves what is read on its lines. -/
structure Setting.Lined (setting : Setting) : Prop where
  sources : SourcesLined setting.sources
  program : ∀ tokens p, (∀ t ∈ tokens, t.IsSpelled) → Program.ofTokens tokens = .ok p →
    (setting.pipeline.apply p).Parsed Token.IsSpelled
  includes : ∀ tokens p, (∀ t ∈ tokens, t.IsSpelled) → Program.ofTokens tokens = .ok p →
    ∀ path ∈ (setting.pipeline.apply p).includes.toList, OneLine path

/-- Every shader in the cache is kept under its path. -/
def Shared.Keyed (shared : Shared) : Prop :=
  ∀ key shader, shared.cache.lookup key = some shader → shader.path = key

/-- What a phase names has `P`, and what was read and will be read is on its lines. -/
def Phase.Lined (P : String → Prop) : Phase → Prop
  | .ask path _ => P path
  | .look key _ | .claim key _ | .wait key _ _ => P key
  | .read _ tokens later => (∀ t ∈ tokens, t.IsSpelled) ∧ ∀ r ∈ later, r.OneLine
  | .release answer | .deliver (some answer) | .done (.ok answer) => P answer.shader.path
  | _ => True

structure Frame.Lined (P : String → Prop) (f : Frame) : Prop where
  path : P f.path
  pending : ∀ path ∈ f.pending, OneLine path

lemma Shared.Keyed.of_cache {shared shared' : Shared} (hs : shared.Keyed)
    (h : shared'.cache = shared.cache) : shared'.Keyed := by
  unfold Shared.Keyed
  rwa [h]

namespace Task

variable {setting : Setting} {shared shared' : Shared} {t t' : Task} {i : Nat}

/-- A line feed in the path would be one in the path that the task was asked for. -/
def Admits (t : Task) (path : String) : Prop := OneLine t.path → OneLine path

lemma Admits.normalize {path : String} (h : t.Admits path) : t.Admits (Path.normalize path) :=
  fun ht => (h ht).normalize

/-- **Where a task has no line feed.** -/
structure Lined (t : Task) : Prop where
  frames : ∀ f ∈ t.frames, f.Lined t.Admits
  phase : t.phase.Lined t.Admits

lemma Lined.goTo {phase : Phase} (h : t.Lined) (hp : phase.Lined t.Admits) : (t.goTo phase).Lined :=
  ⟨h.frames, hp⟩

/-- What is on top changes, and the files further out stay. -/
lemma Lined.replace {frame frame' : Frame} {frames : List Frame} {phase : Phase} (h : t.Lined)
    (hf : t.frames = frame :: frames) (hframe : frame'.Lined t.Admits) (hp : phase.Lined t.Admits) :
    ({ t with frames := frame' :: frames, phase } : Task).Lined := by
  have hframes := h.frames
  rw [hf] at hframes
  exact ⟨List.forall_mem_cons.2 ⟨hframe, (List.forall_mem_cons.1 hframes).2⟩, hp⟩

lemma Lined.top {frame : Frame} {frames : List Frame} (h : t.Lined) (hf : t.frames = frame :: frames) :
    frame.Lined t.Admits := h.frames frame (by simp [hf])

/-- The innermost file is given up or finished. -/
lemma Lined.pop {frame : Frame} {frames : List Frame} {phase : Phase} (h : t.Lined)
    (hf : t.frames = frame :: frames) (hp : phase.Lined t.Admits) :
    ({ t with frames, phase } : Task).Lined := by
  have hframes := h.frames
  rw [hf] at hframes
  exact ⟨(List.forall_mem_cons.1 hframes).2, hp⟩

lemma Lined.enter {path : String} (h : t.Lined) (hpath : t.Admits path) (stack : IncludeStack)
    (claimed : Bool) : (t.enter path stack claimed).Lined :=
  ⟨List.forall_mem_cons.2 ⟨⟨hpath, by simp⟩, h.frames⟩, trivial⟩

lemma Lined.askStep {path : String} (h : t.Lined) (hpath : t.Admits path) (stack : IncludeStack) :
    (t.askStep setting path stack).Lined := by
  unfold Task.askStep
  split
  · exact h.goTo trivial
  · split
    · exact h.goTo trivial
    · exact h.enter hpath.normalize stack false
  · split
    · exact h.goTo trivial
    · exact h.goTo hpath.normalize

lemma Lined.lookStep {key : String} (hs : shared.Keyed) (h : t.Lined) (hkey : t.Admits key)
    (stack : IncludeStack) : (t.lookStep shared key stack).Lined := by
  unfold Task.lookStep
  simp only
  split
  · next shader hshader =>
    refine h.goTo ?_
    show t.Admits shader.path
    rw [hs _ shader hshader]
    exact hkey.normalize
  · split
    · exact h.goTo trivial
    · exact h.goTo hkey

lemma Lined.claimStep {key : String} (h : t.Lined) (hkey : t.Admits key) (stack : IncludeStack) :
    (t.claimStep shared i key stack).2.Lined := by
  unfold Task.claimStep
  split
  · exact h.goTo hkey
  · split
    · exact h.enter hkey stack true
    · split
      · exact h.goTo trivial
      · exact h.goTo hkey

lemma Lined.readStep (hset : setting.Lined) (h : t.Lined) {frame : Frame} {frames : List Frame}
    (hf : t.frames = frame :: frames) {scanner : Scanner} {tokens : List Token} {later : List Reading}
    (hp : t.phase = .read scanner tokens later) :
    (t.readStep setting frame frames scanner tokens later).Lined := by
  have hphase := h.phase
  rw [hp] at hphase
  obtain ⟨htokens, hlater⟩ := hphase
  unfold Task.readStep
  split
  · exact h.goTo trivial
  · split
    · split
      · exact h.goTo trivial
      · next program hprogram =>
        exact h.replace hf ⟨(h.top hf).path, hset.includes tokens program htokens hprogram⟩ trivial
    · next reading later =>
      obtain ⟨hreading, hlater⟩ := List.forall_mem_cons.1 hlater
      split
      · exact h.goTo trivial
      · next text htext =>
        split
        · exact h.goTo trivial
        · next hline =>
          have hts := Scanner.spelled_line (hreading text htext) hline
          exact h.goTo ⟨List.forall_mem_append.2 ⟨htokens, hts⟩, hlater⟩

lemma Lined.mergeStep (h : t.Lined) (hp : t.phase = .merge) {frame : Frame} {frames : List Frame}
    (hf : t.frames = frame :: frames) : (t.mergeStep frame frames).Lined := by
  have htop := h.top hf
  unfold Task.mergeStep
  split
  · exact h.goTo trivial
  · next next pending hpending =>
    have hnames := htop.pending
    rw [hpending] at hnames
    obtain ⟨hnext, hlater⟩ := List.forall_mem_cons.1 hnames
    simp only
    split
    · exact h.replace hf ⟨htop.path, hlater⟩ (hp ▸ trivial)
    · split
      · exact h.replace hf ⟨htop.path, hlater⟩ (hp ▸ trivial)
      · split
        · exact h.replace hf ⟨htop.path, hlater⟩ trivial
        · exact h.replace hf ⟨htop.path, hlater⟩ fun _ => hnext.normalize

lemma Lined.publishStep (hs : shared.Keyed) (h : t.Lined) {frame : Frame} {frames : List Frame}
    (hf : t.frames = frame :: frames) :
    (t.publishStep shared frame).2.Lined ∧ (t.publishStep shared frame).1.Keyed := by
  have hpath := (h.top hf).path
  unfold Task.publishStep
  simp only
  split
  · split
    · next kept hkept =>
      refine ⟨h.goTo ?_, hs⟩
      show t.Admits kept.path
      rwa [hs _ kept hkept]
    · refine ⟨h.goTo hpath, fun key shader hkey => ?_⟩
      rw [List.lookup_cons] at hkey
      split at hkey
      · next heq =>
        obtain rfl : _ = shader := by simpa using hkey
        exact (beq_iff_eq.1 heq).symm
      · exact hs key shader hkey
  · exact ⟨h.goTo hpath, hs⟩

lemma Lined.deliverStep {answer : Option Answer} (h : t.Lined) (hp : t.phase = .deliver answer) :
    (t.deliverStep answer).Lined := by
  have hphase := h.phase
  rw [hp] at hphase
  unfold Task.deliverStep
  split
  · refine h.goTo ?_
    cases answer with
    | none => trivial
    | some answer => exact hphase
  · next hf => exact h.replace hf ⟨(h.top hf).path, (h.top hf).pending⟩ trivial

/-- **A step brings no line feed into a task**, and it puts a shader into the cache under its path. -/
theorem Lined.step (hset : setting.Lined) (hs : shared.Keyed) (h : t.Lined)
    (hstep : t.step setting shared i = some (shared', t')) : t'.Lined ∧ shared'.Keyed := by
  have hphase := h.phase
  cases step_iff.1 hstep with
  | asks hp =>
    rw [hp] at hphase
    exact ⟨h.askStep hphase _, hs⟩
  | looks hp =>
    rw [hp] at hphase
    exact ⟨h.lookStep hs hphase _, hs⟩
  | claims hp =>
    rw [hp] at hphase
    exact ⟨h.claimStep hphase _, hs.of_cache (t.cache_claimStep shared i _ _)⟩
  | wakes hp =>
    rw [hp] at hphase
    exact ⟨h.goTo hphase, hs⟩
  | opens | misses | fails => exact ⟨h.goTo trivial, hs⟩
  | finds _ _ _ hreadings => exact ⟨h.goTo ⟨by simp, hset.sources _ _ hreadings⟩, hs⟩
  | reads hp hf => exact ⟨h.readStep hset hf hp, hs⟩
  | merges hp hf => exact ⟨h.mergeStep hp hf, hs⟩
  | publishes _ hf => exact h.publishStep hs hf
  | releases hp hf =>
    rw [hp] at hphase
    exact ⟨h.pop hf hphase, hs.of_cache (cache_withoutFrame shared _)⟩
  | delivers hp => exact ⟨h.deliverStep hp, hs⟩
  | unwinds _ hf => exact ⟨h.pop hf trivial, hs.of_cache (cache_withoutFrame shared _)⟩

/-- **No act brings a line feed into a task.** -/
theorem Lined.acts (hset : setting.Lined) (hs : shared.Keyed) (h : t.Lined)
    (hacts : Acts setting i shared t shared' t') : t'.Lined ∧ shared'.Keyed := by
  cases hacts with
  | step hstep => exact h.step hset hs hstep
  | abort ha =>
    obtain ⟨-, rfl, hcache⟩ := abort_eq_some ha
    exact ⟨h.goTo trivial, hs.of_cache hcache⟩
  | cancel => exact ⟨⟨h.frames, h.phase⟩, hs⟩
  | drop _ => exact ⟨⟨by simp, trivial⟩, hs⟩

/-- A program that is read has its texts on their lines. -/
lemma Lined.reads (hset : setting.Lined) (h : t.Lined) :
    t.Reads (Program.Parsed Token.IsSpelled) setting := by
  intro scanner tokens later p hp hprogram
  have hphase := h.phase
  rw [hp] at hphase
  exact hset.program tokens p hphase.1 hprogram

end Task

/-! ### Runs -/

/-- The sources that an event brings are read line by line. -/
def Event.Lined : Event → Prop
  | .replace sources => SourcesLined sources
  | _ => True

namespace Session

variable {s s' : Session}

/-- Where a session has no line feed: in the programs, and in the paths of a task but for those of the
path that it was asked for. -/
structure Lined (s : Session) : Prop where
  setting : s.setting.Lined
  keyed : s.shared.Keyed
  shared : s.shared.Holds (Program.Parsed Token.IsSpelled)
  tasks : ∀ (i : Nat) (t : Task), s.tasks[i]? = some t →
    t.Lined ∧ t.Holds (Program.Parsed Token.IsSpelled)

lemma parsed_empty : ({} : Program).Parsed Token.IsSpelled := ⟨by simp, by simp, by simp, by simp, by simp⟩

lemma Lined.change {e : Event} (h : s.Lined) (he : e.Lined) (hc : s.Change e s') : s'.Lined := by
  have join : ∀ t : Task, t.Lined → t.Holds (Program.Parsed Token.IsSpelled) →
      ({ s with tasks := s.tasks ++ [t] } : Session).Lined := by
    intro t hlined hholds
    refine ⟨h.setting, h.keyed, h.shared, fun j u hu => ?_⟩
    rcases getElem?_append_cases hu with ⟨-, rfl⟩ | hu
    · exact ⟨hlined, hholds⟩
    · exact h.tasks j u hu
  cases hc with
  | @acts _ i t t' shared' _ _ ht hacts hset hshared htasks =>
    obtain ⟨hlined, hholds⟩ := h.tasks i t ht
    obtain ⟨hlined', hkeyed'⟩ := hlined.acts h.setting h.keyed hacts
    obtain ⟨hholds', hshared'⟩ := hholds.acts parsed_empty (fun _ _ => Program.Parsed.merge)
      (hlined.reads h.setting) h.shared hacts
    refine ⟨hset ▸ h.setting, hshared ▸ hkeyed', hshared ▸ hshared', fun j u hu => ?_⟩
    rcases getElem?_set_cases ht htasks hu with ⟨-, rfl⟩ | ⟨-, hu⟩
    · exact ⟨hlined', hholds'⟩
    · exact h.tasks j u hu
  | still => exact h
  | start =>
    exact join _ ⟨by simp [Task.ofPath], fun hpath => hpath⟩
      ⟨by simp [Task.ofPath], by simp [Task.ofPath, Task.answer?]⟩
  | startText =>
    refine join _ ⟨?_, by simp, Reading.oneLine_ofText _⟩ ⟨?_, by simp [Task.ofText, Task.answer?]⟩
    · simpa [Task.ofText] using (⟨fun hpath => hpath, by simp⟩ : Frame.Lined _ _)
    · simpa [Task.ofText] using parsed_empty
  | release => exact ⟨⟨h.setting.sources, h.setting.program, h.setting.includes⟩, h.keyed, h.shared, h.tasks⟩
  | replace => exact ⟨⟨he, h.setting.program, h.setting.includes⟩, h.keyed, h.shared, h.tasks⟩

/-- **No run brings a line feed into a session.** -/
theorem lined_after {setting : Setting} (hset : setting.Lined) {es : List Event}
    (hes : ∀ e ∈ es, e.Lined) : (({ setting } : Session).after es).Lined := by
  have hstart : ({ setting } : Session).Lined :=
    ⟨hset, by simp [Shared.Keyed], by simp [Shared.Holds], by simp⟩
  exact after_induction es hstart fun e he _ _ h hc => h.change (hes e he) hc

end Session

/-! ### Kernels -/

section

lemma occurs_identifier {name : String} (h : isName name = true) :
    Rule.Occurs Token.IsSpelled (.identifier name) :=
  ⟨⟨.identifier name, ⟨0, 0, .start⟩, name⟩, spelled_of_isName h, rfl⟩

lemma occurs_comment {text : String} (hline : OneLine text) (htrim : Text.trim text.toList = text.toList) :
    Rule.Occurs Token.IsSpelled (.comment text) := by
  have hspelled := Spelled.comment hline
  rw [htrim, String.ofList_toList] at hspelled
  exact ⟨⟨.comment text, ⟨0, 0, .start⟩, "//" ++ text⟩, by simpa [Token.IsSpelled] using hspelled, rfl⟩

/-- The texts that a sprite gets are on one line too. -/
lemma Program.Parsed.sprite_isSpelled {p : Program} (h : p.Parsed Token.IsSpelled) :
    (Expansion.sprite.run p).Parsed Token.IsSpelled := by
  have hnames : ∀ b ∈ Expansion.spriteUniforms ++ Expansion.spriteVaryings, isName b.name = true := by
    decide +kernel
  exact Parsed.sprite (fun b hb => occurs_identifier (hnames b hb))
    (occurs_comment (by decide) (by decide +kernel)) h

lemma Program.includes_sprite (p : Program) : (Expansion.sprite.run p).includes = p.includes := by
  unfold Expansion.run
  split <;> rfl

lemma Setting.lined_of_archetypes {setting : Setting} {archetypes : List String}
    (hp : Pipeline.ofArchetypes archetypes = .ok setting.pipeline)
    (hsources : SourcesLined setting.sources) : setting.Lined where
  sources := hsources
  program tokens p htokens h :=
    Program.apply_of_sprite (P := Program.Parsed Token.IsSpelled)
      (fun _ => Program.Parsed.sprite_isSpelled) hp (Program.parsed_ofTokens htokens h)
  includes tokens p htokens h := by
    refine Program.apply_of_sprite (P := fun p => ∀ path ∈ p.includes.toList, OneLine path)
      (fun p hp => ?_) hp fun path hpath => ?_
    · rwa [Program.includes_sprite]
    · exact (Program.includes_ofTokens htokens h path hpath).oneLine_string

lemma Shader.ofText_eq_ok {pipeline : Pipeline} {path source : String} {shader : Shader}
    (h : Shader.ofText pipeline path source = .ok shader) : ∃ tokens program,
      tokenize source = .ok tokens ∧ Program.ofTokens tokens = .ok program ∧
      shader = ⟨path, pipeline.apply program⟩ := by
  obtain ⟨program, hprogram, h⟩ := bind_eq_ok_iff.1 h
  obtain ⟨tokens, htokens, hprogram⟩ := bind_eq_ok_iff.1 hprogram
  refine ⟨tokens, program, mapError_eq_ok_iff.1 htokens, mapError_eq_ok_iff.1 hprogram, ?_⟩
  simp only at h
  split at h
  · cases h
  · exact (Except.ok.inj h).symm

end

namespace Compiler

/-- The kernels of a shader, one for each stage, have a line for each of their items and no other lines. -/
def KeepsLines (c : Compiler) (shader : Shader) : Prop :=
  ∃ kernels, c.compile shader = .ok kernels ∧
    List.Forall₂ (c.Splits shader) shader.program.stages kernels

/-- **No text of a source breaks out of its line.**  With a path and a version that have no line feed,
under both lowerings and every pipeline that a configuration names, the kernels of a text by itself have a
line for each of their items, and so have those of every shader that a task of a session gets.  It does
not matter what else is compiled in the session, and from where. -/
theorem keepsLines_of_accepted (c : Compiler) (hversion : OneLine c.version) {archetypes : List String}
    {pipeline : Pipeline} (hp : Config.pipeline archetypes = .ok pipeline) :
    (∀ path source shader, OneLine path → Shader.ofText pipeline path source = .ok shader →
      c.KeepsLines shader) ∧
    ∀ resolver sources gates es, SourcesLined sources → (∀ e ∈ es, e.Lined) →
      ∀ (i : Nat) (t : Task) (answer : Answer),
        (({ setting := { pipeline, resolver, sources, gates } } : Session).after es).tasks[i]? = some t →
        OneLine t.path → t.result? = some (.ok answer) → c.KeepsLines answer.shader := by
  have hp := Config.ofArchetypes_of_pipeline hp
  constructor
  · intro path source shader hpath h
    obtain ⟨tokens, program, htokens, hprogram, rfl⟩ := Shader.ofText_eq_ok h
    have hset : ({ pipeline, sources := fun _ => .ok [] } : Setting).Lined :=
      Setting.lined_of_archetypes hp (by simp [SourcesLined])
    have hparsed := hset.program tokens program (Token.spelled_of_tokenize htokens) hprogram
    exact splits_of_parsed hparsed hpath hversion
  · intro resolver sources gates es hsources hes i t answer ht hpath hresult
    let setting : Setting := { pipeline, resolver, sources, gates }
    have hset : setting.Lined := Setting.lined_of_archetypes hp hsources
    obtain ⟨hlined, hholds⟩ := (Session.lined_after hset hes).tasks i t ht
    have hphase := hlined.phase
    rw [Task.result?_eq_some.1 hresult] at hphase
    exact splits_of_parsed (hholds.answer answer (Task.answer?_of_result? hresult)) (hphase hpath) hversion

/-- A sprite with a comment in its stage, as a text by itself and in a session that also reads the bytes
of the file that it includes. -/
theorem keepsLines_sprite :
    let source := "#shader_type sprite\nvoid fragment() \x7b\n// a \\\r\nx = SAMPLE(t, -u) * \"b\"; \x7d"
    -- `const int k=1`
    let lib : List UInt8 := [99, 111, 110, 115, 116, 32, 105, 110, 116, 32, 107, 61, 49]
    let sources : String → Except Error (List Reading) := fun key =>
      .ok (if key = "lib" then Reading.ofBytes lib else Reading.ofText ("#include \"lib\"\n" ++ source))
    let s : Session := { setting := { pipeline := [.sprite], sources } }
    let es : List Event := .start "main" false :: .replicate 40 (.step 0)
    let c : Compiler := { version := "300 es", lowering := .full }
    (∃ shader, Shader.ofText [.sprite] "sprite" source = .ok shader ∧ c.KeepsLines shader) ∧
    ∃ t answer, (s.after es).tasks[0]? = some t ∧ OneLine t.path ∧ t.result? = some (.ok answer) ∧
      answer.shader.program.stages.length = 2 ∧ answer.shader.program.constants.length = 1 ∧
      c.KeepsLines answer.shader := by
  intro source lib sources s es c
  obtain ⟨htext, hsession⟩ := keepsLines_of_accepted c (by decide)
    (show Config.pipeline ["sprite"] = .ok [.sprite] from rfl)
  constructor
  · have hok : (Shader.ofText [.sprite] "sprite" source).isOk = true := by decide +kernel
    cases h : Shader.ofText [.sprite] "sprite" source with
    | error error => simp [h, Except.isOk, Except.toBool] at hok
    | ok shader => exact ⟨shader, rfl, htext _ _ shader (by decide) h⟩
  · have hsources : SourcesLined sources := by
      rintro key _ ⟨⟩
      split
      · exact Reading.oneLine_ofBytes lib
      · exact Reading.oneLine_ofText _
    have hes : ∀ e ∈ es, e.Lined := by
      refine List.forall_mem_cons.2 ⟨trivial, fun e he => ?_⟩
      rw [List.eq_of_mem_replicate he]
      trivial
    have hdone : (s.after es).tasks[0]?.any (fun t => decide (OneLine t.path) && t.result?.any fun result =>
        result.toOption.any fun answer => answer.shader.program.stages.length == 2 &&
          answer.shader.program.constants.length == 1) = true := by
      decide +kernel
    obtain ⟨t, ht, hdone⟩ := (Option.any_eq_true _ _).1 hdone
    obtain ⟨hpath, hdone⟩ := Bool.and_eq_true_iff.1 hdone
    obtain ⟨result, hresult, hdone⟩ := (Option.any_eq_true _ _).1 hdone
    obtain ⟨answer, hanswer, hdone⟩ := (Option.any_eq_true _ _).1 hdone
    obtain ⟨hstages, hconstants⟩ := Bool.and_eq_true_iff.1 hdone
    have hpath := of_decide_eq_true hpath
    rw [eq_ok_of_toOption hanswer] at hresult
    exact ⟨t, answer, ht, hpath, hresult, beq_iff_eq.1 hstages, beq_iff_eq.1 hconstants,
      hsession _ _ _ es hsources hes 0 t answer ht hpath hresult⟩

end Compiler

end Shading
