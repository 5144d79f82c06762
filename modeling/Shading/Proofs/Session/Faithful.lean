import Shading.Proofs.IncludeGraph
import Shading.Proofs.Session.Run

/-!
# Tasks that follow the expansion

What a task has done so far, measured by the recursive expansion of the file that it was asked for.
Each file that is being put together owes the rest of its expansion, and the file outside it waits for
just that.  Every step of a task keeps this, as long as the cache holds expansions only and no wait is
refused.

* `Frame.rest` — what is still to be put into a file;
* `Lead` — the files that are being put together, each waiting for the one inside it;
* `Shared.Expanded`, `Task.Faithful` — what the cache and each phase promise;
* `Task.Faithful.acts` — every act of a task keeps it.
-/

namespace Shading

open Relation

/-! ### Files being put together -/

/-- The files that a file still includes, each once. -/
def Frame.left (f : Frame) : List String :=
  ((f.pending.map Path.normalize).filter fun key => !f.visited.contains key).eraseDups

/-- What comes out when the rest is put into a file whose program so far is `p`. -/
noncomputable def Frame.rest {setting : Setting} (hl : setting.LoopFree) (f : Frame) (p : Program) :
    Except Error Shader :=
  (p.gather hl.expand f.left).map (Shader.mk f.path)

/-- A claimed file under a settled path, with files outside that lead to it and pending files that it
includes. -/
structure Frame.Placed (setting : Setting) (f : Frame) : Prop where
  claimed : f.claimed = true
  settled : Path.normalize f.path = f.path
  reached : ∀ key ∈ f.stack.paths, ReflTransGen setting.Includes key f.path
  linked : ∀ next ∈ f.pending, setting.Includes f.path (Path.normalize next)

/-- The files that are being put together lead from the root to a key: each of them includes the one
inside it, and with its expansion it will have its own. -/
inductive Lead {setting : Setting} (hl : setting.LoopFree) (root : String) :
    List Frame → String → Prop
  | root : Lead hl root [] root
  | file {f : Frame} {fs : List Frame} {key : String} (placed : f.Placed setting)
    (includes : setting.Includes f.path key)
    (owes : hl.expand f.path =
      (hl.expand key).bind fun shader => f.rest hl (f.program.merge shader.program))
    (outer : Lead hl root fs f.path) : Lead hl root (f :: fs) key

section

variable {setting : Setting} {hl : setting.LoopFree} {root key : String} {f : Frame} {fs : List Frame}

/-- An error inside is an error at the root. -/
lemma Lead.error {e : Error} (h : Lead hl root fs key) (he : hl.expand key = .error e) :
    hl.expand root = .error e := by
  induction h with
  | root => exact he
  | file _ _ owes _ ih =>
    refine ih ?_
    rw [owes, he]
    rfl

/-- Every file leads to the key. -/
lemma Lead.reaches (h : Lead hl root fs key) (hf : f ∈ fs) :
    TransGen setting.Includes f.path key := by
  induction h with
  | root => cases hf
  | @file g gs key _ includes _ _ ih =>
    rcases List.mem_cons.1 hf with rfl | hf
    · exact .single includes
    · exact (ih hf).tail includes

/-- A file from which the next include has been taken is where it was. -/
lemma Frame.Placed.drop {next : String} {pending : List String} (h : f.Placed setting)
    (hp : f.pending = next :: pending) (visited : List String) :
    ({ f with pending, visited } : Frame).Placed setting where
  claimed := h.claimed
  settled := h.settled
  reached := h.reached
  linked i hi := h.linked i (hp ▸ List.mem_cons_of_mem _ hi)

/-- An included file is not being put together further out, since that would be a loop. -/
lemma Frame.Placed.not_contains (hl : setting.LoopFree) (h : f.Placed setting)
    (hkey : setting.Includes f.path key) : f.stack.contains key = false := by
  unfold IncludeStack.contains
  rw [hl.settled _ _ hkey]
  by_contra hmem
  have hreach := h.reached key (by simpa using hmem)
  exact hl.acyclic _ (TransGen.head' hkey hreach)

lemma Frame.Placed.reached_push (hl : setting.LoopFree) (h : f.Placed setting)
    (hkey : setting.Includes f.path key) :
    ∀ outer ∈ (f.stack.push key).paths, ReflTransGen setting.Includes outer key := by
  intro outer houter
  rcases List.mem_append.1 houter with houter | houter
  · exact (h.reached outer houter).tail hkey
  · obtain rfl := List.mem_singleton.1 houter
    rw [hl.settled _ _ hkey]

/-- **The next file to put in**, when it was not met before. -/
lemma Frame.left_cons {next : String} {pending : List String} (hp : f.pending = next :: pending)
    (hv : f.visited.contains (Path.normalize next) = false) :
    f.left = Path.normalize next ::
      ({ f with pending, visited := Path.normalize next :: f.visited } : Frame).left := by
  have hfilter : ∀ keys : List String,
      (keys.filter fun key => !f.visited.contains key).filter (fun key => !key == Path.normalize next) =
        keys.filter fun key => !(Path.normalize next :: f.visited).contains key := by
    intro keys
    rw [List.filter_filter]
    refine List.filter_congr fun key _ => ?_
    rw [List.contains_cons, Bool.not_or]
  unfold Frame.left
  rw [hp, List.map_cons, List.filter_cons_of_pos (by simpa using hv), List.eraseDups_cons, hfilter]

lemma Frame.left_of_visited {next : String} {pending : List String} (hp : f.pending = next :: pending)
    (hv : f.visited.contains (Path.normalize next) = true) :
    f.left = ({ f with pending } : Frame).left := by
  unfold Frame.left
  rw [hp, List.map_cons, List.filter_cons_of_neg (by simpa using hv)]

lemma Frame.left_of_unvisited (hv : f.visited = []) :
    f.left = (f.pending.map Path.normalize).eraseDups := by
  simp [Frame.left, hv]

end

/-! ### Reading a file -/

/-- What is left of a file that is being read: the lines that come after these tokens. -/
def Setting.programFrom (setting : Setting) (key : String) (scanner : Scanner) (tokens : List Token)
    (later : List Reading) : Except Error Program := do
  let ts ← (scanReadings (fun _ => false) scanner 0 later).mapError (.ofInterruption key)
  let program ← (Program.ofTokens (tokens ++ ts)).mapError (.parse key)
  return setting.pipeline.apply program

section

variable {setting : Setting} {key : String} {scanner : Scanner} {tokens : List Token}

/-- A reader that is never told to stop does not look at the number of pieces. -/
lemma scanReadings_asked (later : List Reading) (asked asked' : Nat) (scanner : Scanner) :
    scanReadings (fun _ => false) scanner asked later =
      scanReadings (fun _ => false) scanner asked' later := by
  cases later <;> rfl

lemma Setting.fileProgram_eq {readings : List Reading} (h : setting.sources key = .ok readings) :
    setting.fileProgram key = setting.programFrom key {} [] readings := by
  simp [fileProgram, programFrom, h, tokenizeReadings, bind, Except.bind]

lemma Setting.fileProgram_missing {error : Error} (h : setting.sources key = .error error) :
    setting.fileProgram key = .error error := by
  simp [fileProgram, h, bind, Except.bind]

lemma Setting.programFrom_nil : setting.programFrom key scanner tokens [] =
    ((Program.ofTokens tokens).mapError (.parse key)).map setting.pipeline.apply := by
  simp only [programFrom, scanReadings, Bool.false_eq_true, if_false, Except.mapError, bind,
    Except.bind, List.append_nil]
  cases Program.ofTokens tokens <;> rfl

lemma Setting.programFrom_broken {reading : Reading} {later : List Reading} {fault : IoFault}
    (h : reading.line = .error fault) :
    setting.programFrom key scanner tokens (reading :: later) = .error (.io fault) := by
  simp [programFrom, scanReadings, h, Except.mapError, Error.ofInterruption, bind, Except.bind]

lemma Setting.programFrom_fault {reading : Reading} {later : List Reading} {text : List Char}
    {scanner' : Scanner} {fault : Scan.Fault} (h : reading.line = .ok text)
    (hs : scanner.line text = (scanner', .error fault)) :
    setting.programFrom key scanner tokens (reading :: later) = .error (.lex key fault) := by
  simp [programFrom, scanReadings, h, hs, Except.mapError, Error.ofInterruption, bind, Except.bind]

lemma Setting.programFrom_line {reading : Reading} {later : List Reading} {text : List Char}
    {scanner' : Scanner} {ts : List Token} (h : reading.line = .ok text)
    (hs : scanner.line text = (scanner', .ok ts)) :
    setting.programFrom key scanner tokens (reading :: later) =
      setting.programFrom key scanner' (tokens ++ ts) later := by
  simp only [programFrom, scanReadings, h, hs, Bool.false_eq_true, if_false]
  rw [scanReadings_asked later reading.asked 0]
  cases scanReadings (fun _ => false) scanner' 0 later with
  | error interruption => rfl
  | ok rest => simp [Except.map, Except.mapError, bind, Except.bind]

end

/-- The cache holds expansions only. -/
def Shared.Expanded {setting : Setting} (hl : setting.LoopFree) (shared : Shared) : Prop :=
  ∀ key shader, shared.cache.lookup key = some shader → hl.expand key = .ok shader

namespace Task

variable {setting : Setting} (hl : setting.LoopFree) (t : Task)

/-! ### What each phase promises -/

/-- The task asks for a file under a settled path, which the files being put together wait for. -/
structure Asks (key : String) (stack : IncludeStack) : Prop where
  settled : Path.normalize key = key
  lead : Lead hl (Path.normalize t.path) t.frames key
  reached : ∀ outer ∈ stack.paths, ReflTransGen setting.Includes outer key

/-- The task works on a file, which the files outside wait for. -/
structure Works (f : Frame) (fs : List Frame) : Prop where
  frames : t.frames = f :: fs
  placed : f.Placed setting
  outer : Lead hl (Path.normalize t.path) fs f.path

/-- The task has been told to stop, or the expansion ends in the error. -/
def Fails (error : Error) : Prop :=
  (error = .cancelled ∧ t.cancelled = true) ∨
    hl.expand (Path.normalize t.path) = .error error

/-- **What each phase promises.**  An answer is the expansion of the file that was asked for, and the
file at work owes the rest of its own.  No file is left out. -/
def Faithful : Prop :=
  match t.phase with
  | .ask path stack => t.Asks hl (Path.normalize path) stack
  | .look key stack | .claim key stack | .wait key _ stack => t.Asks hl key stack
  | .openSource | .gate => ∃ f fs, t.Works hl f fs ∧ f.visited = []
  | .read scanner tokens later => ∃ f fs, t.Works hl f fs ∧ f.visited = [] ∧
      setting.fileProgram f.path = setting.programFrom f.path scanner tokens later
  | .merge => ∃ f fs, t.Works hl f fs ∧ hl.expand f.path = f.rest hl f.program
  | .publish => ∃ f fs, t.Works hl f fs ∧ hl.expand f.path = .ok ⟨f.path, f.program⟩
  | .release answer => ∃ f fs, t.Works hl f fs ∧ hl.expand f.path = .ok answer.shader
  | .deliver none => False
  | .deliver (some answer) => ∃ key, Lead hl (Path.normalize t.path) t.frames key ∧
      hl.expand key = .ok answer.shader
  | .unwind error => t.Fails hl error
  | .done (.ok answer) => hl.expand (Path.normalize t.path) = .ok answer.shader
  | .done (.error error) => t.Fails hl error
  | .dropped => True

variable {hl t} {shared : Shared} {f : Frame} {fs : List Frame}

/-! ### Steps -/

lemma Works.eq {frame : Frame} {frames : List Frame} (h : t.Works hl f fs)
    (hf : t.frames = frame :: frames) : f = frame ∧ fs = frames := by
  rw [h.frames] at hf
  exact List.cons.inj hf

lemma Fails.unwind {error : Error} (h : t.Fails hl error) :
    (t.goTo (.unwind error)).Faithful hl := h

lemma Works.fails {error : Error} (h : t.Works hl f fs)
    (he : hl.expand f.path = .error error) : t.Fails hl error := .inr (h.outer.error he)

/-- A file that cannot be read ends its expansion. -/
lemma Works.fails_of_fileProgram {error : Error} (h : t.Works hl f fs)
    (he : setting.fileProgram f.path = .error error) : t.Fails hl error := by
  refine h.fails ?_
  rw [hl.expand_eq h.placed.settled, he]
  rfl

lemma Asks.askStep {path : String} {stack : IncludeStack} {gates : List String}
    (hr : setting.resolver = .cache []) (h : t.Asks hl (Path.normalize path) stack) :
    (t.askStep { setting with gates } path stack).Faithful hl := by
  have hstep : t.askStep { setting with gates } path stack =
      t.goTo (.look (Path.normalize path) stack) := by
    simp [Task.askStep, hr]
  rw [hstep]
  exact ⟨h.settled, h.lead, h.reached⟩

lemma Asks.lookStep {key : String} {stack : IncludeStack}
    (hcache : shared.Expanded hl)
    (h : t.Asks hl key stack) : (t.lookStep shared key stack).Faithful hl := by
  unfold Task.lookStep
  simp only [h.settled]
  split
  · next shader hshader => exact ⟨key, h.lead, hcache key shader hshader⟩
  · split
    · next hc => exact .inl ⟨rfl, hc⟩
    · exact ⟨h.settled, h.lead, h.reached⟩

/-- A file that the task begins to put together is the one that it asked for. -/
lemma Asks.enter {key : String} {stack : IncludeStack} (h : t.Asks hl key stack) :
    (t.enter key stack true).Faithful hl := by
  let f : Frame := { path := key, stack, claimed := true }
  refine ⟨f, t.frames, ⟨rfl, ⟨rfl, h.settled, h.reached, ?_⟩, h.lead⟩, rfl⟩
  intro next hnext
  cases hnext

lemma Asks.claimStep {i : Nat} {key : String} {stack : IncludeStack}
    (hcycle : shared.table.closesCycle i key = false) (h : t.Asks hl key stack) :
    (t.claimStep shared i key stack).2.Faithful hl := by
  unfold Task.claimStep
  split
  · exact ⟨h.settled, h.lead, h.reached⟩
  · split
    · exact h.enter
    · rw [if_neg (by simp [hcycle])]
      exact ⟨h.settled, h.lead, h.reached⟩

/-- A file that has been read owes what it includes. -/
lemma Works.merges {program : Program} (h : t.Works hl f fs)
    (hv : f.visited = []) (hprogram : setting.fileProgram f.path = .ok program) :
    ({ t with
      frames := { f with program, pending := program.includes.toList } :: fs
      phase := .merge } : Task).Faithful hl := by
  let f' : Frame := { f with program, pending := program.includes.toList }
  refine ⟨f', fs, ⟨rfl, ⟨h.placed.claimed, h.placed.settled, h.placed.reached, ?_⟩, h.outer⟩, ?_⟩
  · intro next hnext
    refine ⟨h.placed.settled, program, hprogram, ?_⟩
    exact List.mem_eraseDups.2 (List.mem_map_of_mem hnext)
  · have hleft : f'.left = program.links := Frame.left_of_unvisited (f := f') hv
    rw [Frame.rest, hleft]
    rw [show f'.path = f.path from rfl, hl.expand_eq h.placed.settled, hprogram]
    rfl

lemma Works.readStep {scanner : Scanner} {tokens : List Token} {later : List Reading}
    {gates : List String} (h : t.Works hl f fs) (hv : f.visited = [])
    (hprogram : setting.fileProgram f.path = setting.programFrom f.path scanner tokens later) :
    (t.readStep { setting with gates } f fs scanner tokens later).Faithful hl := by
  unfold Task.readStep
  split
  · next hc => exact .inl ⟨rfl, hc⟩
  · split
    · rw [Setting.programFrom_nil] at hprogram
      split
      · next fault hfault =>
        rw [hfault] at hprogram
        exact (h.fails_of_fileProgram hprogram).unwind
      · next program hok =>
        rw [hok] at hprogram
        exact h.merges hv hprogram
    · split
      · next fault hfault =>
        rw [Setting.programFrom_broken hfault] at hprogram
        exact (h.fails_of_fileProgram hprogram).unwind
      · next text htext =>
        split
        · next fault hline =>
          rw [Setting.programFrom_fault htext hline] at hprogram
          exact (h.fails_of_fileProgram hprogram).unwind
        · next scanner' ts hline =>
          rw [Setting.programFrom_line htext hline] at hprogram
          exact ⟨f, fs, ⟨h.frames, h.placed, h.outer⟩, hv, hprogram⟩

/-- The file asks for the next one that it includes: it waits for its expansion, and then owes the
rest. -/
lemma Works.asks {next : String} {pending : List String} (h : t.Works hl f fs)
    (hrest : hl.expand f.path = f.rest hl f.program) (hp : f.pending = next :: pending)
    (hv : f.visited.contains (Path.normalize next) = false) :
    ({ t with
      frames := { f with pending, visited := Path.normalize next :: f.visited } :: fs
      phase := .ask (Path.normalize next) (f.stack.push (Path.normalize next)) } : Task).Faithful hl := by
  have hnext : setting.Includes f.path (Path.normalize next) := h.placed.linked next (by simp [hp])
  have hsettled := hl.settled _ _ hnext
  unfold Faithful
  simp only [hsettled]
  refine ⟨hsettled, .file (h.placed.drop hp _) hnext ?_ h.outer, h.placed.reached_push hl hnext⟩
  show hl.expand f.path = _
  rw [hrest, Frame.rest, Frame.left_cons hp hv, Program.gather_cons]
  cases hl.expand (Path.normalize next) <;> rfl

/-- **One included file.**  It is passed over if it was met before, and asked for otherwise. -/
lemma Works.mergeStep (hp : t.phase = .merge) (h : t.Works hl f fs)
    (hrest : hl.expand f.path = f.rest hl f.program) : (t.mergeStep f fs).Faithful hl := by
  unfold Task.mergeStep
  split
  · next hpending =>
    refine ⟨f, fs, ⟨h.frames, h.placed, h.outer⟩, ?_⟩
    rw [hrest, Frame.rest, Frame.left, hpending]
    rfl
  · next next pending hpending =>
    simp only
    split
    · next hvisited =>
      unfold Faithful
      simp only [hp]
      refine ⟨_, fs, ⟨rfl, h.placed.drop hpending f.visited, h.outer⟩, ?_⟩
      rw [hrest, Frame.rest, Frame.left_of_visited hpending hvisited]
      rfl
    · next hvisited =>
      have hloop : f.stack.contains (Path.normalize next) = false :=
        h.placed.not_contains hl (h.placed.linked next (by simp [hpending]))
      rw [if_neg (by simp [hloop])]
      split
      · next hc => exact .inl ⟨rfl, hc⟩
      · exact h.asks hrest hpending (by simpa using hvisited)

lemma Works.publishStep {shared : Shared}
    (hcache : shared.Expanded hl)
    (h : t.Works hl f fs) (hprogram : hl.expand f.path = .ok ⟨f.path, f.program⟩) :
    (t.publishStep shared f).2.Faithful hl := by
  unfold Task.publishStep
  simp only [h.placed.claimed, if_true]
  split
  · next kept hkept => exact ⟨f, fs, ⟨h.frames, h.placed, h.outer⟩, hcache f.path kept hkept⟩
  · exact ⟨f, fs, ⟨h.frames, h.placed, h.outer⟩, hprogram⟩

/-- An answer is the result, or it is put into the file that waits for it. -/
lemma deliverStep_faithful {key : String} {answer : Answer}
    (h : Lead hl (Path.normalize t.path) t.frames key)
    (hkey : hl.expand key = .ok answer.shader) :
    (t.deliverStep (some answer)).Faithful hl := by
  unfold Task.deliverStep
  generalize hfs : t.frames = frames at h
  cases h with
  | root => exact hkey
  | @file f fs _ placed includes owes outer =>
    refine ⟨_, fs, ⟨rfl, ⟨placed.claimed, placed.settled, placed.reached, placed.linked⟩, outer⟩, ?_⟩
    rw [hkey] at owes
    exact owes

/-- **Every step of a task follows the expansion**, when the cache holds expansions only and no wait is
refused. -/
theorem Faithful.step {shared' : Shared} {t' : Task} {i : Nat} {gates : List String}
    (hr : setting.resolver = .cache [])
    (hcache : shared.Expanded hl)
    (hcycle : ∀ key stack, t.phase = .claim key stack → shared.table.closesCycle i key = false)
    (h : t.Faithful hl)
    (hstep : t.step { setting with gates } shared i = some (shared', t')) : t'.Faithful hl := by
  unfold Faithful at h
  cases step_iff.1 hstep with
  | asks hp =>
    rw [hp] at h
    exact h.askStep hr
  | looks hp =>
    rw [hp] at h
    exact h.lookStep hcache
  | claims hp =>
    rw [hp] at h
    exact h.claimStep (hcycle _ _ hp)
  | wakes hp =>
    rw [hp] at h
    exact ⟨h.settled, h.lead, h.reached⟩
  | opens hp =>
    rw [hp] at h
    obtain ⟨f, fs, hw, hv⟩ := h
    exact ⟨f, fs, ⟨hw.frames, hw.placed, hw.outer⟩, hv⟩
  | misses hp hf _ hs =>
    rw [hp] at h
    obtain ⟨f, fs, hw, hv⟩ := h
    obtain ⟨rfl, rfl⟩ := hw.eq hf
    exact (hw.fails_of_fileProgram (Setting.fileProgram_missing hs)).unwind
  | finds hp hf _ hs =>
    rw [hp] at h
    obtain ⟨f, fs, hw, hv⟩ := h
    obtain ⟨rfl, rfl⟩ := hw.eq hf
    exact ⟨f, fs, ⟨hf, hw.placed, hw.outer⟩, hv, Setting.fileProgram_eq hs⟩
  | reads hp hf =>
    rw [hp] at h
    obtain ⟨f, fs, hw, hv, hprogram⟩ := h
    obtain ⟨rfl, rfl⟩ := hw.eq hf
    exact hw.readStep hv hprogram
  | merges hp hf =>
    rw [hp] at h
    obtain ⟨f, fs, hw, hrest⟩ := h
    obtain ⟨rfl, rfl⟩ := hw.eq hf
    exact hw.mergeStep hp hrest
  | publishes hp hf =>
    rw [hp] at h
    obtain ⟨f, fs, hw, hprogram⟩ := h
    obtain ⟨rfl, rfl⟩ := hw.eq hf
    exact hw.publishStep hcache hprogram
  | releases hp hf =>
    rw [hp] at h
    obtain ⟨f, fs, hw, hanswer⟩ := h
    obtain ⟨rfl, rfl⟩ := hw.eq hf
    exact ⟨f.path, hw.outer, hanswer⟩
  | @delivers answer hp =>
    rw [hp] at h
    cases answer with
    | none => exact h.elim
    | some answer =>
      obtain ⟨key, hlead, hkey⟩ := h
      exact deliverStep_faithful hlead hkey
  | fails hp | unwinds hp =>
    rw [hp] at h
    exact h

/-- To be told to stop changes only what errors may come. -/
lemma Faithful.cancel (h : t.Faithful hl) :
    ({ t with cancelled := true } : Task).Faithful hl := by
  obtain ⟨path, cancelled, frames, phase⟩ := t
  have hfails : ∀ error, (⟨path, cancelled, frames, phase⟩ : Task).Fails hl error →
      (⟨path, true, frames, phase⟩ : Task).Fails hl error :=
    fun error h => h.imp_left fun h => ⟨h.1, rfl⟩
  cases phase with
  | ask | look | claim | wait => exact ⟨h.settled, h.lead, h.reached⟩
  | openSource | gate | read | merge | publish | release =>
    obtain ⟨f, fs, hw, hfile⟩ := h
    exact ⟨f, fs, ⟨hw.frames, hw.placed, hw.outer⟩, hfile⟩
  | deliver answer => cases answer <;> exact h
  | unwind error => exact hfails error h
  | done result =>
    cases result with
    | ok answer => exact h
    | error error => exact hfails error h
  | dropped => trivial

/-- **Every act of a task follows the expansion.** -/
theorem Faithful.acts {shared' : Shared} {t' : Task} {i : Nat} {gates : List String}
    (hr : setting.resolver = .cache [])
    (hcache : shared.Expanded hl)
    (hcycle : ∀ key stack, t.phase = .claim key stack → shared.table.closesCycle i key = false)
    (h : t.Faithful hl) (hacts : Acts { setting with gates } i shared t shared' t') :
    t'.Faithful hl := by
  cases hacts with
  | step hstep => exact h.step hr hcache hcycle hstep
  | abort habort =>
    -- a task that gives up has been told to
    obtain ⟨hc, rfl, -⟩ := abort_eq_some habort
    exact .inl ⟨rfl, hc⟩
  | cancel => exact h.cancel
  | drop _ => trivial

end Task

end Shading
