import Shading.Proofs.Session.Faithful

/-!
# Tasks seen from inside a part of the files

Some of the files may include each other without a loop and without need of the others, whatever
these include.  A task that comes to such a file goes on as a task would that had been asked for it and
had only the files of the part: the files being put together further out do not matter until the file
is delivered.

* `Setting.Enclosed` — a part of the files that leads to no file outside;
* `Setting.within`, `Task.within` — a setting and a task as they are seen inside;
* `Task.step_within` — steps inside are steps of the task that is seen there.
-/

namespace Shading

open Relation

/-! ### A part of the files -/

section

variable (S : String → Prop) [DecidablePred S]

/-- Only the files of a part can be opened. -/
def Setting.within (setting : Setting) : Setting :=
  { setting with
    sources := fun key => if S key then setting.sources key else .error (.inclusion .notFound key) }

def IncludeStack.within (stack : IncludeStack) : IncludeStack :=
  { stack with paths := stack.paths.filter (S ·) }

def Frame.within (f : Frame) : Frame := { f with stack := f.stack.within S }

def Phase.within : Phase → Phase
  | .ask path stack => .ask path (stack.within S)
  | .look key stack => .look key (stack.within S)
  | .claim key stack => .claim key (stack.within S)
  | .wait key ticket stack => .wait key ticket (stack.within S)
  | phase => phase

def Shared.within (shared : Shared) : Shared :=
  { shared with cache := shared.cache.filter (S ·.1) }

/-- The task as it would be if it had been asked for `root`, in a part of the files. -/
def Task.within (t : Task) (root : String) (inner : List Frame) : Task :=
  ⟨root, t.cancelled, inner.map (Frame.within S), t.phase.within S⟩

end

/-- A part of the files, under settled paths, that leads to no file outside. -/
structure Setting.Enclosed (setting : Setting) (S : String → Prop) : Prop where
  settled : ∀ key, S key → Path.normalize key = key
  closed : ∀ key i, S key → setting.Includes key i → S i

section

variable {S : String → Prop} [DecidablePred S] {setting : Setting}

@[simp] lemma Frame.path_within (f : Frame) : (f.within S).path = f.path := rfl

lemma Setting.sources_within {key : String} (h : S key) :
    (setting.within S).sources key = setting.sources key := if_pos h

lemma Setting.fileProgram_within {key : String} (h : S key) :
    (setting.within S).fileProgram key = setting.fileProgram key := by
  unfold fileProgram
  rw [sources_within h]
  rfl

lemma Setting.includes_within {key i : String} :
    (setting.within S).Includes key i ↔ S key ∧ setting.Includes key i := by
  by_cases h : S key
  · unfold Includes
    rw [fileProgram_within h]
    simp [h]
  · refine ⟨fun ⟨_, program, hprogram, _⟩ => ?_, fun hi => absurd hi.1 h⟩
    obtain ⟨readings, hreadings⟩ := sources_of_fileProgram hprogram
    simp [within, h] at hreadings

lemma Shared.lookup_within {key : String} (h : S key) (shared : Shared) :
    (shared.within S).cache.lookup key = shared.cache.lookup key := by
  unfold Shared.within
  induction shared.cache with
  | nil => rfl
  | cons entry cache ih =>
    obtain ⟨k, shader⟩ := entry
    by_cases hk : S k
    · simp [hk, List.lookup_cons, ih]
    · have hne : (key == k) = false := by
        simp only [beq_eq_false_iff_ne]
        rintro rfl
        exact hk h
      simpa [hk, List.lookup_cons, hne] using ih

/-- The cache holds expansions only, as far as it is seen. -/
lemma Shared.expanded_within {hl : (setting.within S).LoopFree} {shared : Shared} :
    (shared.within S).Expanded hl ↔
      ∀ key shader, S key → shared.cache.lookup key = some shader → hl.expand key = .ok shader := by
  refine ⟨fun h key shader hkey hlookup => h key shader (by rwa [lookup_within hkey]), ?_⟩
  intro h key shader hlookup
  have hkey : S key := by
    obtain ⟨l₁, l₂, hsplit, -⟩ := List.lookup_eq_some_iff.1 hlookup
    have hmem : (key, shader) ∈ (shared.within S).cache := by simp [hsplit]
    simpa using (List.mem_filter.1 hmem).2
  exact h key shader hkey (by rwa [lookup_within hkey] at hlookup)

lemma Phase.eq_claim_of_within {phase : Phase} {key : String} {stack : IncludeStack}
    (h : phase.within S = .claim key stack) : ∃ stack', phase = .claim key stack' := by
  cases phase with
  | claim key' stack' =>
    obtain ⟨rfl, -⟩ := Phase.claim.inj h
    exact ⟨stack', rfl⟩
  | _ => cases h

namespace IncludeStack

lemma contains_within {path : String} (h : S (Path.normalize path)) (stack : IncludeStack) :
    (stack.within S).contains path = stack.contains path := by
  simp [IncludeStack.within, contains, h]

lemma push_within {path : String} (h : S (Path.normalize path)) (stack : IncludeStack) :
    (stack.push path).within S = (stack.within S).push path := by
  simp [IncludeStack.within, push, h]

end IncludeStack

end

namespace Task

variable {S : String → Prop} [DecidablePred S] {setting : Setting} {hl : (setting.within S).LoopFree}
  {root : String} {t t' : Task} {inner outer : List Frame} {shared shared' : Shared} {i : Nat}
  {gates : List String}

/-- What is led to from inside is inside. -/
lemma inside_of_lead (hS : setting.Enclosed S) {key : String} {frames : List Frame} (hroot : S root)
    (h : Lead hl root frames key) : S key := by
  cases h with
  | root => exact hroot
  | file _ includes =>
    obtain ⟨hf, hi⟩ := Setting.includes_within.1 includes
    exact hS.closed _ _ hf hi

/-! ### Steps inside -/

variable (S root outer) in
/-- What is seen of a task inside, where it has been asked for `root`; the other files that it puts
together are not seen. -/
def Seen (t u : Task) : Prop := ∃ inner, t.frames = inner ++ outer ∧ u = t.within S root inner

/-- The file that the task is seen to work on is the one that it works on. -/
lemma Works.inside {f frame : Frame} {fs frames : List Frame} (h : (t.within S root inner).Works hl f fs)
    (hf : t.frames = inner ++ outer) (hf' : t.frames = frame :: frames) :
    ∃ gs, inner = frame :: gs ∧ frames = gs ++ outer ∧ f = frame.within S ∧ fs = gs.map (Frame.within S) := by
  obtain ⟨g, gs, rfl, hg, hgs⟩ := List.map_eq_cons_iff.1 h.frames
  obtain ⟨rfl, rfl⟩ := List.cons.inj (hf.symm.trans hf')
  exact ⟨gs, rfl, rfl, hg.symm, hgs.symm⟩

lemma exists_works_inside (hS : setting.Enclosed S) (hroot : S root) {P : Frame → List Frame → Prop}
    {frame : Frame} {frames : List Frame} (h : ∃ f fs, (t.within S root inner).Works hl f fs ∧ P f fs)
    (hf : t.frames = inner ++ outer) (hf' : t.frames = frame :: frames) :
    ∃ gs, inner = frame :: gs ∧ frames = gs ++ outer ∧ S frame.path ∧
      (t.within S root inner).Works hl (frame.within S) (gs.map (Frame.within S)) := by
  obtain ⟨f, fs, hw, -⟩ := h
  obtain ⟨gs, rfl, rfl, rfl, rfl⟩ := hw.inside hf hf'
  have hroot : S (Path.normalize root) := (hS.settled root hroot).symm ▸ hroot
  exact ⟨gs, rfl, rfl, inside_of_lead hS hroot hw.outer, hw⟩

lemma askStep_within {path : String} {stack : IncludeStack} (hr : setting.resolver = .cache [])
    (hf : t.frames = inner ++ outer) : Seen S root outer (t.askStep { setting with gates } path stack)
      ((t.within S root inner).askStep { setting.within S with gates } path (stack.within S)) := by
  have hr' : (setting.within S).resolver = .cache [] := hr
  unfold askStep
  rw [hr, hr']
  exact ⟨inner, hf, rfl⟩

lemma lookStep_within {key : String} {stack : IncludeStack} (hkey : S (Path.normalize key))
    (hf : t.frames = inner ++ outer) : Seen S root outer (t.lookStep shared key stack)
      ((t.within S root inner).lookStep (shared.within S) key (stack.within S)) := by
  obtain ⟨path, cancelled, frames, phase⟩ := t
  unfold lookStep
  dsimp only
  rw [Shared.lookup_within hkey]
  cases shared.cache.lookup (Path.normalize key) with
  | some shader => exact ⟨inner, hf, rfl⟩
  | none => cases cancelled <;> exact ⟨inner, hf, rfl⟩

/-- A file that is begun inside is seen. -/
lemma claimStep_within {key : String} {stack : IncludeStack} (hkey : S key) (hf : t.frames = inner ++ outer) :
    Seen S root outer (t.claimStep shared i key stack).2
      ((t.within S root inner).claimStep (shared.within S) i key (stack.within S)).2 := by
  have htable : (shared.within S).table = shared.table := rfl
  unfold claimStep
  rw [Shared.lookup_within hkey, htable]
  split
  · exact ⟨inner, hf, rfl⟩
  · cases shared.table.build? key with
    | none => exact ⟨{ path := key, stack, claimed := true } :: inner, by simp [enter, hf], rfl⟩
    | some build =>
      dsimp only
      cases shared.table.closesCycle i key <;> exact ⟨inner, hf, rfl⟩

lemma readStep_within {f : Frame} {fs : List Frame} {scanner : Scanner} {tokens : List Token}
    {later : List Reading} (hf : t.frames = f :: fs ++ outer) :
    Seen S root outer (t.readStep { setting with gates } f (fs ++ outer) scanner tokens later)
      ((t.within S root (f :: fs)).readStep { setting.within S with gates } (f.within S)
        (fs.map (Frame.within S)) scanner tokens later) := by
  obtain ⟨path, cancelled, frames, phase⟩ := t
  unfold readStep
  cases cancelled with
  | true => exact ⟨f :: fs, hf, rfl⟩
  | false =>
    cases later with
    | nil =>
      cases Program.ofTokens tokens with
      | error fault => exact ⟨f :: fs, hf, rfl⟩
      | ok program =>
        exact ⟨{ f with
          program := setting.pipeline.apply program
          pending := (setting.pipeline.apply program).includes.toList } :: fs, rfl, rfl⟩
    | cons reading later =>
      dsimp only
      cases reading.line with
      | error fault => exact ⟨f :: fs, hf, rfl⟩
      | ok text =>
        dsimp only
        obtain ⟨scanner', result⟩ := scanner.line text
        cases result <;> exact ⟨f :: fs, hf, rfl⟩

/-- The files outside are on no path to a file inside. -/
lemma mergeStep_within {f : Frame} {fs : List Frame} (hf : t.frames = f :: fs ++ outer)
    (hp : t.phase = .merge) (hnext : ∀ next ∈ f.pending, S (Path.normalize next) ∧
      Path.normalize (Path.normalize next) = Path.normalize next) :
    Seen S root outer (t.mergeStep f (fs ++ outer))
      ((t.within S root (f :: fs)).mergeStep (f.within S) (fs.map (Frame.within S))) := by
  obtain ⟨path, cancelled, frames, phase⟩ := t
  obtain rfl : phase = .merge := hp
  have hpart : (f.within S).pending = f.pending := rfl
  unfold mergeStep
  rw [hpart]
  cases hpending : f.pending with
  | nil => exact ⟨f :: fs, hf, rfl⟩
  | cons next pending =>
    obtain ⟨hS, hsettled⟩ := hnext next (by simp [hpending])
    rw [← hsettled] at hS
    simp only [Frame.within, IncludeStack.contains_within hS]
    split
    · exact ⟨{ f with pending } :: fs, rfl, rfl⟩
    · rw [← IncludeStack.push_within hS]
      split
      · exact ⟨{ f with pending, visited := Path.normalize next :: f.visited } :: fs, rfl, rfl⟩
      · cases cancelled <;>
          exact ⟨{ f with pending, visited := Path.normalize next :: f.visited } :: fs, rfl, rfl⟩

lemma publishStep_within {f : Frame} (hkey : S f.path) (hf : t.frames = inner ++ outer) :
    Seen S root outer (t.publishStep shared f).2
      ((t.within S root inner).publishStep (shared.within S) (f.within S)).2 := by
  obtain ⟨path, stack, claimed, program, pending, visited⟩ := f
  unfold publishStep
  dsimp only [Frame.within]
  rw [Shared.lookup_within hkey]
  cases claimed with
  | false => exact ⟨inner, hf, rfl⟩
  | true => cases shared.cache.lookup path <;> exact ⟨inner, hf, rfl⟩

lemma deliverStep_within {f : Frame} {fs : List Frame} {answer : Option Answer}
    (hf : t.frames = f :: fs ++ outer) :
    Seen S root outer (t.deliverStep answer) ((t.within S root (f :: fs)).deliverStep answer) := by
  unfold deliverStep
  rw [hf]
  cases answer with
  | none => exact ⟨f :: fs, rfl, rfl⟩
  | some answer => exact ⟨{ f with program := f.program.merge answer.shader.program } :: fs, rfl, rfl⟩

variable (S setting root t inner outer shared i gates) in
/-- The task that is seen inside, where it puts `inner` together, makes the step to what is seen of `t'`. -/
def SeenStep (t' : Task) : Prop :=
  ∃ u' shared'', (t.within S root inner).step { setting.within S with gates } (shared.within S) i =
    some (shared'', u') ∧ Seen S root outer t' u'

lemma SeenStep.of_step {u' : Task}
    (h : Step { setting.within S with gates } i (shared.within S) (t.within S root inner) shared' u')
    (hseen : Seen S root outer t' u') : SeenStep S setting root t inner outer shared i gates t' :=
  ⟨u', shared', step_iff.2 h, hseen⟩

lemma phase_within {phase : Phase} (hp : t.phase = phase) :
    (t.within S root inner).phase = phase.within S := congrArg (Phase.within S) hp

section Files

variable {f : Frame} {fs : List Frame}

lemma opens_within (hp : t.phase = .openSource) (hf : t.frames = f :: fs ++ outer) :
    SeenStep S setting root t (f :: fs) outer shared i gates (t.goTo .gate) :=
  .of_step (.opens (phase_within hp) rfl) ⟨f :: fs, hf, rfl⟩

/-- The source is the same inside. -/
lemma misses_within {error : Error} (hS : S f.path) (hp : t.phase = .gate)
    (hf : t.frames = f :: fs ++ outer) (hg : gates.contains f.path = false)
    (hs : setting.sources f.path = .error error) :
    SeenStep S setting root t (f :: fs) outer shared i gates (t.goTo (.unwind error)) :=
  .of_step (.misses (phase_within hp) rfl hg ((Setting.sources_within hS).trans hs)) ⟨f :: fs, hf, rfl⟩

lemma finds_within {readings : List Reading} (hS : S f.path) (hp : t.phase = .gate)
    (hf : t.frames = f :: fs ++ outer) (hg : gates.contains f.path = false)
    (hs : setting.sources f.path = .ok readings) :
    SeenStep S setting root t (f :: fs) outer shared i gates (t.goTo (.read {} [] readings)) :=
  .of_step (.finds (phase_within hp) rfl hg ((Setting.sources_within hS).trans hs)) ⟨f :: fs, hf, rfl⟩

lemma reads_within {scanner : Scanner} {tokens : List Token} {later : List Reading}
    (hp : t.phase = .read scanner tokens later) (hf : t.frames = f :: fs ++ outer) :
    SeenStep S setting root t (f :: fs) outer shared i gates
      (t.readStep { setting with gates } f (fs ++ outer) scanner tokens later) :=
  .of_step (.reads (phase_within hp) rfl) (readStep_within hf)

/-- What a file of the part includes is of the part. -/
lemma merges_within (hS : setting.Enclosed S) (hp : t.phase = .merge) (hf : t.frames = f :: fs ++ outer)
    (hpath : S f.path) (hw : Works hl (t.within S root (f :: fs)) (f.within S) (fs.map (Frame.within S))) :
    SeenStep S setting root t (f :: fs) outer shared i gates (t.mergeStep f (fs ++ outer)) := by
  refine .of_step (.merges (phase_within hp) rfl) (mergeStep_within hf hp fun next hnext => ?_)
  have hincludes := hw.placed.linked next hnext
  exact ⟨hS.closed _ _ hpath (Setting.includes_within.1 hincludes).2, hl.settled _ _ hincludes⟩

lemma publishes_within (hS : S f.path) (hp : t.phase = .publish) (hf : t.frames = f :: fs ++ outer) :
    SeenStep S setting root t (f :: fs) outer shared i gates (t.publishStep shared f).2 :=
  .of_step (.publishes (phase_within hp) rfl) (publishStep_within hS hf)

lemma releases_within {answer : Answer} (hp : t.phase = .release answer) :
    SeenStep S setting root t (f :: fs) outer shared i gates
      { t with frames := fs ++ outer, phase := .deliver (some answer) } :=
  .of_step (.releases (phase_within hp) rfl) ⟨fs, rfl, rfl⟩

end Files

variable (outer) in
/-- The file inside has been delivered or given up to a file outside. -/
def Left (inner : List Frame) (t' : Task) : Prop :=
  inner = [] ∧ outer ≠ [] ∧ (t'.phase = .merge ∨ ∃ error, t'.phase = .unwind error) ∧
    ∀ f ∈ t'.frames, ∃ g ∈ outer, f.path = g.path ∧ f.stack = g.stack

/-- An answer goes to a file inside, to a file outside, or to the one who asked for `root`. -/
lemma delivers_within {answer : Option Answer} (hp : t.phase = .deliver answer)
    (hf : t.frames = inner ++ outer) (h : (t.within S root inner).Faithful hl) :
    SeenStep S setting root t inner outer shared i gates (t.deliverStep answer) ∨
      Left outer inner (t.deliverStep answer) := by
  have hstep : Step { setting.within S with gates } i (shared.within S) (t.within S root inner)
      (shared.within S) ((t.within S root inner).deliverStep answer) := .delivers (phase_within hp)
  cases inner with
  | cons g gs => exact .inl (.of_step hstep (deliverStep_within hf))
  | nil =>
    obtain ⟨path, cancelled, frames, phase⟩ := t
    obtain rfl : phase = .deliver answer := hp
    obtain rfl : frames = outer := hf
    cases frames with
    | nil =>
      cases answer with
      | none => exact h.elim
      | some answer => exact .inl (.of_step hstep ⟨[], rfl, rfl⟩)
    | cons g gs =>
      refine .inr ⟨rfl, by simp, .inl rfl, fun f hf => ?_⟩
      rcases List.mem_cons.1 hf with rfl | hf
      · exact ⟨g, List.mem_cons_self, rfl, rfl⟩
      · exact ⟨f, List.mem_cons_of_mem _ hf, rfl, rfl⟩

/-- A file inside is given up there, and one outside is left to itself. -/
lemma unwinds_within {error : Error} {f : Frame} {fs : List Frame} (hp : t.phase = .unwind error)
    (hf : t.frames = inner ++ outer) (hf' : t.frames = f :: fs) :
    SeenStep S setting root t inner outer shared i gates { t with frames := fs, phase := .unwind error } ∨
      Left outer inner { t with frames := fs, phase := .unwind error } := by
  rw [hf] at hf'
  cases inner with
  | cons g gs =>
    obtain ⟨rfl, rfl⟩ := List.cons.inj hf'
    exact .inl (.of_step (.unwinds (phase_within hp) rfl) ⟨gs, rfl, rfl⟩)
  | nil =>
    obtain rfl : outer = f :: fs := hf'
    refine .inr ⟨rfl, by simp, .inr ⟨error, rfl⟩, fun g hg => ?_⟩
    exact ⟨g, List.mem_cons_of_mem _ hg, rfl, rfl⟩

/-- **Steps inside are steps of the task that is seen there**, until the file inside is delivered or
given up to a file outside. -/
theorem step_within (hr : setting.resolver = .cache []) (hS : setting.Enclosed S) (hroot : S root)
    (hf : t.frames = inner ++ outer) (h : (t.within S root inner).Faithful hl)
    (hstep : t.step { setting with gates } shared i = some (shared', t')) :
    SeenStep S setting root t inner outer shared i gates t' ∨ Left outer inner t' := by
  have hnormal : S (Path.normalize root) := (hS.settled root hroot).symm ▸ hroot
  have hphase := h
  unfold Faithful at hphase
  cases step_iff.1 hstep with
  | asks hp => exact .inl (.of_step (.asks (phase_within hp)) (askStep_within hr hf))
  | looks hp =>
    rw [phase_within hp] at hphase
    have hkey := inside_of_lead hS hnormal hphase.lead
    rw [← hS.settled _ hkey] at hkey
    exact .inl (.of_step (.looks (phase_within hp)) (lookStep_within hkey hf))
  | claims hp =>
    rw [phase_within hp] at hphase
    have hkey := inside_of_lead hS hnormal hphase.lead
    exact .inl (.of_step (.claims (phase_within hp)) (claimStep_within hkey hf))
  | wakes hp hb => exact .inl (.of_step (.wakes (phase_within hp) hb) ⟨inner, hf, rfl⟩)
  | opens hp hf' =>
    rw [phase_within hp] at hphase
    obtain ⟨gs, rfl, rfl, -⟩ := exists_works_inside hS hroot hphase hf hf'
    exact .inl (opens_within hp hf)
  | misses hp hf' hg hs =>
    rw [phase_within hp] at hphase
    obtain ⟨gs, rfl, rfl, hpath, -⟩ := exists_works_inside hS hroot hphase hf hf'
    exact .inl (misses_within hpath hp hf hg hs)
  | finds hp hf' hg hs =>
    rw [phase_within hp] at hphase
    obtain ⟨gs, rfl, rfl, hpath, -⟩ := exists_works_inside hS hroot hphase hf hf'
    exact .inl (finds_within hpath hp hf hg hs)
  | reads hp hf' =>
    rw [phase_within hp] at hphase
    obtain ⟨gs, rfl, rfl, -⟩ := exists_works_inside hS hroot hphase hf hf'
    exact .inl (reads_within hp hf)
  | merges hp hf' =>
    rw [phase_within hp] at hphase
    obtain ⟨gs, rfl, rfl, hpath, hw⟩ := exists_works_inside hS hroot hphase hf hf'
    exact .inl (merges_within hS hp hf hpath hw)
  | publishes hp hf' =>
    rw [phase_within hp] at hphase
    obtain ⟨gs, rfl, rfl, hpath, -⟩ := exists_works_inside hS hroot hphase hf hf'
    exact .inl (publishes_within hpath hp hf)
  | releases hp hf' =>
    rw [phase_within hp] at hphase
    obtain ⟨gs, rfl, rfl, -⟩ := exists_works_inside hS hroot hphase hf hf'
    exact .inl (releases_within hp)
  | delivers hp => exact delivers_within hp hf h
  | fails hp hf' =>
    obtain ⟨rfl, rfl⟩ := List.append_eq_nil_iff.1 (hf.symm.trans hf')
    exact .inl (.of_step (.fails (phase_within hp) rfl) ⟨[], hf, rfl⟩)
  | unwinds hp hf' => exact unwinds_within hp hf hf'

end Task

/-! ### Tasks outside -/

/-- The file is not of the part, and no file on the way to it is. -/
def Frame.Apart (S : String → Prop) (f : Frame) : Prop := ¬ S f.path ∧ ∀ p ∈ f.stack.paths, ¬ S p

/-- The file that is asked for is not of the part, and no file on the way to it is. -/
def Phase.Apart (S : String → Prop) : Phase → Prop
  | .ask path stack => ¬ S (Path.normalize path) ∧ ∀ p ∈ stack.paths, ¬ S p
  | .look key stack | .claim key stack | .wait key _ stack => ¬ S key ∧ ∀ p ∈ stack.paths, ¬ S p
  | _ => True

/-- Files are told apart by their paths and by the ways to them. -/
lemma Frame.apart_cons {S : String → Prop} {f f' : Frame} {fs frames : List Frame}
    (h : ∀ g ∈ frames, g.Apart S) (hf : frames = f :: fs) (hpath : f'.path = f.path)
    (hstack : f'.stack = f.stack) : ∀ g ∈ f' :: fs, g.Apart S := by
  subst hf
  obtain ⟨hf, hfs⟩ := List.forall_mem_cons.1 h
  refine List.forall_mem_cons.2 ⟨?_, hfs⟩
  unfold Frame.Apart
  rwa [hpath, hstack]

namespace Task

variable {S : String → Prop} {setting : Setting} {t t' : Task} {shared shared' : Shared} {i : Nat}
  {gates : List String}

/-- The task has nothing to do with the files of the part. -/
structure Apart (S : String → Prop) (t : Task) : Prop where
  frames : ∀ f ∈ t.frames, f.Apart S
  phase : t.phase.Apart S

/-- The task has come from outside to a file of the part. -/
structure Crosses (S : String → Prop) (t : Task) : Prop where
  frames : ∀ f ∈ t.frames, f.Apart S
  ne_nil : t.frames ≠ []
  asks : ∃ path stack, t.phase = .ask path stack ∧ S (Path.normalize path) ∧
    ∀ p ∈ stack.paths, S p → p = Path.normalize path

lemma apart_askStep {path : String} {stack : IncludeStack} (hr : setting.resolver = .cache [])
    (h : ∀ f ∈ t.frames, f.Apart S) (hp : (Phase.ask path stack).Apart S) :
    (t.askStep { setting with gates } path stack).Apart S := by
  unfold Task.askStep
  rw [hr]
  exact ⟨h, hp⟩

lemma apart_lookStep {key : String} {stack : IncludeStack} (h : ∀ f ∈ t.frames, f.Apart S)
    (hp : (Phase.look key stack).Apart S) : (t.lookStep shared key stack).Apart S := by
  unfold Task.lookStep
  dsimp only
  split
  · exact ⟨h, trivial⟩
  · split
    · exact ⟨h, trivial⟩
    · exact ⟨h, hp⟩

lemma apart_claimStep {key : String} {stack : IncludeStack} (h : ∀ f ∈ t.frames, f.Apart S)
    (hp : (Phase.claim key stack).Apart S) : (t.claimStep shared i key stack).2.Apart S := by
  unfold Task.claimStep
  split
  · exact ⟨h, hp⟩
  · split
    · exact ⟨List.forall_mem_cons.2 ⟨hp, h⟩, trivial⟩
    · split
      · exact ⟨h, trivial⟩
      · exact ⟨h, hp⟩

lemma apart_readStep {f : Frame} {fs : List Frame} {scanner : Scanner} {tokens : List Token}
    {later : List Reading} (hf : t.frames = f :: fs) (h : ∀ f ∈ t.frames, f.Apart S) :
    (t.readStep setting f fs scanner tokens later).Apart S := by
  unfold Task.readStep
  split
  · exact ⟨h, trivial⟩
  · split
    · split
      · exact ⟨h, trivial⟩
      · exact ⟨Frame.apart_cons h hf rfl rfl, trivial⟩
    · split
      · exact ⟨h, trivial⟩
      · split <;> exact ⟨h, trivial⟩

/-- The task has nothing to do with the files of the part, or has just come to one. -/
def Outside (S : String → Prop) (t : Task) : Prop := t.Apart S ∨ t.Crosses S

/-- The next file that is included may be one of the part. -/
lemma outside_mergeStep {f : Frame} {fs : List Frame} (hf : t.frames = f :: fs) (hp : t.phase = .merge)
    (h : ∀ f ∈ t.frames, f.Apart S) : (t.mergeStep f fs).Outside S := by
  have hframes : ∀ {pending visited}, ∀ g ∈ { f with pending, visited } :: fs, g.Apart S :=
    Frame.apart_cons h hf rfl rfl
  have hmerge : t.phase.Apart S := by rw [hp]; trivial
  unfold Task.mergeStep
  split
  · exact .inl ⟨h, trivial⟩
  · next next pending hpending =>
    dsimp only
    split
    · exact .inl ⟨hframes, hmerge⟩
    · split
      · exact .inl ⟨hframes, hmerge⟩
      · split
        · exact .inl ⟨hframes, trivial⟩
        · have hstack := (h f (by simp [hf])).2
          by_cases hS : S (Path.normalize (Path.normalize next))
          · refine .inr ⟨hframes, by simp, _, _, rfl, hS, fun p hmem hp => ?_⟩
            rcases List.mem_append.1 hmem with hmem | hmem
            · exact absurd hp (hstack p hmem)
            · exact List.mem_singleton.1 hmem
          · refine .inl ⟨hframes, hS, fun p hmem => ?_⟩
            rcases List.mem_append.1 hmem with hmem | hmem
            · exact hstack p hmem
            · rwa [List.mem_singleton.1 hmem]

lemma apart_publishStep {f : Frame} (h : ∀ f ∈ t.frames, f.Apart S) :
    (t.publishStep shared f).2.Apart S := by
  unfold Task.publishStep
  dsimp only
  split
  · split <;> exact ⟨h, trivial⟩
  · exact ⟨h, trivial⟩

lemma apart_deliverStep {answer : Option Answer} (h : ∀ f ∈ t.frames, f.Apart S) :
    (t.deliverStep answer).Apart S := by
  unfold Task.deliverStep
  split
  · next hf => exact ⟨by simp [goTo, hf], trivial⟩
  · next f fs hf => exact ⟨Frame.apart_cons h hf rfl rfl, trivial⟩

/-- **A step outside** stays there or comes to a file of the part. -/
theorem Apart.step (hr : setting.resolver = .cache []) (h : t.Apart S)
    (hstep : t.step { setting with gates } shared i = some (shared', t')) :
    t'.Outside S := by
  obtain ⟨hframes, hphase⟩ := h
  have pop {frame : Frame} {frames : List Frame} {phase : Phase} (hf : t.frames = frame :: frames)
      (hp : phase.Apart S) : ({ t with frames, phase } : Task).Outside S := by
    rw [hf] at hframes
    exact .inl ⟨(List.forall_mem_cons.1 hframes).2, hp⟩
  cases step_iff.1 hstep with
  | asks hp => exact .inl (apart_askStep hr hframes (hp ▸ hphase))
  | looks hp => exact .inl (apart_lookStep hframes (hp ▸ hphase))
  | claims hp => exact .inl (apart_claimStep hframes (hp ▸ hphase))
  | wakes hp =>
    rw [hp] at hphase
    exact .inl ⟨hframes, hphase⟩
  | opens | misses | finds | fails => exact .inl ⟨hframes, trivial⟩
  | reads _ hf => exact .inl (apart_readStep hf hframes)
  | merges hp hf => exact outside_mergeStep hf hp hframes
  | publishes => exact .inl (apart_publishStep hframes)
  | releases _ hf | unwinds _ hf => exact pop hf trivial
  | delivers => exact .inl (apart_deliverStep hframes)

end Task

end Shading
