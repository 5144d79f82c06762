import Shading.Session
import Mathlib.Tactic.Common

/-!
# The steps of a task

What a step can do, phase by phase, said once for all that follows.  A step of a task that works on a file
names the file.

* `Task.Step` — the steps one by one, each with what makes it possible;
* `Task.step_iff` — these are the steps;
* `Task.abort_eq_some` — what a task that gives up comes to.
-/

namespace Shading

namespace Task

variable (setting : Setting) (i : Nat) (shared : Shared) (t : Task)

/-- What task number `i` can come to in one step. -/
inductive Step : Shared → Task → Prop
  | asks {path : String} {stack : IncludeStack} (hp : t.phase = .ask path stack) :
    Step shared (t.askStep setting path stack)
  | looks {key : String} {stack : IncludeStack} (hp : t.phase = .look key stack) :
    Step shared (t.lookStep shared key stack)
  | claims {key : String} {stack : IncludeStack} (hp : t.phase = .claim key stack) :
    Step (t.claimStep shared i key stack).1 (t.claimStep shared i key stack).2
  /-- The build that was waited for has come to its end. -/
  | wakes {key : String} {ticket : Nat} {stack : IncludeStack} (hp : t.phase = .wait key ticket stack)
    (hb : isBuilding shared key ticket = false) :
    Step { shared with table := shared.table.wake i } (t.goTo (.look key stack))
  | opens {frame : Frame} {frames : List Frame} (hp : t.phase = .openSource)
    (hf : t.frames = frame :: frames) :
    Step { shared with opened := shared.opened ++ [frame.path] } (t.goTo .gate)
  /-- The gate is open, and the source cannot be opened. -/
  | misses {frame : Frame} {frames : List Frame} {error : Error} (hp : t.phase = .gate)
    (hf : t.frames = frame :: frames) (hg : setting.gates.contains frame.path = false)
    (hs : setting.sources frame.path = .error error) : Step shared (t.goTo (.unwind error))
  | finds {frame : Frame} {frames : List Frame} {readings : List Reading} (hp : t.phase = .gate)
    (hf : t.frames = frame :: frames) (hg : setting.gates.contains frame.path = false)
    (hs : setting.sources frame.path = .ok readings) : Step shared (t.goTo (.read {} [] readings))
  | reads {frame : Frame} {frames : List Frame} {scanner : Scanner} {tokens : List Token}
    {later : List Reading} (hp : t.phase = .read scanner tokens later) (hf : t.frames = frame :: frames) :
    Step shared (t.readStep setting frame frames scanner tokens later)
  | merges {frame : Frame} {frames : List Frame} (hp : t.phase = .merge)
    (hf : t.frames = frame :: frames) : Step shared (t.mergeStep frame frames)
  | publishes {frame : Frame} {frames : List Frame} (hp : t.phase = .publish)
    (hf : t.frames = frame :: frames) :
    Step (t.publishStep shared frame).1 (t.publishStep shared frame).2
  | releases {answer : Answer} {frame : Frame} {frames : List Frame} (hp : t.phase = .release answer)
    (hf : t.frames = frame :: frames) :
    Step (withoutFrame shared frame) { t with frames, phase := .deliver (some answer) }
  | delivers {answer : Option Answer} (hp : t.phase = .deliver answer) : Step shared (t.deliverStep answer)
  | fails {error : Error} (hp : t.phase = .unwind error) (hf : t.frames = []) :
    Step shared (t.goTo (.done (.error error)))
  | unwinds {error : Error} {frame : Frame} {frames : List Frame} (hp : t.phase = .unwind error)
    (hf : t.frames = frame :: frames) :
    Step (withoutFrame shared frame) { t with frames, phase := .unwind error }

variable {setting i shared t} {shared' : Shared} {t' : Task}

lemma Step.of_step (h : t.step setting shared i = some (shared', t')) :
    Step setting i shared t shared' t' := by
  unfold step at h
  split at h
  · next hp =>
    cases h
    exact .asks hp
  · next hp =>
    cases h
    exact .looks hp
  · next hp =>
    obtain ⟨rfl, rfl⟩ := Prod.mk.inj (Option.some.inj h)
    exact .claims hp
  · next hp =>
    split at h
    · cases h
    · next hb =>
      cases h
      exact .wakes hp (Bool.not_eq_true _ ▸ hb)
  · next hp hf =>
    cases h
    exact .opens hp hf
  · next hp hf =>
    split at h
    · cases h
    · next hg =>
      have hg := Bool.not_eq_true _ ▸ hg
      split at h
      · next hs =>
        cases h
        exact .misses hp hf hg hs
      · next hs =>
        cases h
        exact .finds hp hf hg hs
  · next hp hf =>
    cases h
    exact .reads hp hf
  · next hp hf =>
    cases h
    exact .merges hp hf
  · next hp hf =>
    obtain ⟨rfl, rfl⟩ := Prod.mk.inj (Option.some.inj h)
    exact .publishes hp hf
  · next hp hf =>
    cases h
    exact .releases hp hf
  · next hp =>
    cases h
    exact .delivers hp
  · next hp hf =>
    cases h
    exact .fails hp hf
  · next hp hf =>
    cases h
    exact .unwinds hp hf
  · cases h

lemma Step.eq_some (h : Step setting i shared t shared' t') :
    t.step setting shared i = some (shared', t') := by
  unfold step
  cases h with
  | asks hp | looks hp | claims hp | delivers hp => simp only [hp]
  | wakes hp hb => simp [hp, hb]
  | misses hp hf hg hs | finds hp hf hg hs => simp only [hp, hf, hg, hs, Bool.false_eq_true, if_false]
  | opens hp hf | reads hp hf | merges hp hf | publishes hp hf => simp only [hp, hf]
  | releases hp hf | fails hp hf | unwinds hp hf => simp only [hp, hf]

/-- **These are the steps.** -/
theorem step_iff : t.step setting shared i = some (shared', t') ↔ Step setting i shared t shared' t' :=
  ⟨.of_step, Step.eq_some⟩

/-- A task that gives up has been told to, and the cache stays as it is. -/
lemma abort_eq_some (h : t.abort shared i = some (shared', t')) :
    t.cancelled = true ∧ t' = t.goTo (.unwind .cancelled) ∧ shared'.cache = shared.cache := by
  unfold abort at h
  split at h
  · next hc =>
    split at h
    · cases h
      exact ⟨hc, rfl, rfl⟩
    · split at h <;> cases h
      exact ⟨hc, rfl, rfl⟩
    · split at h <;> cases h
      exact ⟨hc, rfl, rfl⟩
    · cases h
  · cases h

end Task

end Shading
