import Shading.Proofs.Session.Step
import Shading.Proofs.WaitGraph

/-!
# The turns of a task

What a task can do to itself and to what it shares with others, said once for all that follows.  Most
steps are quiet: they change neither what is shared nor which files the task has claimed.  The others
each make one change to the build table, to the cache or to the record of what was opened.

* `Task.Acts` — a step, a stop, a mark or a drop, as the events of a session make them;
* `Task.Quiet` — what every quiet step leaves as it is;
* `Task.Turn` — the quiet steps and the others one by one;
* `Task.Acts.turn` — there is nothing else that a task can do.
-/

namespace Shading

namespace Task

/-! ### Views of a task -/

/-- The files that a task has claimed, the innermost first. -/
def claims (t : Task) : List String := (t.frames.filter (·.claimed)).map (·.path)

/-- The file whose build a task waits for. -/
def awaited? (t : Task) : Option String :=
  match t.phase with
  | .wait key _ _ => some key
  | _ => none

/-- The answer that a task has at hand. -/
def answer? (t : Task) : Option Answer :=
  match t.phase with
  | .release answer => some answer
  | .deliver (some answer) => some answer
  | .done (.ok answer) => some answer
  | _ => none

/-- A task that works on a file has one, and a task at its end has none. -/
def Shaped (t : Task) : Prop :=
  match t.phase with
  | .openSource | .gate | .read .. | .merge | .publish | .release _ => t.frames ≠ []
  | .done _ | .dropped => t.frames = []
  | _ => True

/-- The answer for a claimed file is kept under its path, and any other answer is not kept. -/
def Filed (t : Task) : Prop :=
  ∀ answer frame frames, t.phase = .release answer → t.frames = frame :: frames →
    answer.cachedAs = if frame.claimed then some frame.path else none

/-- Without a file, a task is about the path that it was asked for. -/
def AtRoot (t : Task) : Prop :=
  match t.phase with
  | .ask path _ => path = t.path
  | .look key _ | .claim key _ | .wait key _ _ => key = Path.normalize t.path
  | .deliver (some answer) | .done (.ok answer) =>
    answer.cachedAs = some (Path.normalize t.path) ∨
      answer.cachedAs = some (Path.normalize (Path.normalize t.path))
  | _ => True

/-- The outermost file is claimed, and it is the one that the task was asked for. -/
structure Rooted (t : Task) : Prop where
  first : t.frames = [] → t.AtRoot
  outer : ∀ frame, t.frames.getLast? = some frame →
    frame.claimed = true ∧ frame.path = Path.normalize t.path

section Views

variable (t : Task)

@[simp] lemma path_goTo (phase : Phase) : (t.goTo phase).path = t.path := rfl

@[simp] lemma frames_goTo (phase : Phase) : (t.goTo phase).frames = t.frames := rfl

@[simp] lemma phase_goTo (phase : Phase) : (t.goTo phase).phase = phase := rfl

@[simp] lemma cancelled_goTo (phase : Phase) : (t.goTo phase).cancelled = t.cancelled := rfl

@[simp] lemma claims_goTo (phase : Phase) : (t.goTo phase).claims = t.claims := rfl

@[simp] lemma claims_enter (path : String) (stack : IncludeStack) (claimed : Bool) :
    (t.enter path stack claimed).claims = if claimed then path :: t.claims else t.claims := by
  cases claimed <;> rfl

lemma claims_cons {t : Task} {frame : Frame} {frames : List Frame} (h : t.frames = frame :: frames) :
    t.claims = if frame.claimed then frame.path :: ({ t with frames } : Task).claims
      else ({ t with frames } : Task).claims := by
  unfold claims
  rw [h, List.filter_cons]
  split <;> rfl

lemma mem_claims {t : Task} {key : String} :
    key ∈ t.claims ↔ ∃ frame ∈ t.frames, frame.claimed = true ∧ frame.path = key := by
  simp [claims, and_assoc]

lemma cache_withoutFrame (shared : Shared) (frame : Frame) :
    (withoutFrame shared frame).cache = shared.cache := by
  unfold withoutFrame
  split <;> rfl

lemma cache_claimStep (shared : Shared) (i : Nat) (key : String) (stack : IncludeStack) :
    (t.claimStep shared i key stack).1.cache = shared.cache := by
  unfold claimStep
  split
  · rfl
  · split
    · rfl
    · split <;> rfl

end Views

/-! ### Acts and turns -/

variable (setting : Setting) (i : Nat) (shared : Shared) (t : Task)

/-- What task number `i` can do, or have done to it. -/
inductive Acts : Shared → Task → Prop
  /-- It goes on. -/
  | step {shared' : Shared} {t' : Task} (h : t.step setting shared i = some (shared', t')) :
    Acts shared' t'
  /-- It finds that it has been told to stop. -/
  | abort {shared' : Shared} {t' : Task} (h : t.abort shared i = some (shared', t')) : Acts shared' t'
  /-- It is told to stop. -/
  | cancel : Acts shared { t with cancelled := true }
  /-- It is dropped. -/
  | drop (h : t.isPending = true) : Acts { shared with table := shared.table.leave i }
      { t with frames := [], phase := .dropped }

/-- What a step leaves as it is when it changes nothing that is shared. -/
structure Quiet (t' : Task) : Prop where
  path : t'.path = t.path
  claims : t'.claims = t.claims
  idle : t.awaited? = none
  idle' : t'.awaited? = none
  unreleased : ∀ answer, t.phase ≠ .release answer
  unopened : t'.phase ≠ .openSource
  shaped : t'.Shaped
  filed : t'.Filed
  rooted : t.Rooted → t'.Rooted
  /-- An answer was at hand, or it comes from the cache, or it is kept nowhere. -/
  answer : ∀ answer, t'.answer? = some answer → t.answer? = some answer ∨
    ∀ key, answer.cachedAs = some key → shared.cache.lookup key = some answer.shader

/-- What task number `i` can do, sorted by the change to what is shared. -/
inductive Turn : Shared → Task → Prop
  | quiet {t' : Task} (h : Quiet shared t t') : Turn shared t'
  | marks : Turn shared { t with cancelled := true }
  | loads {path : String} {stack : IncludeStack} (hr : setting.resolver = .load)
    (hp : t.phase = .ask path stack) : Turn shared (t.enter (Path.normalize path) stack false)
  | begins {key : String} {stack : IncludeStack} (hp : t.phase = .claim key stack)
    (hc : shared.cache.lookup key = none) (hb : shared.table.build? key = none) :
    Turn { shared with table := shared.table.begin key ⟨i, shared.builds⟩, builds := shared.builds + 1 }
      (t.enter key stack true)
  | waits {key : String} {stack : IncludeStack} {build : Build} (hp : t.phase = .claim key stack)
    (hb : shared.table.build? key = some build) (hc : shared.table.closesCycle i key = false) :
    Turn { shared with table := shared.table.wait i key } (t.goTo (.wait key build.ticket stack))
  | wakes {key : String} {ticket : Nat} {stack : IncludeStack} {phase : Phase}
    (hp : t.phase = .wait key ticket stack)
    (h : phase = .look key stack ∨ phase = .unwind .cancelled) :
    Turn { shared with table := shared.table.wake i } (t.goTo phase)
  | opens {frame : Frame} {frames : List Frame} (hp : t.phase = .openSource)
    (hf : t.frames = frame :: frames) :
    Turn { shared with opened := shared.opened ++ [frame.path] } (t.goTo .gate)
  | publishes {frame : Frame} {frames : List Frame} (hp : t.phase = .publish)
    (hf : t.frames = frame :: frames) (hcl : frame.claimed = true)
    (hc : shared.cache.lookup frame.path = none) :
    Turn { shared with cache := (frame.path, ⟨frame.path, frame.program⟩) :: shared.cache }
      (t.goTo (.release ⟨⟨frame.path, frame.program⟩, some frame.path⟩))
  | releases {answer : Answer} {frame : Frame} {frames : List Frame} (hp : t.phase = .release answer)
    (hf : t.frames = frame :: frames) :
    Turn (withoutFrame shared frame) { t with frames, phase := .deliver (some answer) }
  | unwinds {error : Error} {frame : Frame} {frames : List Frame} (hp : t.phase = .unwind error)
    (hf : t.frames = frame :: frames) :
    Turn (withoutFrame shared frame) { t with frames, phase := .unwind error }
  | leaves : Turn { shared with table := shared.table.leave i }
      { t with frames := [], phase := .dropped }

/-! ### Every act is a turn -/

section

variable {setting i shared t}

lemma Rooted.goTo (h : t.Rooted) {phase : Phase} (hf : t.frames = [] → (t.goTo phase).AtRoot) :
    (t.goTo phase).Rooted := ⟨hf, h.outer⟩

/-- What happens to a file inside does not move the outermost one. -/
lemma Rooted.cons {frame frame' : Frame} {frames : List Frame} (h : t.Rooted)
    (hf : t.frames = frame :: frames) (hc : frame'.claimed = frame.claimed)
    (hp : frame'.path = frame.path) (phase : Phase) :
    ({ t with frames := frame' :: frames, phase } : Task).Rooted := by
  refine ⟨by simp, fun g hg => ?_⟩
  have houter := h.outer
  rw [hf] at houter
  cases frames with
  | nil =>
    obtain rfl : frame' = g := by simpa using hg
    rw [hc, hp]
    exact houter frame rfl
  | cons f fs => exact houter g (by simpa using hg)

/-- Giving up is quiet. -/
lemma quiet_unwind (hi : t.awaited? = none) (hr : ∀ answer, t.phase ≠ .release answer)
    (error : Error) : Quiet shared t (t.goTo (.unwind error)) where
  path := rfl
  claims := rfl
  idle := hi
  idle' := rfl
  unreleased := hr
  unopened := by simp [goTo]
  shaped := trivial
  filed := by simp [Filed, goTo]
  rooted h := h.goTo fun _ => trivial
  answer := by simp [answer?, goTo]

lemma askStep_turn {path : String} {stack : IncludeStack} (hp : t.phase = .ask path stack) :
    Turn setting i shared t shared (t.askStep setting path stack) := by
  have hi : t.awaited? = none := by simp [awaited?, hp]
  have hr : ∀ answer, t.phase ≠ .release answer := by simp [hp]
  unfold askStep
  split
  · exact .quiet (quiet_unwind hi hr _)
  · next hload =>
    split
    · exact .quiet (quiet_unwind hi hr _)
    · exact .loads hload hp
  · split
    · exact .quiet ⟨rfl, rfl, hi, rfl, hr, by simp [goTo], trivial, by simp [Filed, goTo],
        fun h => h.goTo fun _ => trivial, by simp [answer?, goTo]⟩
    · refine .quiet ⟨rfl, rfl, hi, rfl, hr, by simp [goTo], trivial, by simp [Filed, goTo],
        fun h => h.goTo fun hf => ?_, by simp [answer?, goTo]⟩
      have hpath : path = t.path := by simpa [AtRoot, hp] using h.first hf
      exact congrArg Path.normalize hpath

lemma lookStep_quiet {key : String} {stack : IncludeStack} (hp : t.phase = .look key stack) :
    Quiet shared t (t.lookStep shared key stack) := by
  have hi : t.awaited? = none := by simp [awaited?, hp]
  have hr : ∀ answer, t.phase ≠ .release answer := by simp [hp]
  have hkey : t.Rooted → t.frames = [] → key = Path.normalize t.path := fun h hf => by
    simpa [AtRoot, hp] using h.first hf
  unfold lookStep
  simp only
  split
  · next shader hshader =>
    refine ⟨rfl, rfl, hi, rfl, hr, by simp [goTo], trivial, by simp [Filed, goTo],
      fun h => h.goTo fun hf => ?_, ?_⟩
    · exact .inr (congrArg (some <| Path.normalize ·) (hkey h hf))
    · intro answer ha
      obtain rfl : _ = answer := by simpa [answer?, goTo] using ha
      refine .inr fun k hk => ?_
      obtain rfl : Path.normalize key = k := by simpa using hk
      exact hshader
  · split
    · exact quiet_unwind hi hr _
    · exact ⟨rfl, rfl, hi, rfl, hr, by simp [goTo], trivial, by simp [Filed, goTo],
        fun h => h.goTo (hkey h), by simp [answer?, goTo]⟩

lemma claimStep_turn {key : String} {stack : IncludeStack} (hp : t.phase = .claim key stack) :
    Turn setting i shared t (t.claimStep shared i key stack).1 (t.claimStep shared i key stack).2 := by
  have hi : t.awaited? = none := by simp [awaited?, hp]
  have hr : ∀ answer, t.phase ≠ .release answer := by simp [hp]
  unfold claimStep
  split
  · refine .quiet ⟨rfl, rfl, hi, rfl, hr, by simp [goTo], trivial, by simp [Filed, goTo],
      fun h => h.goTo fun hf => ?_, by simp [answer?, goTo]⟩
    simpa [AtRoot, hp] using h.first hf
  · next hc =>
    have hc : shared.cache.lookup key = none := Option.not_isSome_iff_eq_none.1 hc
    split
    · next hb => exact .begins hp hc hb
    · next build hb =>
      split
      · exact .quiet ⟨rfl, rfl, hi, rfl, hr, by simp [goTo], trivial, by simp [Filed, goTo],
          fun h => h.goTo fun _ => trivial, by simp [answer?, goTo]⟩
      · next hcyc => exact .waits hp hb (by simpa using hcyc)

lemma readStep_quiet {frame : Frame} {frames : List Frame} {scanner : Scanner} {tokens : List Token}
    {later : List Reading} (hp : t.phase = .read scanner tokens later)
    (hf : t.frames = frame :: frames) :
    Quiet shared t (t.readStep setting frame frames scanner tokens later) := by
  have hi : t.awaited? = none := by simp [awaited?, hp]
  have hr : ∀ answer, t.phase ≠ .release answer := by simp [hp]
  unfold readStep
  split
  · exact quiet_unwind hi hr _
  · split
    · split
      · exact quiet_unwind hi hr _
      · refine ⟨rfl, ?_, hi, rfl, hr, by simp, by simp [Shaped], by simp [Filed],
          fun h => h.cons hf (by rfl) (by rfl) _, by simp [answer?]⟩
        rw [claims_cons hf, claims_cons rfl]
        rfl
    · split
      · exact quiet_unwind hi hr _
      · split
        · exact quiet_unwind hi hr _
        · exact ⟨rfl, rfl, hi, rfl, hr, by simp, by simp [Shaped, hf], by simp [Filed],
            fun h => h.goTo (by simp [hf]), by simp [answer?]⟩

lemma mergeStep_quiet {frame : Frame} {frames : List Frame} (hp : t.phase = .merge)
    (hf : t.frames = frame :: frames) : Quiet shared t (t.mergeStep frame frames) := by
  have hi : t.awaited? = none := by simp [awaited?, hp]
  have hr : ∀ answer, t.phase ≠ .release answer := by simp [hp]
  -- in every case the innermost file keeps its path and its claim, and the phase is a plain one
  have main : ∀ (frame' : Frame) (phase : Phase), frame'.claimed = frame.claimed →
      frame'.path = frame.path → (phase = .merge ∨ (∃ error, phase = .unwind error) ∨
        ∃ path stack, phase = .ask path stack) →
      Quiet shared t { t with frames := frame' :: frames, phase } := by
    intro frame' phase hc hpath hphase
    have hclaims : ({ t with frames := frame' :: frames, phase } : Task).claims = t.claims := by
      rw [claims_cons hf, claims_cons rfl, hc, hpath]
      rfl
    refine ⟨rfl, hclaims, hi, ?_, hr, ?_, ?_, ?_, fun h => h.cons hf hc hpath _, ?_⟩
    all_goals
      rcases hphase with rfl | ⟨_, rfl⟩ | ⟨_, _, rfl⟩ <;> simp [awaited?, Shaped, Filed, answer?]
  unfold mergeStep
  split
  · exact ⟨rfl, rfl, hi, rfl, hr, by simp, by simp [Shaped, hf], by simp [Filed],
      fun h => h.goTo (by simp [hf]), by simp [answer?]⟩
  · next next pending _ =>
    simp only
    split
    · have := main { frame with pending } .merge rfl rfl (.inl rfl)
      rwa [← hp] at this
    · split
      · have := main { frame with pending, visited := Path.normalize next :: frame.visited } .merge
          rfl rfl (.inl rfl)
        rwa [← hp] at this
      · split
        · exact main _ _ rfl rfl (.inr (.inl ⟨_, rfl⟩))
        · exact main _ _ rfl rfl (.inr (.inr ⟨_, _, rfl⟩))

lemma publishStep_turn {frame : Frame} {frames : List Frame} (hp : t.phase = .publish)
    (hf : t.frames = frame :: frames) :
    Turn setting i shared t (t.publishStep shared frame).1 (t.publishStep shared frame).2 := by
  have hi : t.awaited? = none := by simp [awaited?, hp]
  have hr : ∀ answer, t.phase ≠ .release answer := by simp [hp]
  -- an answer that is filed as the claim of the file says
  have main : ∀ answer : Answer, answer.cachedAs = (if frame.claimed then some frame.path else none) →
      (∀ key, answer.cachedAs = some key → shared.cache.lookup key = some answer.shader) →
      Quiet shared t (t.goTo (.release answer)) := by
    intro answer hfile hanswer
    refine ⟨rfl, rfl, hi, rfl, hr, by simp, by simp [Shaped, hf], ?_, fun h => h.goTo (by simp [hf]),
      ?_⟩
    · rintro a g gs ha hg
      obtain rfl : answer = a := by simpa using ha
      obtain ⟨rfl, -⟩ : frame = g ∧ frames = gs := by simpa [hf] using hg
      exact hfile
    · intro a ha
      obtain rfl : answer = a := by simpa [answer?] using ha
      exact .inr hanswer
  unfold publishStep
  simp only
  split
  · next hcl =>
    split
    · next kept hkept =>
      refine .quiet (main _ (by simp [hcl]) fun key hkey => ?_)
      obtain rfl : frame.path = key := by simpa using hkey
      exact hkept
    · next hnone => exact .publishes hp hf hcl hnone
  · next hcl => exact .quiet (main _ (by simp [hcl]) (by simp))

lemma deliverStep_quiet {answer : Option Answer} (hp : t.phase = .deliver answer) :
    Quiet shared t (t.deliverStep answer) := by
  have hi : t.awaited? = none := by simp [awaited?, hp]
  have hr : ∀ answer, t.phase ≠ .release answer := by simp [hp]
  unfold deliverStep
  split
  · next hf =>
    cases answer with
    | none =>
      exact ⟨rfl, rfl, hi, rfl, hr, by simp, hf, by simp [Filed], fun h => h.goTo fun _ => trivial,
        by simp [answer?]⟩
    | some answer =>
      refine ⟨rfl, rfl, hi, rfl, hr, by simp, hf, by simp [Filed], fun h => h.goTo fun _ => ?_, ?_⟩
      · simpa [AtRoot, hp] using h.first hf
      · intro a ha
        exact .inl (by simpa [answer?, hp] using ha)
  · next frame frames hf =>
    refine ⟨rfl, ?_, hi, rfl, hr, by simp, by simp [Shaped], by simp [Filed],
      fun h => h.cons hf (by rfl) (by rfl) _, by simp [answer?]⟩
    rw [claims_cons hf, claims_cons rfl]
    rfl

/-- A step is a turn. -/
lemma Step.turn {shared' : Shared} {t' : Task} (h : Step setting i shared t shared' t') :
    Turn setting i shared t shared' t' := by
  cases h with
  | asks hp => exact askStep_turn hp
  | looks hp => exact .quiet (lookStep_quiet hp)
  | claims hp => exact claimStep_turn hp
  | wakes hp hb => exact .wakes hp (.inl rfl)
  | opens hp hf => exact .opens hp hf
  | misses hp => exact .quiet (quiet_unwind (by simp [awaited?, hp]) (by simp [hp]) _)
  | finds hp hf =>
    exact .quiet ⟨rfl, rfl, by simp [awaited?, hp], rfl, by simp [hp], by simp, by simp [Shaped, hf],
      by simp [Filed], fun h => h.goTo (by simp [hf]), by simp [answer?]⟩
  | reads hp hf => exact .quiet (readStep_quiet hp hf)
  | merges hp hf => exact .quiet (mergeStep_quiet hp hf)
  | publishes hp hf => exact publishStep_turn hp hf
  | releases hp hf => exact .releases hp hf
  | delivers hp => exact .quiet (deliverStep_quiet hp)
  | fails hp hf =>
    exact .quiet ⟨rfl, rfl, by simp [awaited?, hp], rfl, by simp [hp], by simp, hf, by simp [Filed],
      fun h => h.goTo fun _ => trivial, by simp [answer?]⟩
  | unwinds hp hf => exact .unwinds hp hf

lemma abort_turn {shared' : Shared} {t' : Task} (h : t.abort shared i = some (shared', t')) :
    Turn setting i shared t shared' t' := by
  unfold abort at h
  split at h
  · split at h
    · next hp =>
      cases h
      exact .wakes hp (.inr rfl)
    · next hp _ =>
      split at h
      · cases h
        exact .quiet (quiet_unwind (by simp [awaited?, hp]) (by simp [hp]) _)
      · cases h
    · next hp _ =>
      split at h
      · cases h
        exact .quiet (quiet_unwind (by simp [awaited?, hp]) (by simp [hp]) _)
      · cases h
    · cases h
  · cases h

/-- **There is nothing else that a task can do.** -/
theorem Acts.turn {shared' : Shared} {t' : Task} (h : Acts setting i shared t shared' t') :
    Turn setting i shared t shared' t' := by
  cases h with
  | step h => exact (step_iff.1 h).turn
  | abort h => exact abort_turn h
  | cancel => exact .marks
  | drop _ => exact .leaves

end

end Task

end Shading
