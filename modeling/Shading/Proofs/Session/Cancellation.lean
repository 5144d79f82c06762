import Mathlib.Algebra.GroupWithZero.Nat
import Shading.Proofs.Session.Failure
import Shading.Proofs.Session.History

/-!
# Cancellation

A request may be told to stop at any time: before it begins, between two lines, while it asks for an
included file, while it waits, while a source is being opened.  From then on it does what it would have
done anyway, or it gives up.  So its result is the one of the undisturbed request or tells that it was
told to stop, and what it leaves in the cache the undisturbed request leaves there too.  And it does
come to its end, also where the undisturbed request would wait or go round for ever.

* `Task.untold` — the task as if it had not been told to stop;
* `Task.Goes` — what a task does, or is told;
* `Task.Trails` — a task goes along with the undisturbed one, or has given up behind it;
* `Task.effort` — what is left to do for a task that has been told to stop;
* `Session.ComesToEnd` — whatever a task does next, it comes to its end;
* `Session.cancelled_or_undisturbed` — cancellation is all or nothing.
-/

namespace Shading

open Relation

namespace Task

variable {setting : Setting} {i : Nat} {shared shared' : Shared} {t t' : Task} {st₀ st st' : Shared × Task}

/-! ### Beside the undisturbed task -/

/-- The task as if it had not been told to stop. -/
def untold (t : Task) : Task := { t with cancelled := false }

/-- The task gives up because it was told to. -/
def GivesUp (t : Task) : Prop := t.phase = .unwind .cancelled

lemma askStep_untold {path : String} {stack : IncludeStack} :
    t.untold.askStep setting path stack = (t.askStep setting path stack).untold ∨
      (t.askStep setting path stack).GivesUp := by
  obtain ⟨p, cancelled, frames, phase⟩ := t
  unfold askStep
  split
  · exact .inl rfl
  · cases cancelled with
    | false => exact .inl rfl
    | true => exact .inr rfl
  · split <;> exact .inl rfl

lemma lookStep_untold {key : String} {stack : IncludeStack} :
    t.untold.lookStep shared key stack = (t.lookStep shared key stack).untold ∨
      (t.lookStep shared key stack).GivesUp := by
  obtain ⟨p, cancelled, frames, phase⟩ := t
  unfold lookStep
  dsimp only
  split
  · exact .inl rfl
  · cases cancelled with
    | false => exact .inl rfl
    | true => exact .inr rfl

lemma claimStep_untold {key : String} {stack : IncludeStack} :
    t.untold.claimStep shared i key stack =
      ((t.claimStep shared i key stack).1, (t.claimStep shared i key stack).2.untold) := by
  unfold claimStep
  split
  · rfl
  · split
    · rfl
    · split <;> rfl

lemma readStep_untold {frame : Frame} {frames : List Frame} {scanner : Scanner} {tokens : List Token}
    {later : List Reading} :
    t.untold.readStep setting frame frames scanner tokens later =
        (t.readStep setting frame frames scanner tokens later).untold ∨
      (t.readStep setting frame frames scanner tokens later).GivesUp := by
  obtain ⟨p, cancelled, fs, phase⟩ := t
  unfold readStep
  cases cancelled with
  | true => exact .inr rfl
  | false =>
    refine .inl ?_
    dsimp only [untold]
    cases later with
    | nil => cases Program.ofTokens tokens <;> rfl
    | cons reading later =>
      dsimp only
      cases reading.line with
      | error fault => rfl
      | ok text =>
        dsimp only
        obtain ⟨scanner', result⟩ := scanner.line text
        cases result <;> rfl

lemma mergeStep_untold {frame : Frame} {frames : List Frame} :
    t.untold.mergeStep frame frames = (t.mergeStep frame frames).untold ∨
      (t.mergeStep frame frames).GivesUp := by
  obtain ⟨p, cancelled, fs, phase⟩ := t
  unfold mergeStep
  split
  · exact .inl rfl
  · dsimp only
    split
    · exact .inl rfl
    · split
      · exact .inl rfl
      · cases cancelled with
        | false => exact .inl rfl
        | true => exact .inr rfl

lemma publishStep_untold {frame : Frame} :
    t.untold.publishStep shared frame =
      ((t.publishStep shared frame).1, (t.publishStep shared frame).2.untold) := by
  unfold publishStep
  dsimp only
  split
  · split <;> rfl
  · rfl

lemma deliverStep_untold {answer : Option Answer} :
    t.untold.deliverStep answer = (t.deliverStep answer).untold := by
  obtain ⟨p, cancelled, frames, phase⟩ := t
  cases frames <;> rfl

/-- **A step of a task that was told to stop** is the step of the undisturbed task, or the task gives up
and changes nothing that is shared. -/
theorem step_untold (h : t.step setting shared i = some (shared', t')) :
    t.untold.step setting shared i = some (shared', t'.untold) ∨ t'.GivesUp ∧ shared' = shared := by
  have same {u u' : Task} (hstep : Step setting i shared t.untold shared u)
      (h : u = u'.untold ∨ u'.GivesUp) :
      t.untold.step setting shared i = some (shared, u'.untold) ∨ u'.GivesUp ∧ shared = shared := by
    rcases h with rfl | hgives
    · exact .inl (step_iff.2 hstep)
    · exact .inr ⟨hgives, rfl⟩
  cases step_iff.1 h with
  | asks hp => exact same (.asks hp) askStep_untold
  | looks hp => exact same (.looks hp) lookStep_untold
  | claims hp =>
    have hstep : Step setting i shared t.untold _ _ := .claims hp
    rw [claimStep_untold] at hstep
    exact .inl (step_iff.2 hstep)
  | wakes hp hb => exact .inl (step_iff.2 (.wakes (t := t.untold) hp hb))
  | opens hp hf => exact .inl (step_iff.2 (.opens (t := t.untold) hp hf))
  | misses hp hf hg hs => exact same (.misses hp hf hg hs) (.inl rfl)
  | finds hp hf hg hs => exact same (.finds hp hf hg hs) (.inl rfl)
  | reads hp hf => exact same (.reads hp hf) readStep_untold
  | merges hp hf => exact same (.merges hp hf) mergeStep_untold
  | publishes hp hf =>
    have hstep : Step setting i shared t.untold _ _ := .publishes hp hf
    rw [publishStep_untold] at hstep
    exact .inl (step_iff.2 hstep)
  | releases hp hf => exact .inl (step_iff.2 (.releases (t := t.untold) hp hf))
  | delivers hp => exact same (.delivers hp) (.inl deliverStep_untold)
  | fails hp hf => exact same (.fails hp hf) (.inl rfl)
  | unwinds hp hf => exact .inl (step_iff.2 (.unwinds (t := t.untold) hp hf))

/-- What a task does, or is told, one after another. -/
inductive Goes (setting : Setting) (i : Nat) : Shared × Task → Shared × Task → Prop
  | step {st st' : Shared × Task} (h : st.2.step setting st.1 i = some st') : Goes setting i st st'
  | abort {st st' : Shared × Task} (h : st.2.abort st.1 i = some st') : Goes setting i st st'
  | told {shared : Shared} {t : Task} :
    Goes setting i (shared, t) (shared, { t with cancelled := true })

/-- The task goes along with the undisturbed one, which began here, or it has given up behind it and
left the cache as it was. -/
inductive Trails (setting : Setting) (i : Nat) (st₀ : Shared × Task) : Shared × Task → Prop
  | along {n : Nat} {shared : Shared} {t : Task} (h : steps setting i n st₀ = some (shared, t.untold)) :
    Trails setting i st₀ (shared, t)
  | behind {n : Nat} {shared : Shared} {t : Task} {st : Shared × Task}
    (h : steps setting i n st₀ = some st) (hcache : shared.cache = st.1.cache)
    (hphase : t.GivesUp ∨ t.phase = .done (.error .cancelled)) : Trails setting i st₀ (shared, t)

/-- A task that has given up goes on giving up, and comes to its end so. -/
lemma givesUp_step (hphase : t.GivesUp ∨ t.phase = .done (.error .cancelled))
    (h : t.step setting shared i = some (shared', t')) :
    (t'.GivesUp ∨ t'.phase = .done (.error .cancelled)) ∧ shared'.cache = shared.cache := by
  obtain ⟨p, cancelled, frames, phase⟩ := t
  obtain rfl | rfl : phase = .unwind .cancelled ∨ phase = .done (.error .cancelled) := hphase
  · cases frames with
    | nil =>
      cases h
      exact ⟨.inr rfl, rfl⟩
    | cons f fs =>
      cases h
      exact ⟨.inl rfl, cache_withoutFrame shared f⟩
  · cases h

/-- **Whatever a task does or is told, it goes on trailing the undisturbed one.** -/
theorem Trails.goes (htrails : Trails setting i st₀ st) (h : Goes setting i st st') :
    Trails setting i st₀ st' := by
  cases htrails with
  | @along n shared t hsteps =>
    cases h with
    | @step _ st' h =>
      rcases step_untold h with hstep | ⟨hgives, hshared⟩
      · refine .along (n := n + 1) ?_
        rw [steps_add, hsteps, Option.bind_some, steps, hstep]
        rfl
      · exact .behind hsteps (congrArg Shared.cache hshared) (.inl hgives)
    | abort h =>
      obtain ⟨-, ht', hcache⟩ := abort_eq_some h
      exact .behind hsteps hcache (.inl (congrArg Task.phase ht'))
    | told => exact .along hsteps
  | @behind n shared t st hsteps hcache hphase =>
    cases h with
    | step h =>
      obtain ⟨hphase', hcache'⟩ := givesUp_step hphase h
      exact .behind hsteps (hcache'.trans hcache) hphase'
    | abort h =>
      obtain ⟨-, ht', hcache'⟩ := abort_eq_some h
      exact .behind hsteps (hcache'.trans hcache) (.inl (congrArg Task.phase ht'))
    | told => exact .behind hsteps hcache hphase

lemma Trails.run (h : ReflTransGen (Goes setting i) st₀ st) (hbegin : st₀.2.untold = st₀.2) :
    Trails setting i st₀ st := by
  induction h with
  | refl =>
    refine .along (n := 0) ?_
    rw [hbegin]
    rfl
  | tail _ hgoes ih => exact ih.goes hgoes

/-- The result is the one of the undisturbed task, or tells that it was told to stop. -/
lemma Trails.result {result : Except Error Answer} (h : Trails setting i st₀ st)
    (hresult : st.2.result? = some result) : result = .error .cancelled ∨
      ∃ n st', steps setting i n st₀ = some st' ∧ st'.2.result? = some result := by
  cases h with
  | along hsteps => exact .inr ⟨_, _, hsteps, hresult⟩
  | behind _ _ hphase =>
    have hdone := result?_eq_some.1 hresult
    rcases hphase with hphase | hphase
    · cases hdone.symm.trans hphase
    · cases hdone.symm.trans hphase
      exact .inl rfl

/-- The cache is as the undisturbed task has left it at some time. -/
lemma Trails.cache (h : Trails setting i st₀ st) :
    ∃ n st', steps setting i n st₀ = some st' ∧ st.1.cache = st'.1.cache := by
  cases h with
  | along hsteps => exact ⟨_, _, hsteps, rfl⟩
  | behind hsteps hcache _ => exact ⟨_, _, hsteps, hcache⟩

end Task

/-! ### To the end -/

/-- How much a task that has been told to stop has yet to do in a phase, at most: a claim may begin one
more file, and nothing else does. -/
def Phase.rank : Phase → Nat
  | .claim .. => 9
  | .ask .. | .wait .. => 5
  | .look .. | .openSource => 4
  | .deliver _ | .gate => 3
  | .merge | .read .. => 2
  | .publish | .unwind _ => 1
  | .release _ | .done _ | .dropped => 0

namespace Task

variable {setting : Setting} {i : Nat} {shared shared' : Shared} {t t' : Task} {st st' : Shared × Task}

/-- How much a task that has been told to stop has yet to do: in its phase, and for each file that is
being put together. -/
def effort (t : Task) : Nat := (t.frames.map fun f => f.pending.length + 4).sum + t.phase.rank

/-- The task has been told to stop and has less to do than before. -/
structure Eases (t t' : Task) : Prop where
  less : t'.effort < t.effort
  told : t'.cancelled = true

lemma eases_goTo {phase : Phase} (hc : t.cancelled = true) (h : phase.rank < t.phase.rank) :
    t.Eases (t.goTo phase) := by
  refine ⟨?_, hc⟩
  simp only [effort, frames_goTo, phase_goTo]
  omega

/-- The innermost file goes on. -/
lemma eases_cons {f f' : Frame} {fs : List Frame} {phase : Phase} (hc : t.cancelled = true)
    (hf : t.frames = f :: fs)
    (h : f'.pending.length + phase.rank < f.pending.length + t.phase.rank) :
    t.Eases { t with frames := f' :: fs, phase } := by
  refine ⟨?_, hc⟩
  simp only [effort, hf, List.map_cons, List.sum_cons]
  omega

/-- The innermost file is through. -/
lemma eases_pop {f : Frame} {fs : List Frame} {phase : Phase} (hc : t.cancelled = true)
    (hf : t.frames = f :: fs) (h : phase.rank < 4 + t.phase.rank) :
    t.Eases { t with frames := fs, phase } := by
  refine ⟨?_, hc⟩
  simp only [effort, hf, List.map_cons, List.sum_cons]
  omega

lemma eases_askStep {path : String} {stack : IncludeStack} (hc : t.cancelled = true)
    (hp : t.phase = .ask path stack) : t.Eases (t.askStep setting path stack) := by
  unfold askStep
  rw [if_pos hc]
  split
  · exact eases_goTo hc (by simp [hp, Phase.rank])
  · exact eases_goTo hc (by simp [hp, Phase.rank])
  · split <;> exact eases_goTo hc (by simp [hp, Phase.rank])

lemma eases_lookStep {key : String} {stack : IncludeStack} (hc : t.cancelled = true)
    (hp : t.phase = .look key stack) : t.Eases (t.lookStep shared key stack) := by
  unfold lookStep
  rw [if_pos hc]
  dsimp only
  split <;> exact eases_goTo hc (by simp [hp, Phase.rank])

lemma eases_claimStep {key : String} {stack : IncludeStack} (hc : t.cancelled = true)
    (hp : t.phase = .claim key stack) : t.Eases (t.claimStep shared i key stack).2 := by
  unfold claimStep
  split
  · exact eases_goTo hc (by simp [hp, Phase.rank])
  · split
    · refine ⟨?_, hc⟩
      simp only [effort, enter, hp, Phase.rank, List.map_cons, List.sum_cons, List.length_nil]
      omega
    · split <;> exact eases_goTo hc (by simp [hp, Phase.rank])

lemma eases_mergeStep {f : Frame} {fs : List Frame} (hc : t.cancelled = true) (hp : t.phase = .merge)
    (hf : t.frames = f :: fs) : t.Eases (t.mergeStep f fs) := by
  have hrank : t.phase.rank = 2 := by rw [hp]; rfl
  unfold mergeStep
  split
  · exact eases_goTo hc (by simp [hp, Phase.rank])
  · next next pending hpending =>
    have hshorter : f.pending.length = pending.length + 1 := by simp [hpending]
    dsimp only
    split
    · refine eases_cons hc hf ?_
      dsimp only
      omega
    · split
      · refine eases_cons hc hf ?_
        dsimp only
        omega
      · refine eases_cons hc hf ?_
        show pending.length + 1 < _
        omega

lemma eases_publishStep {f : Frame} (hc : t.cancelled = true) (hp : t.phase = .publish) :
    t.Eases (t.publishStep shared f).2 := by
  unfold publishStep
  dsimp only
  split
  · split <;> exact eases_goTo hc (by simp [hp, Phase.rank])
  · exact eases_goTo hc (by simp [hp, Phase.rank])

lemma eases_deliverStep {answer : Option Answer} (hc : t.cancelled = true)
    (hp : t.phase = .deliver answer) : t.Eases (t.deliverStep answer) := by
  unfold deliverStep
  split
  · exact eases_goTo hc (by simp [hp, Phase.rank])
  · next hf => exact eases_cons hc hf (by simp [hp, Phase.rank])

lemma eases_readStep {f : Frame} {fs : List Frame} {scanner : Scanner} {tokens : List Token}
    {later : List Reading} (hc : t.cancelled = true) (hp : t.phase = .read scanner tokens later) :
    t.Eases (t.readStep setting f fs scanner tokens later) := by
  unfold readStep
  rw [if_pos hc]
  exact eases_goTo hc (by simp [hp, Phase.rank])

/-- **A task that has been told to stop has less to do after each step.** -/
theorem eases_step (hc : t.cancelled = true) (h : t.step setting shared i = some (shared', t')) :
    t.Eases t' := by
  cases step_iff.1 h with
  | asks hp => exact eases_askStep hc hp
  | looks hp => exact eases_lookStep hc hp
  | claims hp => exact eases_claimStep hc hp
  | wakes hp | opens hp | misses hp | finds hp | fails hp => exact eases_goTo hc (by simp [hp, Phase.rank])
  | reads hp => exact eases_readStep hc hp
  | merges hp hf => exact eases_mergeStep hc hp hf
  | publishes hp => exact eases_publishStep hc hp
  | releases hp hf | unwinds hp hf => exact eases_pop hc hf (by simp [hp, Phase.rank])
  | delivers hp => exact eases_deliverStep hc hp

lemma eases_abort (h : t.abort shared i = some (shared', t')) : t.Eases t' := by
  obtain ⟨hc, rfl, -⟩ := abort_eq_some h
  refine eases_goTo hc ?_
  unfold abort at h
  rw [if_pos hc] at h
  split at h
  · next hp => simp [hp, Phase.rank]
  · next hp _ => simp [hp, Phase.rank]
  · next hp _ => simp [hp, Phase.rank]
  · cases h

/-! ### Never stuck -/

/-- The task was not dropped, and it has claimed the file that it opens. -/
def Attends (t : Task) : Prop :=
  match t.phase with
  | .openSource | .gate => ∀ f ∈ t.frames.head?, f.claimed = true
  | .dropped => False
  | _ => True

lemma attends_askStep {skip : List String} {path : String} {stack : IncludeStack}
    (hr : setting.resolver = .cache skip) : (t.askStep setting path stack).Attends := by
  unfold askStep
  rw [hr]
  dsimp only
  split <;> trivial

lemma attends_lookStep {key : String} {stack : IncludeStack} :
    (t.lookStep shared key stack).Attends := by
  unfold lookStep
  dsimp only
  split
  · trivial
  · split <;> trivial

/-- The file that is opened next has just been claimed. -/
lemma attends_claimStep {key : String} {stack : IncludeStack} :
    (t.claimStep shared i key stack).2.Attends := by
  unfold claimStep
  split
  · trivial
  · split
    · simp [Attends, enter]
    · split <;> trivial

lemma attends_readStep {f : Frame} {fs : List Frame} {scanner : Scanner} {tokens : List Token}
    {later : List Reading} : (t.readStep setting f fs scanner tokens later).Attends := by
  unfold readStep
  split
  · trivial
  · split
    · split <;> trivial
    · split
      · trivial
      · split <;> trivial

lemma attends_mergeStep {f : Frame} {fs : List Frame} (hp : t.phase = .merge) :
    (t.mergeStep f fs).Attends := by
  unfold mergeStep
  split
  · trivial
  · dsimp only
    split
    · simp [Attends, hp]
    · split
      · simp [Attends, hp]
      · split <;> trivial

lemma attends_publishStep {f : Frame} : (t.publishStep shared f).2.Attends := by
  unfold publishStep
  dsimp only
  split
  · split <;> trivial
  · trivial

lemma attends_deliverStep {answer : Option Answer} : (t.deliverStep answer).Attends := by
  unfold deliverStep
  split <;> trivial

/-- **A task that opens a file has claimed it**, as long as the cache answers for included files. -/
theorem Attends.step {skip : List String} (hr : setting.resolver = .cache skip) (ha : t.Attends)
    (h : t.step setting shared i = some (shared', t')) : t'.Attends := by
  cases step_iff.1 h with
  | asks => exact attends_askStep hr
  | looks => exact attends_lookStep
  | claims => exact attends_claimStep
  | wakes | misses | finds | releases | fails | unwinds => trivial
  | opens hp =>
    unfold Attends at ha
    rwa [hp] at ha
  | reads => exact attends_readStep
  | merges hp => exact attends_mergeStep hp
  | publishes => exact attends_publishStep
  | delivers => exact attends_deliverStep

/-- **A task that has been told to stop can always do something**, until it is at its end. -/
lemma canGo (hs : t.Shaped) (ha : t.Attends) (hc : t.cancelled = true) (hp : t.isPending = true) :
    (t.step setting shared i).isSome = true ∨ (t.abort shared i).isSome = true := by
  cases hb : t.isBlocked shared with
  | true =>
    obtain ⟨key, ticket, stack, -, hphase, -⟩ := isBlocked_iff.1 hb
    exact .inr (by simp [abort, hc, hphase])
  | false =>
    cases hg : t.isGated setting with
    | false => exact .inl (step_isSome hs hp hb hg)
    | true =>
      unfold isGated at hg
      split at hg
      · next f fs hphase hf =>
        have hclaimed : f.claimed = true := by simpa [Attends, hphase, hf] using ha
        exact .inr (by simp [abort, hc, hphase, hf, hclaimed])
      · cases hg

lemma isPending_or_result (ha : t.Attends) : t.isPending = true ∨ t.result?.isSome = true := by
  unfold isPending
  split
  · next hp => exact .inr (by simp [result?, hp])
  · next hp => simp [Attends, hp] at ha
  · exact .inl rfl

/-- What a task is throughout a request: it has its file at hand and has claimed what it opens. -/
structure Sound (t : Task) : Prop where
  shaped : t.Shaped
  attends : t.Attends

lemma Sound.goes {skip : List String} (hr : setting.resolver = .cache skip) (hs : st.2.Sound)
    (h : Goes setting i st st') : st'.2.Sound := by
  obtain ⟨hshaped, hattends⟩ := hs
  cases h with
  | step h => exact ⟨(step_iff.1 h).turn.shaped hshaped, hattends.step hr h⟩
  | abort h =>
    have hturn : Turn setting i st.1 st.2 st'.1 st'.2 := abort_turn h
    refine ⟨hturn.shaped hshaped, ?_⟩
    obtain ⟨-, ht', -⟩ := abort_eq_some h
    rw [ht']
    trivial
  | told => exact ⟨hshaped, hattends⟩

/-- A task that has been told to stop stays told. -/
lemma Goes.cancelled (h : Goes setting i st st') (hc : st.2.cancelled = true) :
    st'.2.cancelled = true := by
  cases h with
  | step h => exact (eases_step hc h).told
  | abort h => exact (eases_abort h).told
  | told => rfl

lemma cancelled_run (h : ReflTransGen (Goes setting i) st st') (hc : st.2.cancelled = true) :
    st'.2.cancelled = true := by
  induction h with
  | refl => exact hc
  | tail _ hgoes ih => exact hgoes.cancelled ih

lemma Sound.run {skip : List String} (hr : setting.resolver = .cache skip)
    (h : ReflTransGen (Goes setting i) st st') (hs : st.2.Sound) : st'.2.Sound := by
  induction h with
  | refl => exact hs
  | tail _ hgoes ih => exact ih.goes hr hgoes

end Task

/-! ### Requests -/

/-- The event is an act of task number `i`, or tells it to stop. -/
def Event.IsActOf (e : Event) (i : Nat) : Prop := e = .step i ∨ e = .abort i ∨ e = .cancel i

namespace Session

variable {s : Session} {i : Nat} {t : Task} {path : String}

/-- Whatever task number `i` does next, it can go on until it comes to its end, and it does. -/
inductive ComesToEnd (i : Nat) : Session → Prop
  | ended {s : Session} (h : (s.result? i).isSome = true) : ComesToEnd i s
  | goesOn {s : Session}
    (hcan : (s.happen? (.step i)).isSome = true ∨ (s.happen? (.abort i)).isSome = true)
    (hstep : ∀ s', s.happen? (.step i) = some s' → ComesToEnd i s')
    (habort : ∀ s', s.happen? (.abort i) = some s' → ComesToEnd i s') : ComesToEnd i s

lemma happen?_step (ht : s.tasks[i]? = some t) :
    s.happen? (.step i) = (t.step s.setting s.shared i).map fun p => s.put i p.1 p.2 := by
  cases h : t.step s.setting s.shared i <;> simp [happen?, ht, h]

lemma happen?_abort (ht : s.tasks[i]? = some t) :
    s.happen? (.abort i) = (t.abort s.shared i).map fun p => s.put i p.1 p.2 := by
  cases h : t.abort s.shared i <;> simp [happen?, ht, h]

/-- **A task that has been told to stop comes to its end.** -/
theorem comesToEnd {skip : List String} (hr : s.setting.resolver = .cache skip)
    (ht : s.tasks[i]? = some t) (hs : t.Sound) (hc : t.cancelled = true) : s.ComesToEnd i := by
  -- by what is left to do, which every step and every stop makes less
  induction hn : t.effort using Nat.strong_induction_on generalizing s t with
  | _ n ih =>
    have goesOn : ∀ {st}, Task.Goes s.setting i (s.shared, t) st → t.Eases st.2 →
        (s.put i st.1 st.2).ComesToEnd i := by
      intro st hgoes heases
      have ht' : (s.put i st.1 st.2).tasks[i]? = some st.2 := getElem?_set_self ht rfl
      exact ih _ (hn ▸ heases.less) hr ht' (hs.goes hr hgoes) heases.told rfl
    rcases Task.isPending_or_result hs.attends with hp | hresult
    · refine .goesOn ?_ (fun s' h => ?_) (fun s' h => ?_)
      · rw [happen?_step ht, happen?_abort ht, Option.isSome_map, Option.isSome_map]
        exact Task.canGo hs.shaped hs.attends hc hp
      · rw [happen?_step ht] at h
        obtain ⟨st, hstep, rfl⟩ := Option.map_eq_some_iff.1 h
        exact goesOn (.step hstep) (Task.eases_step hc hstep)
      · rw [happen?_abort ht] at h
        obtain ⟨st, habort, rfl⟩ := Option.map_eq_some_iff.1 h
        exact goesOn (.abort habort) (Task.eases_abort habort)
    · refine .ended ?_
      rw [result?, ht]
      exact hresult

/-- **What an act of a task leads to**: the task goes on, or everything stays as it is. -/
lemma happen_goes {e : Event} (he : e.IsActOf i) (ht : s.tasks[i]? = some t) :
    ∃ st, ReflTransGen (Task.Goes s.setting i) (s.shared, t) st ∧
      (s.happen e).IsAt s.setting st.1 (s.tasks.set i st.2) := by
  have hself : s.tasks = s.tasks.set i t := by
    obtain ⟨hi, rfl⟩ := List.getElem?_eq_some_iff.1 ht
    exact (List.set_getElem_self hi).symm
  have hstill : s.IsAt s.setting (s.shared, t).1 (s.tasks.set i (s.shared, t).2) := ⟨rfl, rfl, hself⟩
  unfold happen
  rcases he with rfl | rfl | rfl
  · rw [happen?_step ht]
    cases h : t.step s.setting s.shared i with
    | none => exact ⟨_, .refl, hstill⟩
    | some st => exact ⟨st, .single (.step h), rfl, rfl, rfl⟩
  · rw [happen?_abort ht]
    cases h : t.abort s.shared i with
    | none => exact ⟨_, .refl, hstill⟩
    | some st => exact ⟨st, .single (.abort h), rfl, rfl, rfl⟩
  · refine ⟨_, .single .told, ?_⟩
    simp only [happen?, ht]
    exact ⟨rfl, rfl, rfl⟩

/-- **What acts of a task lead to**: it goes on, and the other tasks stay where they are. -/
lemma after_goes {acts : List Event} (hacts : ∀ e ∈ acts, e.IsActOf i) (ht : s.tasks[i]? = some t) :
    ∃ st, ReflTransGen (Task.Goes s.setting i) (s.shared, t) st ∧
      (s.after acts).IsAt s.setting st.1 (s.tasks.set i st.2) := by
  induction acts generalizing s t with
  | nil =>
    refine ⟨_, .refl, rfl, rfl, ?_⟩
    obtain ⟨hi, rfl⟩ := List.getElem?_eq_some_iff.1 ht
    exact (List.set_getElem_self hi).symm
  | cons e acts ih =>
    obtain ⟨he, hacts⟩ := List.forall_mem_cons.1 hacts
    obtain ⟨st, hfirst, hat⟩ := happen_goes he ht
    have ht' : (s.happen e).tasks[i]? = some st.2 := getElem?_set_self ht hat.tasks
    obtain ⟨st', hlater, hat'⟩ := ih hacts ht'
    rw [hat.setting, hat.shared] at hlater
    refine ⟨st', hfirst.trans hlater, hat'.setting.trans hat.setting, hat'.shared, ?_⟩
    rw [after_cons, hat'.tasks, hat.tasks, List.set_set]

/-- A task that was told to stop is told at the end of its acts. -/
lemma cancelled_after {acts : List Event} (hacts : ∀ e ∈ acts, e.IsActOf i)
    (hmem : .cancel i ∈ acts) (ht : s.tasks[i]? = some t) :
    ∃ t', (s.after acts).tasks[i]? = some t' ∧ t'.cancelled = true := by
  obtain ⟨before, later, rfl⟩ := List.append_of_mem hmem
  obtain ⟨hbefore, hlater⟩ := List.forall_mem_append.1 hacts
  obtain ⟨st, -, hat⟩ := after_goes hbefore ht
  have ht₁ : (s.after before).tasks[i]? = some st.2 := getElem?_set_self ht hat.tasks
  have ht₂ : ((s.after before).happen (.cancel i)).tasks[i]? = some { st.2 with cancelled := true } := by
    simp only [happen, happen?, ht₁]
    exact getElem?_set_self ht₁ rfl
  obtain ⟨st', hgoes, hat'⟩ := after_goes (List.forall_mem_cons.1 hlater).2 ht₂
  rw [after_append, after_cons]
  refine ⟨st'.2, getElem?_set_self ht₂ hat'.tasks, ?_⟩
  exact Task.cancelled_run hgoes rfl

/-- **Cancellation is all or nothing.**  Take any sources, any state that requests have led to, and a
request for a path.  It may be told to stop at any moment, before it begins or between any two of its
steps.

* If it comes to its end, its result tells that it was told to stop, or is what the undisturbed request
  comes to its end with.
* Every entry of the cache is one that the undisturbed request leaves there, too.
* If it was told to stop, it does come to its end. -/
theorem cancelled_or_undisturbed (pipeline : Pipeline) (sources : String → Except Error (List Reading))
    (gates : List String) (es : List Event) (path : String) (acts : List Event) :
    let s := ({ setting := { pipeline, sources, gates } } : Session).after es
    let i := s.tasks.length
    let told := s.after (.start path false :: acts)
    (∀ e ∈ acts, e.IsActOf i) →
    (∀ result, told.result? i = some result → result = .error .cancelled ∨
      ∃ n, (s.after (request path i n)).result? i = some result) ∧
    (∀ key shader, told.shared.cache.lookup key = some shader →
      ∃ n, ∀ m, n ≤ m → (s.after (request path i m)).shared.cache.lookup key = some shader) ∧
    (.cancel i ∈ acts → told.ComesToEnd i) := by
  intro s i told hacts
  let s₁ := s.after [.start path false]
  have hbegin : s₁.IsAt s.setting s.shared (s.tasks ++ [Task.ofPath i path false]) :=
    IsAt.start ⟨rfl, rfl, rfl⟩ path
  have hnew : (s.tasks ++ [Task.ofPath i path false])[i]? = some (Task.ofPath i path false) :=
    List.getElem?_concat_length
  have ht : s₁.tasks[i]? = some (Task.ofPath i path false) := by rw [hbegin.tasks, hnew]
  obtain ⟨st, hgoes, hat⟩ := after_goes hacts ht
  rw [hbegin.setting, hbegin.shared] at hgoes
  have htrails := Task.Trails.run hgoes rfl
  have ht' : told.tasks[i]? = some st.2 := getElem?_set_self ht hat.tasks
  -- the undisturbed request, after some of its steps
  have undisturbed : ∀ {n st'}, Task.steps s.setting i n (s.shared, Task.ofPath i path false) = some st' →
      (s.after (request path i n)).IsAt s.setting st'.1
        ((s.tasks ++ [Task.ofPath i path false]).set i st'.2) :=
    fun hsteps => hbegin.steps hnew hsteps
  refine ⟨fun result hresult => ?_, fun key shader hkey => ?_, fun hcancel => ?_⟩
  · have hresult : st.2.result? = some result := by simpa [Session.result?, ht'] using hresult
    refine (htrails.result hresult).imp_right ?_
    rintro ⟨n, st', hsteps, hresult'⟩
    refine ⟨n, (undisturbed hsteps).result? ?_ hresult'⟩
    exact List.getElem?_set_self (List.getElem?_eq_some_iff.1 hnew).1
  · obtain ⟨n, st', hsteps, hcache⟩ := htrails.cache
    have hkey' : (s.after (request path i n)).shared.cache.lookup key = some shader := by
      rw [(undisturbed hsteps).shared, ← hcache, ← hat.shared]
      exact hkey
    refine ⟨n, fun m hm => ?_⟩
    obtain ⟨k, rfl⟩ := Nat.exists_eq_add_of_le hm
    rw [request_add, after_append]
    exact lookup_after hkey' _
  · obtain ⟨t', ht'', hc⟩ := cancelled_after hacts hcancel ht
    obtain rfl : t' = st.2 := Option.some.inj (ht''.symm.trans ht')
    have hr : s.setting.resolver = .cache [] :=
      after_induction (P := fun s => s.setting.resolver = .cache []) es rfl
        fun _ _ _ _ hr hc => hc.resolver.trans hr
    have hs : st.2.Sound := Task.Sound.run hr hgoes ⟨trivial, trivial⟩
    exact comesToEnd (hat.setting.symm ▸ hbegin.setting.symm ▸ hr) ht' hs hc

/-- A request for `a` that has completed `b` and is told to stop while it opens `c`, which is missing. -/
theorem cancelled_or_undisturbed_gap :
    let s : Session := { setting := .gap }
    let acts : List Event := .replicate 25 (.step 0) ++ [.cancel 0, .abort 0] ++ .replicate 3 (.step 0)
    let told := s.after (.start "a" false :: acts)
    (∀ e ∈ acts, e.IsActOf 0) ∧ told.ComesToEnd 0 ∧
    (∃ result, told.result? 0 = some result ∧
      (result = .error .cancelled ∨ ∃ n, (s.after (request "a" 0 n)).result? 0 = some result)) ∧
    ∃ shader, told.shared.cache.lookup "b" = some shader ∧
      ∃ n, ∀ m, n ≤ m → (s.after (request "a" 0 m)).shared.cache.lookup "b" = some shader := by
  intro s acts told
  have hacts : ∀ e ∈ acts, e.IsActOf 0 := by
    simp [acts, Event.IsActOf, or_imp, forall_and]
  have hcancel : Event.cancel 0 ∈ acts := by simp [acts]
  have hresult : (told.result? 0).isSome = true := by decide +kernel
  have hb : (told.shared.cache.lookup "b").isSome = true := by decide +kernel
  obtain ⟨hresults, hentries, hends⟩ :=
    cancelled_or_undisturbed [] Setting.gap.sources [] [] "a" acts hacts
  have htold : (({ setting := { sources := Setting.gap.sources } } : Session).after []).after
      (.start "a" false :: acts) = told := rfl
  -- from here on nothing of the run is looked at any more
  rw [htold] at hresults hentries hends
  clear_value told
  obtain ⟨result, hresult⟩ := Option.isSome_iff_exists.1 hresult
  obtain ⟨shader, hb⟩ := Option.isSome_iff_exists.1 hb
  exact ⟨hacts, hends hcancel, ⟨result, hresult, hresults result hresult⟩, shader, hb,
    hentries "b" shader hb⟩

end Session

end Shading
