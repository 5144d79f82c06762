import Shading.Proofs.Session.Run

/-!
# The programs of a session

A program comes into a session only when a file or a text is read, and from then on it is only merged
with others.  So what the rules, the pipeline and merging keep is true of every program that a file
under way, the cache or an answer holds.

* `Task.Holds`, `Session.Holds` — every program has a property;
* `Task.Reads` — the program that a task reads has it;
* `Task.Holds.step` — a step keeps it;
* `Session.holds_after` — it holds throughout every run.
-/

namespace Shading

/-- A property that an empty program, a program as the pipeline leaves it and a merged program have. -/
structure Program.Inherited (pipeline : Pipeline) (Q : Program → Prop) : Prop where
  empty : Q {}
  read : ∀ tokens p, Program.ofTokens tokens = .ok p → Q (pipeline.apply p)
  merge : ∀ p q, Q p → Q q → Q (p.merge q)

/-- Every program in the cache has `Q`. -/
def Shared.Holds (Q : Program → Prop) (shared : Shared) : Prop :=
  ∀ key shader, shared.cache.lookup key = some shader → Q shader.program

lemma Shared.Holds.of_cache {Q : Program → Prop} {shared shared' : Shared} (hs : shared.Holds Q)
    (h : shared'.cache = shared.cache) : shared'.Holds Q := by
  unfold Shared.Holds
  rwa [h]

namespace Task

variable {Q : Program → Prop} {setting : Setting} {shared shared' : Shared} {t t' : Task} {i : Nat}

/-- Every program that a task works on or answers with has `Q`. -/
structure Holds (Q : Program → Prop) (t : Task) : Prop where
  frames : ∀ f ∈ t.frames, Q f.program
  answer : ∀ answer, t.answer? = some answer → Q answer.shader.program

/-- The program of the tokens that a task has read has `Q`, as the pipeline leaves it. -/
def Reads (Q : Program → Prop) (setting : Setting) (t : Task) : Prop :=
  ∀ scanner tokens later p, t.phase = .read scanner tokens later → Program.ofTokens tokens = .ok p →
    Q (setting.pipeline.apply p)

lemma reads_of_inherited (hq : Program.Inherited setting.pipeline Q) : t.Reads Q setting :=
  fun _ tokens _ p _ => hq.read tokens p

lemma Holds.goTo {phase : Phase} (h : t.Holds Q)
    (ha : ∀ answer, (t.goTo phase).answer? = some answer → Q answer.shader.program) :
    (t.goTo phase).Holds Q := ⟨h.frames, ha⟩

/-- A task that goes on without an answer still holds what it held. -/
lemma Holds.goTo_unanswered {phase : Phase} (h : t.Holds Q) (ha : (t.goTo phase).answer? = none) :
    (t.goTo phase).Holds Q := by
  refine h.goTo fun answer hanswer => ?_
  rw [ha] at hanswer
  cases hanswer

/-- What is on top changes, and the files further out stay. -/
lemma Holds.replace {frame frame' : Frame} {frames : List Frame} {phase : Phase} (h : t.Holds Q)
    (hf : t.frames = frame :: frames) (hq : Q frame'.program)
    (ha : ({ t with frames := frame' :: frames, phase } : Task).answer? = none) :
    ({ t with frames := frame' :: frames, phase } : Task).Holds Q := by
  refine ⟨?_, fun answer hanswer => ?_⟩
  · have hframes := h.frames
    rw [hf] at hframes
    exact List.forall_mem_cons.2 ⟨hq, (List.forall_mem_cons.1 hframes).2⟩
  · rw [ha] at hanswer
    cases hanswer

lemma Holds.top {frame : Frame} {frames : List Frame} (h : t.Holds Q)
    (hf : t.frames = frame :: frames) : Q frame.program := h.frames frame (by simp [hf])

lemma Holds.askStep (h0 : Q {}) (h : t.Holds Q) (path : String) (stack : IncludeStack) :
    (t.askStep setting path stack).Holds Q := by
  unfold Task.askStep
  split
  · exact h.goTo_unanswered rfl
  · split
    · exact h.goTo_unanswered rfl
    · exact ⟨List.forall_mem_cons.2 ⟨h0, h.frames⟩, by simp [answer?, enter]⟩
  · split <;> exact h.goTo_unanswered rfl

lemma Holds.lookStep (hs : shared.Holds Q) (h : t.Holds Q) (key : String) (stack : IncludeStack) :
    (t.lookStep shared key stack).Holds Q := by
  unfold Task.lookStep
  simp only
  split
  · next shader hshader =>
    refine h.goTo fun answer hanswer => ?_
    obtain rfl : _ = answer := by simpa [answer?] using hanswer
    exact hs _ shader hshader
  · split <;> exact h.goTo_unanswered rfl

lemma Holds.claimStep (h0 : Q {}) (h : t.Holds Q) (key : String) (stack : IncludeStack) :
    (t.claimStep shared i key stack).2.Holds Q := by
  unfold Task.claimStep
  split
  · exact h.goTo_unanswered rfl
  · split
    · exact ⟨List.forall_mem_cons.2 ⟨h0, h.frames⟩, by simp [answer?, enter]⟩
    · split <;> exact h.goTo_unanswered rfl

lemma Holds.readStep (hreads : t.Reads Q setting) (h : t.Holds Q) {frame : Frame} {frames : List Frame}
    (hf : t.frames = frame :: frames) {scanner : Scanner} {tokens : List Token} {later : List Reading}
    (hp : t.phase = .read scanner tokens later) :
    (t.readStep setting frame frames scanner tokens later).Holds Q := by
  unfold Task.readStep
  split
  · exact h.goTo_unanswered rfl
  · split
    · split
      · exact h.goTo_unanswered rfl
      · next program hprogram => exact h.replace hf (hreads _ _ _ program hp hprogram) rfl
    · split
      · exact h.goTo_unanswered rfl
      · split <;> exact h.goTo_unanswered rfl

lemma Holds.mergeStep (h : t.Holds Q) (hp : t.phase = .merge) {frame : Frame} {frames : List Frame}
    (hf : t.frames = frame :: frames) : (t.mergeStep frame frames).Holds Q := by
  have hq := h.top hf
  unfold Task.mergeStep
  split
  · exact h.goTo_unanswered rfl
  · next next pending _ =>
    simp only
    split
    · exact h.replace hf hq (by simp [answer?, hp])
    · split
      · exact h.replace hf hq (by simp [answer?, hp])
      · split <;> exact h.replace hf hq rfl

lemma Holds.publishStep (hs : shared.Holds Q) (h : t.Holds Q) {frame : Frame} (hq : Q frame.program) :
    (t.publishStep shared frame).2.Holds Q ∧ (t.publishStep shared frame).1.Holds Q := by
  have hanswer : ∀ answer : Answer, Q answer.shader.program → (t.goTo (.release answer)).Holds Q := by
    intro answer ha
    refine h.goTo fun a hanswer => ?_
    obtain rfl : answer = a := by simpa [answer?] using hanswer
    exact ha
  unfold Task.publishStep
  simp only
  split
  · split
    · next kept hkept => exact ⟨hanswer _ (hs _ kept hkept), hs⟩
    · refine ⟨hanswer _ hq, fun key shader hkey => ?_⟩
      rw [List.lookup_cons] at hkey
      split at hkey
      · obtain rfl : _ = shader := by simpa using hkey
        exact hq
      · exact hs key shader hkey
  · exact ⟨hanswer _ hq, hs⟩

lemma Holds.deliverStep (hmerge : ∀ p q, Q p → Q q → Q (p.merge q)) (h : t.Holds Q)
    {answer : Option Answer} (hp : t.phase = .deliver answer) : (t.deliverStep answer).Holds Q := by
  have hanswer : ∀ a, answer = some a → Q a.shader.program := by
    intro a ha
    exact h.answer a (by simp [answer?, hp, ha])
  unfold Task.deliverStep
  split
  · refine h.goTo fun a ha => ?_
    cases answer with
    | none => simp [answer?] at ha
    | some b =>
      obtain rfl : b = a := by simpa [answer?] using ha
      exact hanswer b rfl
  · next frame frames hf =>
    refine h.replace hf ?_ rfl
    cases answer with
    | none => exact h.top hf
    | some a => exact hmerge _ _ (h.top hf) (hanswer a rfl)

/-- The innermost file is given up or finished. -/
lemma Holds.pop {frame : Frame} {frames : List Frame} {phase : Phase} (h : t.Holds Q)
    (hf : t.frames = frame :: frames) (ha : ∀ answer,
      ({ t with frames, phase } : Task).answer? = some answer → t.answer? = some answer) :
    ({ t with frames, phase } : Task).Holds Q := by
  have hframes := h.frames
  rw [hf] at hframes
  exact ⟨(List.forall_mem_cons.1 hframes).2, fun answer hanswer => h.answer answer (ha answer hanswer)⟩

/-- **A step keeps what merging keeps**, in the task and in the cache, if what is read has it. -/
theorem Holds.step (h0 : Q {}) (hmerge : ∀ p q, Q p → Q q → Q (p.merge q)) (hreads : t.Reads Q setting)
    (hs : shared.Holds Q) (h : t.Holds Q) (hstep : t.step setting shared i = some (shared', t')) :
    t'.Holds Q ∧ shared'.Holds Q := by
  cases step_iff.1 hstep with
  | asks => exact ⟨h.askStep h0 _ _, hs⟩
  | looks => exact ⟨h.lookStep hs _ _, hs⟩
  | claims => exact ⟨h.claimStep h0 _ _, hs.of_cache (t.cache_claimStep shared i _ _)⟩
  | wakes | opens | misses | finds | fails => exact ⟨h.goTo_unanswered rfl, hs⟩
  | reads hp hf => exact ⟨h.readStep hreads hf hp, hs⟩
  | merges hp hf => exact ⟨h.mergeStep hp hf, hs⟩
  | publishes _ hf => exact h.publishStep hs (h.top hf)
  | releases hp hf =>
    exact ⟨h.pop hf (by simp [answer?, hp]), hs.of_cache (cache_withoutFrame shared _)⟩
  | delivers hp => exact ⟨h.deliverStep hmerge hp, hs⟩
  | unwinds _ hf => exact ⟨h.pop hf (by simp [answer?]), hs.of_cache (cache_withoutFrame shared _)⟩

lemma Holds.abort (hs : shared.Holds Q) (h : t.Holds Q) (ha : t.abort shared i = some (shared', t')) :
    t'.Holds Q ∧ shared'.Holds Q := by
  obtain ⟨-, rfl, hcache⟩ := abort_eq_some ha
  exact ⟨h.goTo_unanswered rfl, hs.of_cache hcache⟩

/-- **Every act keeps what merging keeps.** -/
theorem Holds.acts (h0 : Q {}) (hmerge : ∀ p q, Q p → Q q → Q (p.merge q)) (hreads : t.Reads Q setting)
    (hs : shared.Holds Q) (h : t.Holds Q) (hacts : Acts setting i shared t shared' t') :
    t'.Holds Q ∧ shared'.Holds Q := by
  cases hacts with
  | step hstep => exact h.step h0 hmerge hreads hs hstep
  | abort ha => exact h.abort hs ha
  | cancel => exact ⟨⟨h.frames, h.answer⟩, hs⟩
  | drop _ => exact ⟨⟨by simp, by simp [answer?]⟩, hs⟩

end Task

namespace Session

variable {Q : Program → Prop} {s s' : Session}

/-- Every program of the session has `Q`, which its pipeline keeps. -/
structure Holds (Q : Program → Prop) (s : Session) : Prop where
  inherited : Program.Inherited s.setting.pipeline Q
  shared : s.shared.Holds Q
  tasks : ∀ (i : Nat) (t : Task), s.tasks[i]? = some t → t.Holds Q

lemma Holds.change {e : Event} (h : s.Holds Q) (hc : s.Change e s') : s'.Holds Q := by
  have join : ∀ t : Task, t.Holds Q → ({ s with tasks := s.tasks ++ [t] } : Session).Holds Q := by
    intro t ht
    refine ⟨h.inherited, h.shared, fun j u hu => ?_⟩
    rcases getElem?_append_cases hu with ⟨-, rfl⟩ | hu
    · exact ht
    · exact h.tasks j u hu
  cases hc with
  | @acts _ i t t' shared' _ _ ht hacts hset hshared htasks =>
    obtain ⟨ht', hs'⟩ := (h.tasks i t ht).acts h.inherited.empty h.inherited.merge
      (Task.reads_of_inherited h.inherited) h.shared hacts
    refine ⟨by rw [hset]; exact h.inherited, by rw [hshared]; exact hs', fun j u hu => ?_⟩
    rcases getElem?_set_cases ht htasks hu with ⟨-, rfl⟩ | ⟨-, hu⟩
    · exact ht'
    · exact h.tasks j u hu
  | still => exact h
  | start => exact join _ ⟨by simp [Task.ofPath], by simp [Task.ofPath, Task.answer?]⟩
  | startText =>
    refine join _ ⟨?_, by simp [Task.ofText, Task.answer?]⟩
    simpa [Task.ofText] using h.inherited.empty
  | release | replace => exact ⟨h.inherited, h.shared, h.tasks⟩

/-- **Every program of every run has what is inherited.** -/
theorem holds_after {setting : Setting} (hq : Program.Inherited setting.pipeline Q) (es : List Event) :
    (({ setting } : Session).after es).Holds Q := by
  have hstart : ({ setting } : Session).Holds Q := ⟨hq, by simp [Shared.Holds], by simp⟩
  exact after_induction es hstart fun _ _ _ _ h hc => h.change hc

end Session

end Shading
