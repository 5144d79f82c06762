import Shading.Proofs.Session.SingleFlight
import Shading.Proofs.Session.Deadlock
import Shading.Proofs.Session.Solo

/-!
# What requests get

A request for a path is answered by the entry of the cache under the path's normal form, or under the
normal form of that.  The two are the same for most paths, and then all requests for a file get one
shader.  Where they differ, two requests for one path may get different shaders.

* `Task.Turn.rooted` — the outermost file of a task is the one it was asked for;
* `Session.rooted_after` — the request that began a task;
* `Session.exists_disagreement` — a run in which one path gets two shaders;
* `Session.flies_once` — one build at a time, openings, entries and answers.
-/

namespace Shading

namespace Task

variable {setting : Setting} {i : Nat} {shared shared' : Shared} {t t' : Task}

lemma result?_eq_some {result : Except Error Answer} :
    t.result? = some result ↔ t.phase = .done result := by
  unfold result?
  split
  · next hp => simp [hp]
  · next hp => simpa using hp result

lemma answer?_of_result? {answer : Answer} (h : t.result? = some (.ok answer)) :
    t.answer? = some answer := by
  simp [answer?, result?_eq_some.1 h]

lemma Turn.path (h : Turn setting i shared t shared' t') : t'.path = t.path := by
  cases h with
  | quiet hq => exact hq.path
  | _ => rfl

/-- A file put on top leaves the outermost one, or is the outermost one. -/
lemma Rooted.enter {path : String} {stack : IncludeStack} (h : t.Rooted)
    (hf : t.frames = [] → path = Path.normalize t.path) : (t.enter path stack true).Rooted := by
  refine ⟨by simp [Task.enter], fun frame hframe => ?_⟩
  cases hfr : t.frames with
  | nil =>
    obtain rfl : _ = frame := by simpa [Task.enter, hfr] using hframe
    exact ⟨rfl, hf hfr⟩
  | cons f fs => exact h.outer frame (by simpa [Task.enter, hfr] using hframe)

/-- A file taken from the top leaves the outermost one, or was the outermost one. -/
lemma Rooted.pop {frame : Frame} {frames : List Frame} {phase : Phase} (h : t.Rooted)
    (hf : t.frames = frame :: frames)
    (hroot : frames = [] → ({ t with frames, phase } : Task).AtRoot) :
    ({ t with frames, phase } : Task).Rooted := by
  refine ⟨hroot, fun g hg => h.outer g ?_⟩
  rw [hf, List.getLast?_cons, show frames.getLast? = some g from hg]
  rfl

/-- **The outermost file of a task is the one it was asked for.** -/
lemma Turn.rooted (h : t.Rooted) (hfiled : t.Filed) (hload : setting.resolver ≠ .load)
    (hturn : Turn setting i shared t shared' t') : t'.Rooted := by
  cases hturn with
  | quiet hq => exact hq.rooted h
  | marks => exact ⟨h.first, h.outer⟩
  | loads hr => exact absurd hr hload
  | begins hp => exact h.enter fun hf => by simpa [AtRoot, hp] using h.first hf
  | waits hp => exact h.goTo fun hf => by simpa [AtRoot, hp] using h.first hf
  | @wakes key _ _ _ hp hphase =>
    refine h.goTo fun hf => ?_
    have hkey : key = Path.normalize t.path := by simpa [AtRoot, hp] using h.first hf
    rcases hphase with rfl | rfl
    · exact hkey
    · trivial
  | opens _ hf => exact h.goTo (by simp [hf])
  | publishes _ hf => exact h.goTo (by simp [hf])
  | @releases answer frame frames hp hf =>
    refine h.pop hf ?_
    rintro rfl
    obtain ⟨hcl, hpath⟩ := h.outer frame (by simp [hf])
    have hfile := hfiled answer frame [] hp hf
    rw [if_pos hcl, hpath] at hfile
    exact .inl hfile
  | unwinds _ hf => exact h.pop hf fun _ => trivial
  | leaves => exact ⟨fun _ => trivial, by simp⟩

end Task

namespace Session

/-- **The request that began a task**: its path, and what the task is about. -/
theorem rooted_after {setting : Setting} (hload : setting.resolver ≠ .load) (es : List Event) (i : Nat)
    (t : Task) (ht : (({ setting } : Session).after es).tasks[i]? = some t) :
    ∃ e, (begun es)[i]? = some e ∧ e.path? = some t.path ∧
      ∀ path cancelled, e = .start path cancelled → t.Rooted := by
  obtain ⟨e, he, -, hpath, hroot⟩ := forall_task_after
    (P := fun e t => t.Filed ∧ e.path? = some t.path ∧
      ∀ path cancelled, e = .start path cancelled → t.Rooted) setting es
    (fun hr ⟨hfiled, hpath, hroot⟩ hacts => ⟨hacts.turn.filed hfiled, hacts.turn.path ▸ hpath,
      fun path cancelled he => hacts.turn.rooted (hroot path cancelled he) hfiled (hr ▸ hload)⟩)
    (fun i path cancelled => ⟨by simp [Task.Filed, Task.ofPath], rfl, fun _ _ _ =>
      ⟨fun _ => rfl, by simp [Task.ofPath]⟩⟩)
    (fun i path text cancelled => ⟨by simp [Task.Filed, Task.ofText], rfl, fun _ _ he => nomatch he⟩)
    i t ht
  exact ⟨e, he, hpath, hroot⟩

/-- The entry of the cache that answers a request. -/
theorem cachedAs_of_result {setting : Setting} (hload : setting.resolver ≠ .load) {es : List Event}
    {i : Nat} {path : String} {cancelled : Bool} {answer : Answer}
    (he : (begun es)[i]? = some (.start path cancelled))
    (hr : (({ setting } : Session).after es).result? i = some (.ok answer)) :
    answer.cachedAs = some (Path.normalize path) ∨
      answer.cachedAs = some (Path.normalize (Path.normalize path)) := by
  obtain ⟨t, ht, hdone⟩ := Option.bind_eq_some_iff.1 hr
  obtain ⟨e, he', hpath, hroot⟩ := rooted_after hload es i t ht
  obtain rfl : _ = e := Option.some.inj (he.symm.trans he')
  obtain rfl : path = t.path := Option.some.inj hpath
  have hphase := Task.result?_eq_some.1 hdone
  have hshape := shaped_after setting es i t ht
  have hframes : t.frames = [] := by simpa [Task.Shaped, hphase] using hshape
  simpa [Task.AtRoot, hphase] using (hroot _ _ rfl).first hframes

/-- Requests for a file, under whatever paths, that got a shader got the same one. -/
def Agree (s : Session) (es : List Event) (key : String) : Prop :=
  ∀ (i j : Nat) (p q : String) (c d : Bool) (a b : Answer), (begun es)[i]? = some (.start p c) →
    (begun es)[j]? = some (.start q d) → Path.normalize p = key → Path.normalize q = key →
    s.result? i = some (.ok a) → s.result? j = some (.ok b) → a.shader = b.shader

/-- Requests for a settled path agree: all are answered from one entry of the cache. -/
lemma agree_of_settled {setting : Setting} (hr : ∃ skip, setting.resolver = .cache skip) {key : String}
    (hkey : Path.normalize key = key) (es : List Event) :
    (({ setting } : Session).after es).Agree es key := by
  have hload : setting.resolver ≠ .load := by
    obtain ⟨skip, hskip⟩ := hr
    rw [hskip]
    exact nofun
  have entry : ∀ (i : Nat) (p : String) (c : Bool) (a : Answer),
      (begun es)[i]? = some (.start p c) → Path.normalize p = key →
      (({ setting } : Session).after es).result? i = some (.ok a) →
      (({ setting } : Session).after es).shared.cache.lookup key = some a.shader := by
    intro i p c a he hp ha
    have hcached : a.cachedAs = some key := by
      have := cachedAs_of_result hload he ha
      rwa [hp, hkey, or_self] at this
    obtain ⟨t, ht, hdone⟩ := Option.bind_eq_some_iff.1 ha
    exact ((flight_start hr).after es).answers i t a key ht (Task.answer?_of_result? hdone) hcached
  intro i j p q c d a b hi hj hp hq ha hb
  exact Option.some.inj ((entry i p c a hi hp ha).symm.trans (entry j q d b hj hq hb))

/-- **One path, two shaders.**  A request builds the file under the path's normal form while another
builds it under the normal form of that; a third request, for the same path as the first, is answered
by the second. -/
lemma exists_disagreement {path : String}
    (h : Path.normalize (Path.normalize path) ≠ Path.normalize path) :
    ∃ es, ¬ (({ setting := .blank } : Session).after es).Agree es (Path.normalize path) := by
  let steps (n i : Nat) : List Event := List.replicate n (.step i)
  let k := Path.normalize path
  let k' := Path.normalize k
  have hne : k' ≠ k := h
  -- what is shared when the first build has ended
  let shared₁ : Shared := {
    cache := [(k, .blank k)]
    table := (BuildTable.begin {} k ⟨0, 0⟩).finish k
    builds := 1
    opened := [k] }
  have hcache : shared₁.cache.lookup k' = none := by
    have hk : (k' == k) = false := by simpa using hne
    simp [shared₁, List.lookup_cons, hk]
  have hfree : shared₁.table.build? k' = none := by
    rw [BuildTable.build?_finish_of_ne _ hne, BuildTable.build?_begin_of_ne _ _ hne]
    rfl
  have hstart : ({ setting := .blank } : Session).IsAt .blank {} [] := ⟨rfl, rfl, rfl⟩
  -- both look into the empty cache before either claims its file
  have hmiss := (((hstart.start path).start k).steps (i := 0) (t := .ofPath 0 path false) rfl
    (Task.steps_miss rfl rfl)).steps (i := 1) (t := .ofPath 1 k false) rfl (Task.steps_miss rfl rfl)
  have hbuild := hmiss.steps (i := 0) (t := ⟨path, false, [], .claim k (.root 0 path)⟩) rfl
    (Task.steps_build rfl rfl)
  have hbuild' := hbuild.steps (i := 1) (t := ⟨k, false, [], .claim k' (.root 1 k)⟩) rfl
    (Task.steps_build hcache hfree)
  have hcache' : List.lookup k' [(k', Shader.blank k'), (k, .blank k)] = some (.blank k') :=
    List.lookup_cons_self
  have hhit := (hbuild'.start path).steps (i := 2) (t := .ofPath 2 path false) rfl
    (Task.steps_hit rfl hcache')
  refine ⟨[.start path false] ++ [.start k false] ++ steps 2 0 ++ steps 2 1 ++ steps 8 0 ++
    steps 8 1 ++ [.start path false] ++ steps 3 2, fun hagree => ?_⟩
  have heq := hagree 0 2 path path false false ⟨.blank k, some k⟩ ⟨.blank k', some k'⟩ rfl rfl rfl rfl
    (by simpa only [after_append] using hhit.result? rfl rfl)
    (by simpa only [after_append] using hhit.result? rfl rfl)
  exact hne (congrArg Shader.path heq).symm

/-- **One build at a time**: no file is claimed twice, by one task or by two. -/
lemma Balanced.nodup_claims {s : Session} (h : s.Balanced) : (s.tasks.flatMap Task.claims).Nodup := by
  refine List.nodup_flatMap.2 ⟨fun t ht => ?_, ?_⟩
  · obtain ⟨i, hi⟩ := List.mem_iff_getElem?.1 ht
    have hnodup := h.nodup i
    rwa [claims_eq hi] at hnodup
  · rw [List.pairwise_iff_getElem]
    intro i j hi hj hij key hkey hkey'
    have hmem : key ∈ s.claims i := claims_eq (List.getElem?_eq_getElem hi) ▸ hkey
    have hmem' : key ∈ s.claims j := claims_eq (List.getElem?_eq_getElem hj) ▸ hkey'
    have heq := h.unique hmem hmem'
    omega

/-- **Single flight and an immutable cache.**  In every state of every run over the cache: a file is
built by at most one task at a time; it is opened at most once more often than builds of it were lost;
once it is in the cache, its entry stays as it is and the file is not opened again; and a shader that
was kept under a file's key is the one that the cache has there.  So all requests for a path get one
shader, in every run over all sources, exactly if the path's normal form is its own. -/
theorem flies_once (path : String) :
    (∀ pipeline sources gates es key,
      let s₀ : Session := { setting := { pipeline, sources, gates } }
      let s := s₀.after es
      (s.tasks.flatMap Task.claims).count key ≤ 1 ∧
      s.shared.opened.count key ≤ 1 + s₀.lost key es ∧
      (∀ shader, s.shared.cache.lookup key = some shader → ∀ es',
        (s.after es').shared.cache.lookup key = some shader ∧
        (s.after es').shared.opened.count key = s.shared.opened.count key) ∧
      ∀ i answer, s.result? i = some (.ok answer) → answer.cachedAs = some key →
        s.shared.cache.lookup key = some answer.shader) ∧
    ((∀ pipeline sources gates es,
        (({ setting := { pipeline, sources, gates } } : Session).after es).Agree es
          (Path.normalize path)) ↔
      Path.normalize (Path.normalize path) = Path.normalize path) := by
  refine ⟨fun pipeline sources gates es key => ?_, fun h => ?_, fun h => ?_⟩
  · intro s₀ s
    have hr : ∃ skip, s₀.setting.resolver = .cache skip := ⟨[], rfl⟩
    have hs : s.Flight := (flight_start hr).after es
    refine ⟨List.nodup_iff_count_le_one.1 hs.balanced.nodup_claims key, opened_le hr key es,
      fun shader hkey es' => ⟨lookup_after hkey es', hs.opened_after hkey es'⟩, ?_⟩
    intro i answer hresult hkey
    obtain ⟨t, ht, hdone⟩ := Option.bind_eq_some_iff.1 hresult
    exact hs.answers i t answer key ht (Task.answer?_of_result? hdone) hkey
  · by_contra hne
    obtain ⟨es, hes⟩ := exists_disagreement hne
    exact hes (h [] _ [] es)
  · intro pipeline sources gates es
    exact agree_of_settled ⟨[], rfl⟩ h es

/-- The normal form of `/ a` begins with a blank, which its own normal form drops. -/
theorem not_agree_slash_blank :
    ¬ ∀ es, (({ setting := .blank } : Session).after es).Agree es (Path.normalize "/ a") := by
  have hne : Path.normalize (Path.normalize "/ a") ≠ Path.normalize "/ a" := by decide +kernel
  intro h
  obtain ⟨es, hes⟩ := exists_disagreement hne
  exact hes (h es)

end Session

end Shading
