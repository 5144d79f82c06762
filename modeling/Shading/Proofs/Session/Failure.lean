import Shading.Proofs.Session.Deadlock
import Shading.Proofs.Session.SingleFlight

/-!
# Failures leave no trace

A request may end in an error far inside the files that it has claimed, while other compilations claim,
wait and wake.  What it had claimed is then given up, nothing of it comes into the cache, and nothing
else is touched: the guard of a build takes away the entry of a path, and the guard of a wait the entry
of a chain, and both are always the task's own.

* `Session.Completes` — a build has come to its end;
* `Session.lookup_after_iff` — the cache holds what completed builds gave, and nothing else;
* `Session.Spares`, `Balanced.spares` — what the acts of a task leave to the others;
* `Session.fails_clean` — what a request that fails leaves behind.
-/

namespace Shading

/-! ### Entries of the build table -/

namespace BuildTable

variable {table : BuildTable} {key : String} {b : Build} {i j : Nat}

/-- When every file stands at most once among the builds, looking one up finds every entry. -/
lemma build?_eq_some_iff (hkeys : (table.building.map (·.1)).Nodup) :
    table.build? key = some b ↔ (key, b) ∈ table.building := by
  have main : ∀ m : List (String × Build), (m.map (·.1)).Nodup →
      (m.lookup key = some b ↔ (key, b) ∈ m) := by
    intro m
    induction m with
    | nil => simp
    | cons e m ih =>
      obtain ⟨k, b'⟩ := e
      intro hm
      obtain ⟨hk, hrest⟩ := List.nodup_cons.1 hm
      by_cases hkey : key = k
      · subst hkey
        have hnot : (key, b) ∉ m := fun hmem => hk (List.mem_map.2 ⟨_, hmem, rfl⟩)
        simp [hnot, eq_comm]
      · have hne : (key == k) = false := by simpa using hkey
        simp [List.lookup_cons, hne, hkey, ih hrest]
  exact main table.building hkeys

/-- A chain that leaves takes its own builds only. -/
lemma build?_leave_of_ne (hkeys : (table.building.map (·.1)).Nodup) (hb : b.chain ≠ i) :
    (table.leave i).build? key = some b ↔ table.build? key = some b := by
  have hkeys' : ((table.leave i).building.map (·.1)).Nodup :=
    hkeys.sublist (List.filter_sublist.map _)
  rw [build?_eq_some_iff hkeys', build?_eq_some_iff hkeys]
  simp [leave, hb]

end BuildTable

namespace Session

variable {s s' : Session} {i j : Nat} {t t' : Task} {e : Event} {key : String} {shader : Shader}

/-! ### Completed builds -/

/-- The build of a file by a task has come to its end, and this shader is what it gives. -/
def Completes (s : Session) (i : Nat) (key : String) (shader : Shader) : Prop :=
  ∃ t frame frames, s.tasks[i]? = some t ∧ t.phase = .release ⟨shader, some key⟩ ∧
    t.frames = frame :: frames ∧ frame.claimed = true ∧ frame.path = key

/-- What a completed build gives is in the cache. -/
lemma Flight.lookup_of_completes (h : s.Flight) (hc : s.Completes i key shader) :
    s.shared.cache.lookup key = some shader := by
  obtain ⟨t, frame, frames, ht, hp, -⟩ := hc
  exact h.answers i t ⟨shader, some key⟩ key ht (by simp [Task.answer?, hp]) rfl

/-- **What is new in the cache** has just been completed by the task that acted. -/
lemma Flight.lookup_cases (h : s.Flight) (hc : s.Change e s')
    (hkey : s'.shared.cache.lookup key = some shader) :
    s.shared.cache.lookup key = some shader ∨
      ∃ i, e.task? = some i ∧ s'.Completes i key shader := by
  have h' : s'.Flight := h.change hc
  cases hc with
  | @acts _ i t t' shared' _ he ht hacts _ hshared htasks =>
    rw [hshared] at hkey
    rcases hacts.turn.lookup_cache_cases hkey with hold |
      ⟨answer, frame, frames, rfl, -, hf, hclaimed, rfl⟩
    · exact .inl hold
    · have ht' := getElem?_set_self ht htasks
      have hcached : answer.cachedAs = some frame.path := by
        have hfiled := h'.filed i _ ht' answer frame frames rfl hf
        rwa [if_pos hclaimed] at hfiled
      have hshader := h'.answers i _ answer frame.path ht' rfl hcached
      rw [hshared, hkey] at hshader
      obtain ⟨_, _⟩ := answer
      obtain rfl := hcached
      obtain rfl := Option.some.inj hshader
      exact .inr ⟨i, he, _, frame, frames, ht', rfl, hf, hclaimed, rfl⟩
  | _ => exact .inl hkey

/-- **The cache holds what completed builds gave**, and nothing else. -/
theorem lookup_after_iff (hs : s.Flight) (hempty : s.shared.cache = []) (es : List Event) :
    (s.after es).shared.cache.lookup key = some shader ↔
      ∃ es' i, es' <+: es ∧ (s.after es').Completes i key shader := by
  constructor
  · intro h
    induction es using List.reverseRecOn with
    | nil => simp [hempty] at h
    | append_singleton es e ih =>
      rw [after_append] at h
      rcases (hs.after es).lookup_cases ((s.after es).happen_change e) h with hold | ⟨i, -, hc⟩
      · obtain ⟨es', i, hes', hc⟩ := ih hold
        exact ⟨es', i, hes'.trans (List.prefix_append es [e]), hc⟩
      · refine ⟨es ++ [e], i, List.prefix_rfl, ?_⟩
        rw [after_append]
        exact hc
  · rintro ⟨es', i, ⟨rest, rfl⟩, hc⟩
    rw [after_append]
    exact lookup_after ((hs.after es').lookup_of_completes hc) rest

/-! ### What is left to the others -/

/-- Task number `i` has left the builds and waits of the other tasks, and the tasks themselves, as they
were. -/
structure Spares (s s' : Session) (i : Nat) : Prop where
  tasks : ∀ j ≠ i, s'.tasks[j]? = s.tasks[j]?
  builds : ∀ key b, b.chain ≠ i →
    (s'.shared.table.build? key = some b ↔ s.shared.table.build? key = some b)
  waits : ∀ j ≠ i, s'.shared.table.waitsFor? j = s.shared.table.waitsFor? j

/-- Ending a build of its own, a task leaves those of others. -/
lemma Balanced.build?_withoutFrame {frame : Frame} {frames : List Frame} {b : Build}
    (h : s.Balanced) (ht : s.tasks[i]? = some t) (hf : t.frames = frame :: frames)
    (hb : b.chain ≠ i) : (Task.withoutFrame s.shared frame).table.build? key = some b ↔
      s.shared.table.build? key = some b := by
  unfold Task.withoutFrame
  split
  · next hclaimed =>
    by_cases hk : key = frame.path
    · subst hk
      -- the entry of the file is the task's own
      have hmem : frame.path ∈ t.claims := Task.mem_claims.2 ⟨frame, by simp [hf], hclaimed, rfl⟩
      have hown := (h.builder_iff frame.path i).2 (claims_eq ht ▸ hmem)
      obtain ⟨own, hbuild, hchain⟩ := BuildTable.builder?_eq_some.1 hown
      rw [BuildTable.build?_finish_self, hbuild]
      constructor
      · nofun
      · intro heq
        exact absurd (Option.some.inj heq ▸ hchain) hb
    · exact iff_of_eq (congrArg (· = some b) (BuildTable.build?_finish_of_ne _ hk))
  · rfl

/-- **An act of a task spares the others.** -/
lemma Balanced.spares_turn {shared' : Shared} (h : s.Balanced) (ht : s.tasks[i]? = some t)
    (hturn : Task.Turn s.setting i s.shared t shared' t') (hshared : s'.shared = shared')
    (htasks : s'.tasks = s.tasks.set i t') : s.Spares s' i := by
  refine ⟨fun j hj => getElem?_set_of_ne htasks hj, fun key b hb => ?_, fun j hj => ?_⟩
  · rw [hshared]
    cases hturn with
    | @begins k _ hp hc hbuild =>
      by_cases hk : key = k
      · subst hk
        rw [BuildTable.build?_begin_self, hbuild]
        constructor
        · intro heq
          exact absurd (congrArg Build.chain (Option.some.inj heq)).symm hb
        · nofun
      · exact iff_of_eq (congrArg (· = some b) (BuildTable.build?_begin_of_ne _ _ hk))
    | releases hp hf | unwinds hp hf => exact h.build?_withoutFrame ht hf hb
    | leaves => exact BuildTable.build?_leave_of_ne h.keys hb
    | _ => rfl
  · rw [hshared]
    cases hturn with
    | waits => exact BuildTable.waitsFor?_wait_of_ne _ _ hj
    | wakes => exact BuildTable.waitsFor?_wake_of_ne _ hj
    | leaves => exact BuildTable.waitsFor?_leave_of_ne hj
    | releases | unwinds =>
      unfold Task.withoutFrame
      split <;> rfl
    | _ => rfl

lemma Balanced.spares (h : s.Balanced) (hc : s.Change e s') (he : e.task? = some i) :
    s.Spares s' i := by
  cases hc with
  | acts hj ht hacts _ hshared htasks =>
    obtain rfl := Option.some.inj (hj.symm.trans he)
    exact h.spares_turn ht hacts.turn hshared htasks
  | still => exact ⟨fun _ _ => rfl, fun _ _ _ => .rfl, fun _ _ => rfl⟩
  | _ => cases he

/-! ### Requests that fail -/

/-- **What a task leaves behind** when it has given up what it began in a run from here.

* A file whose build the task has not completed was not put into the cache by it.
* In the build table the task has what it had claimed before, and whoever else is there is another
  unfinished task, which has claimed the file itself.
* The task does not wait.
* None of its acts has touched the builds and waits of others.
* What was in the cache at any time is there as it was. -/
structure LeavesClean (s : Session) (es : List Event) (i : Nat) (t : Task) : Prop where
  unpublished : ∀ key, (∀ es' shader, es' <+: es → ¬ (s.after es').Completes i key shader) →
    ∀ es' e, es' ++ [e] <+: es → e.task? = some i →
      (s.after (es' ++ [e])).shared.cache.lookup key = (s.after es').shared.cache.lookup key
  unbuilt : ∀ key, (s.after es).shared.table.builder? key = some i ↔ key ∈ t.claims
  owned : ∀ key j, (s.after es).shared.table.builder? key = some j →
    ∃ u, (s.after es).tasks[j]? = some u ∧ u.isPending = true ∧ key ∈ u.claims
  unwaiting : (s.after es).shared.table.waitsFor? i = none
  spares : ∀ es' e, es' ++ [e] <+: es → e.task? = some i →
    (s.after es').Spares (s.after (es' ++ [e])) i
  kept : ∀ es' key shader, es' <+: es → (s.after es').shared.cache.lookup key = some shader →
    (s.after es).shared.cache.lookup key = some shader

/-- What a task does not complete, it does not put into the cache. -/
lemma Flight.lookup_eq_of_not_completes (h : s.Flight) (he : e.task? = some i)
    (hno : ∀ shader, ¬ (s.happen e).Completes i key shader) :
    (s.happen e).shared.cache.lookup key = s.shared.cache.lookup key := by
  cases hkey : (s.happen e).shared.cache.lookup key with
  | none =>
    cases hold : s.shared.cache.lookup key with
    | none => rfl
    | some shader =>
      have hlater := lookup_after hold [e]
      rw [after_cons, after_nil, hkey] at hlater
      cases hlater
  | some shader =>
    rcases h.lookup_cases (s.happen_change e) hkey with hold | ⟨j, hj, hcompletes⟩
    · exact hold.symm
    · obtain rfl := Option.some.inj (hj.symm.trans he)
      exact absurd hcompletes (hno shader)

/-- **Failures leave no trace.**  Take any sources, which may change, and any run of any number of
compilations that share a cache.  The cache holds a shader under a key exactly if a build of that key
has come to its end with just this shader.  And when a request that a task has made, at whatever depth,
ends in an error, be it that it cannot go on or that it was told to stop, then it has left everything
clean: what it had not completed is neither in the cache through it nor in the build table, the task
does not wait, and the others, and what was completed inside, are untouched. -/
theorem fails_clean (pipeline : Pipeline) (sources : String → Except Error (List Reading))
    (gates : List String) (es : List Event) :
    let s₀ : Session := { setting := { pipeline, sources, gates } }
    let s := s₀.after es
    (∀ key shader, s.shared.cache.lookup key = some shader ↔
      ∃ es' i, es' <+: es ∧ (s₀.after es').Completes i key shader) ∧
    ∀ (i : Nat) (t t' : Task) (path : String) (stack : IncludeStack) (es' : List Event)
      (error : Error), s.tasks[i]? = some t → t.phase = .ask path stack →
      (s.after es').tasks[i]? = some t' → t'.phase = .unwind error → t'.frames = t.frames →
      s.LeavesClean es' i t := by
  intro s₀ s
  have hstart : s₀.Flight := flight_start ⟨[], rfl⟩
  have hs : s.Flight := hstart.after es
  refine ⟨fun key shader => lookup_after_iff hstart rfl es, ?_⟩
  intro i t t' path stack es' error ht hp ht' hp' hframes
  have hs' : (s.after es').Flight := hs.after es'
  have hclaims : t'.claims = t.claims := by
    unfold Task.claims
    rw [hframes]
  refine ⟨?_, ?_, ?_, ?_, ?_, ?_⟩
  · intro key hno es₁ e hes₁ he
    rw [after_append, after_cons, after_nil]
    refine (hs.after es₁).lookup_eq_of_not_completes he fun shader hc => hno _ shader hes₁ ?_
    rwa [after_append, after_cons, after_nil]
  · intro key
    rw [hs'.balanced.builder_iff, claims_eq ht', hclaims]
  · intro key j hj
    obtain ⟨u, hu, hkey⟩ := exists_of_mem_claims ((hs'.balanced.builder_iff key j).1 hj)
    refine ⟨u, hu, isPending_of_mem_claims ?_ hkey, hkey⟩
    rw [← after_append] at hu
    exact shaped_after _ (es ++ es') j u hu
  · rw [hs'.balanced.waits_eq, awaits_eq ht', Task.awaited?, hp']
  · intro es₁ e _ he
    rw [after_append, after_cons, after_nil]
    exact (hs.after es₁).balanced.spares (happen_change _ e) he
  · rintro es₁ key shader ⟨rest, rfl⟩ hkey
    rw [after_append]
    exact lookup_after hkey rest

end Session

/-- The file `a` includes `b`, which is there, and `c`, which is not. -/
def Setting.gap : Setting where
  sources key :=
    if key = "a" then .ok (Reading.ofText "#include \"b\"\n#include \"c\"")
    else if key = "b" then .ok (Reading.ofText "uniform float b;")
    else .error (.inclusion .notFound key)

namespace Session

/-- A run from a request for `a` that completes `b` and fails at `c`, while a second request for `a`
waits for it. -/
def missed : List Event :=
  .replicate 20 (.step 0) ++ [.start "a" false] ++ .replicate 3 (.step 1) ++ .replicate 8 (.step 0)

theorem fails_clean_missed :
    let s := ({ setting := .gap } : Session).after [.start "a" false]
    ∃ t t' error, s.tasks[0]? = some t ∧ t.phase = .ask "a" (.root 0 "a") ∧
    (s.after missed).tasks[0]? = some t' ∧
    t'.phase = .unwind error ∧ t'.frames = t.frames ∧
    ((s.after missed).shared.cache.lookup "b").isSome = true ∧ s.LeavesClean missed 0 t := by
  intro s
  have hend : ((s.after missed).tasks[0]?.any fun t => t.frames.isEmpty &&
      match t.phase with
      | .unwind _ => true
      | _ => false) = true := by
    decide +kernel
  have hb : ((s.after missed).shared.cache.lookup "b").isSome = true := by decide +kernel
  obtain ⟨t', ht', hboth⟩ := (Option.any_eq_true _ _).1 hend
  obtain ⟨hframes, hfails⟩ := Bool.and_eq_true_iff.1 hboth
  have hframes : t'.frames = (Task.ofPath 0 "a" false).frames := List.isEmpty_iff.1 hframes
  obtain ⟨error, hp'⟩ : ∃ error, t'.phase = .unwind error := by
    split at hfails
    · next error hp' => exact ⟨error, hp'⟩
    · cases hfails
  have hclean := (fails_clean [] Setting.gap.sources [] [.start "a" false]).2 0
    (Task.ofPath 0 "a" false) t' "a" (.root 0 "a") missed error rfl rfl ht' hp' hframes
  exact ⟨Task.ofPath 0 "a" false, t', error, rfl, rfl, ht', hp', hframes, hb, hclean⟩

end Session

end Shading
