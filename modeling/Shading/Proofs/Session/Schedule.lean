import Shading.Proofs.Session.Faithful
import Shading.Proofs.Session.Requests

/-!
# Independence of the schedule

Over finitely many files that include each other without a loop, what a compilation gets does not
depend on the others: not on the order of their steps, nor on which of them fail, are told to stop or
are dropped, nor on who builds which file.  It is the recursive expansion of the file that was asked
for, whether this ends in a shader or in an error.

* `Session.Follows` — every task and every entry of the cache follows the expansion;
* `Session.Follows.closesCycle` — no wait is refused;
* `Session.follows_after` — it holds throughout every run;
* `Session.result_eq_expand` — what a compilation gets.
-/

namespace Shading

open Relation

/-- The event brings in neither a text nor other sources, and a request is for a settled path. -/
def Event.Settled : Event → Prop
  | .start path _ => Path.normalize (Path.normalize path) = Path.normalize path
  | .startText .. | .replace _ => False
  | _ => True

instance : DecidablePred Event.Settled
  | .start _ _ => inferInstanceAs (Decidable (_ = _))
  | .startText .. | .replace _ => inferInstanceAs (Decidable False)
  | .step _ | .abort _ | .cancel _ | .drop _ | .release _ => inferInstanceAs (Decidable True)

namespace Task

variable {setting setting' : Setting} {hl : setting.LoopFree} {i : Nat} {shared shared' : Shared}
  {t t' : Task}

lemma awaited?_eq_some {key : String} (h : t.awaited? = some key) :
    ∃ ticket stack, t.phase = .wait key ticket stack := by
  unfold awaited? at h
  split at h
  · next ticket stack hp => exact ⟨ticket, stack, Option.some.inj h ▸ hp⟩
  · cases h

/-- What a task puts into the cache is the expansion of the file. -/
lemma Turn.expanded (h : t.Faithful hl) (hturn : Turn setting' i shared t shared' t')
    (hcache : shared.Expanded hl) : shared'.Expanded hl := by
  intro key shader hkey
  cases hturn with
  | @publishes frame frames hp hf =>
    unfold Faithful at h
    rw [hp] at h
    obtain ⟨f, fs, hw, hprogram⟩ := h
    obtain ⟨rfl, -⟩ := hw.eq hf
    by_cases hk : key = f.path
    · subst hk
      obtain rfl : _ = shader := by simpa using hkey
      exact hprogram
    · have hne : (key == f.path) = false := by simpa using hk
      exact hcache key shader (by simpa [List.lookup_cons, hne] using hkey)
  | releases | unwinds =>
    unfold withoutFrame at hkey
    split at hkey <;> exact hcache key shader hkey
  | _ => exact hcache key shader hkey

/-- The claims of a task that asks for a file lead to it. -/
lemma Asks.reaches {key k : String} {stack : IncludeStack} (h : t.Asks hl key stack)
    (hk : k ∈ t.claims) : TransGen setting.Includes k key := by
  obtain ⟨f, hf, -, rfl⟩ := mem_claims.1 hk
  exact h.lead.reaches hf

end Task

namespace Session

variable {setting : Setting} {hl : setting.LoopFree} {s s' : Session} {i : Nat} {t t' : Task}

/-- Every task and every entry of the cache follows the expansion. -/
structure Follows {setting : Setting} (hl : setting.LoopFree) (s : Session) : Prop where
  balanced : s.Balanced
  gated : ∃ gates, s.setting = { setting with gates }
  cache : s.shared.Expanded hl
  tasks : ∀ (i : Nat) (t : Task), s.tasks[i]? = some t → t.Faithful hl

/-- A chain of waits that ends in a task leads from each build along it to the file that the task asks
for. -/
lemma Follows.reaches {key : String} {stack : IncludeStack} {d : Nat} (h : s.Follows hl)
    (ht : s.tasks[i]? = some t) (hasks : t.Asks hl key stack)
    (hd : ReflTransGen s.shared.table.WaitsOn d i) :
    ∀ k, s.shared.table.builder? k = some d → TransGen setting.Includes k key := by
  -- along the waits from the far end: what a task has claimed leads to what it waits for
  induction hd using ReflTransGen.head_induction_on with
  | refl =>
    intro k hk
    have hmem : k ∈ s.claims i := (h.balanced.builder_iff k i).1 hk
    rw [claims_eq ht] at hmem
    exact hasks.reaches hmem
  | @head d e hde _ ih =>
    intro k hk
    obtain ⟨awaited, hwaits, hbuilder⟩ := hde
    obtain ⟨u, hu, hmem⟩ := exists_of_mem_claims ((h.balanced.builder_iff k d).1 hk)
    rw [h.balanced.waits_eq, awaits_eq hu] at hwaits
    obtain ⟨ticket, stack', hp⟩ := Task.awaited?_eq_some hwaits
    have hfaithful := h.tasks d u hu
    unfold Task.Faithful at hfaithful
    rw [hp] at hfaithful
    exact (hfaithful.reaches hmem).trans (ih awaited hbuilder)

/-- **No wait is refused**: the loop of waits that it would close would be a loop of includes. -/
lemma Follows.closesCycle {key : String} {stack : IncludeStack}
    (h : s.Follows hl) (ht : s.tasks[i]? = some t) (hp : t.phase = .claim key stack) :
    s.shared.table.closesCycle i key = false := by
  have hfaithful := h.tasks i t ht
  unfold Task.Faithful at hfaithful
  rw [hp] at hfaithful
  -- the file would be built by a chain that waits, in the end, for this very task
  by_contra hclose
  obtain ⟨d, hd, hwaits⟩ := BuildTable.closesCycle_iff.1 (by simpa using hclose)
  exact hl.acyclic key (h.reaches ht hfaithful hwaits key hd)

lemma Follows.join (h : s.Follows hl) (hclaims : t.claims = []) (hawaits : t.awaited? = none)
    (ht : t.Faithful hl) : ({ s with tasks := s.tasks ++ [t] } : Session).Follows hl where
  balanced := h.balanced.join hclaims hawaits
  gated := h.gated
  cache := h.cache
  tasks j u hu := by
    rcases getElem?_append_cases hu with ⟨-, rfl⟩ | hu
    · exact ht
    · exact h.tasks j u hu

/-- **Every change follows the expansion.** -/
lemma Follows.change {e : Event} (hr : setting.resolver = .cache [])
    (he : e.Settled) (h : s.Follows hl) (hc : s.Change e s') : s'.Follows hl := by
  cases hc with
  | @acts _ i t t' shared' _ _ ht hacts hset hshared htasks =>
    have hturn := hacts.turn
    obtain ⟨gates, hgates⟩ := h.gated
    refine ⟨h.balanced.turn ht hturn hshared htasks, ⟨gates, hset.trans hgates⟩, ?_, ?_⟩
    · rw [hshared]
      exact hturn.expanded (h.tasks i t ht) h.cache
    · intro j u hu
      rcases getElem?_set_cases ht htasks hu with ⟨-, rfl⟩ | ⟨-, hu⟩
      · rw [hgates] at hacts
        exact (h.tasks i t ht).acts hr h.cache (fun key stack => h.closesCycle ht) hacts
      · exact h.tasks j u hu
  | still => exact h
  | start =>
    refine h.join rfl rfl ⟨he, .root, ?_⟩
    intro outer houter
    obtain rfl := List.mem_singleton.1 houter
    exact .refl
  | startText => exact he.elim
  | release =>
    obtain ⟨gates, hgates⟩ := h.gated
    exact ⟨h.balanced, ⟨_, by rw [hgates]⟩, h.cache, h.tasks⟩
  | replace => exact he.elim

/-- **Every state of every run follows the expansion.** -/
theorem follows_after (hl : setting.LoopFree) (hr : setting.resolver = .cache []) {es : List Event}
    (hes : ∀ e ∈ es, e.Settled) : (({ setting } : Session).after es).Follows hl := by
  have hstart : ({ setting } : Session).Follows hl :=
    ⟨Ledger.empty, ⟨setting.gates, rfl⟩, by simp [Shared.Expanded], by simp⟩
  exact after_induction es hstart fun e he _ _ h hc => h.change hr (hes e he) hc

/-- **Independence of the schedule.**  Take finitely many files that include each other without a loop
and any run over them: requests for settled paths, which share a cache and one pipeline, and steps of
their tasks in any order, of which any may be told to stop or dropped at any time and any may fail.  A
request that comes to its end without having been told to stop has for its result, shader or error,
what the recursive expansion of its file gives. -/
theorem result_eq_expand (hl : setting.LoopFree) (hr : setting.resolver = .cache []) {es : List Event}
    (hes : ∀ e ∈ es, e.Settled) {path : String} {cancelled : Bool} {result : Except Error Answer}
    (hi : (begun es)[i]? = some (.start path cancelled))
    (ht : (({ setting } : Session).after es).tasks[i]? = some t) (hcancel : t.cancelled = false)
    (hresult : t.result? = some result) :
    result.map (·.shader) = hl.expand (Path.normalize path) := by
  have hload : setting.resolver ≠ .load := by simp [hr]
  obtain ⟨e, he, hpath, -⟩ := rooted_after hload es i t ht
  obtain rfl : _ = e := Option.some.inj (hi.symm.trans he)
  obtain rfl : path = t.path := Option.some.inj hpath
  have hfaithful := (follows_after hl hr hes).tasks i t ht
  unfold Task.Faithful at hfaithful
  rw [Task.result?_eq_some.1 hresult] at hfaithful
  cases result with
  | ok answer => exact hfaithful.symm
  | error error =>
    -- only a task that was told to stop ends in another error
    rcases hfaithful with ⟨-, htold⟩ | hfails
    · rw [hcancel] at htold
      cases htold
    · exact hfails.symm

end Session

/-! ### A build that is handed over -/

/-- The file `a` includes the file `b`, and there are no others. -/
def Setting.pair : Setting where
  sources key :=
    if key = "a" then .ok (Reading.ofText "#include \"b\"")
    else if key = "b" then .ok (Reading.ofText "uniform float u;")
    else .error (.inclusion .notFound key)

lemma Setting.sources_pair {key : String} {readings : List Reading}
    (h : Setting.pair.sources key = .ok readings) : key = "a" ∨ key = "b" := by
  by_contra hno
  obtain ⟨ha, hb⟩ := not_or.1 hno
  simp [pair, ha, hb] at h

lemma Setting.includes_pair {key i : String} (h : Setting.pair.Includes key i) :
    key = "a" ∧ i = "b" := by
  have ha : (match pair.fileProgram "a" with | .ok p => p.links | .error _ => []) = ["b"] := by
    decide +kernel
  have hb : (match pair.fileProgram "b" with | .ok p => p.links | .error _ => []) = [] := by
    decide +kernel
  obtain ⟨-, program, hprogram, hi⟩ := h
  obtain ⟨readings, hreadings⟩ := sources_of_fileProgram hprogram
  rcases sources_pair hreadings with rfl | rfl
  · simp only [hprogram] at ha
    exact ⟨rfl, by simpa [ha] using hi⟩
  · simp only [hprogram] at hb
    simp [hb] at hi

lemma Setting.loopFree_pair : Setting.pair.LoopFree where
  finite := by
    refine Set.Finite.subset (Set.toFinite {"a", "b"}) ?_
    rintro key ⟨-, readings, hreadings⟩
    exact sources_pair hreadings
  settled key i h := by
    obtain ⟨-, rfl⟩ := includes_pair h
    decide +kernel
  acyclic key h := by
    obtain ⟨i, hi, hback⟩ := TransGen.head'_iff.1 h
    obtain ⟨rfl, rfl⟩ := includes_pair hi
    rcases hback.cases_head with hab | ⟨j, hj, -⟩
    · exact absurd hab (by decide)
    · exact absurd (includes_pair hj).1 (by decide)

namespace Session

/-- A run in which the request for `a` waits for `b`, whose build is told to stop and given up, so
that the waiting task takes it over. -/
def handedOver : List Event :=
  [.start "b" false, .start "a" false] ++ .replicate 5 (.step 0) ++ .replicate 11 (.step 1) ++
    [.cancel 0] ++ .replicate 3 (.step 0) ++ .replicate 25 (.step 1)

theorem result_handedOver : ∃ (t : Task) (answer : Answer),
    (({ setting := .pair } : Session).after handedOver).tasks[1]? = some t ∧ t.cancelled = false ∧
    t.result? = some (.ok answer) ∧
    .ok answer.shader = Setting.loopFree_pair.expand (Path.normalize "a") := by
  have hend : ((({ setting := .pair } : Session).after handedOver).tasks[1]?).any (fun t =>
      !t.cancelled && t.result?.any Except.isOk) = true := by
    decide +kernel
  obtain ⟨t, ht, hboth⟩ := (Option.any_eq_true _ _).1 hend
  obtain ⟨hcancel, hok⟩ := Bool.and_eq_true_iff.1 hboth
  have hcancel : t.cancelled = false := by simpa using hcancel
  obtain ⟨result, hresult, hok⟩ := (Option.any_eq_true _ _).1 hok
  have hes : ∀ e ∈ handedOver, e.Settled := by decide +kernel
  have hi : (begun handedOver)[1]? = some (.start "a" false) := by
    simp [begun, handedOver, Event.path?]
  cases result with
  | error error => cases hok
  | ok answer =>
    exact ⟨t, answer, ht, hcancel, hresult,
      result_eq_expand Setting.loopFree_pair rfl hes hi ht hcancel hresult⟩

end Session

end Shading
