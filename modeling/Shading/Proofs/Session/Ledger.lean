import Mathlib.Logic.Function.Basic
import Shading.Proofs.Session.Run

/-!
# The ledger of builds and waits

The build table says who builds what and who waits for what.  It agrees with the tasks in every state
of every run: a file stands in it exactly while one task has claimed it, and a chain waits in it
exactly while its task waits.  The waits never form a loop, although a build may be begun while others
still stand in line for an earlier build of the same file that has failed.

* `Ledger` — the table agrees with the claims and the waits, and waits on no loop;
* `Ledger.begin`, `Ledger.finish`, `Ledger.wait`, `Ledger.wake`, `Ledger.leave` — each change keeps it;
* `Session.balanced_after` — it holds throughout every run.
-/

namespace Shading

open Relation

/-- The table agrees with what the chains have claimed and what they wait for. -/
structure Ledger (table : BuildTable) (claims : Nat → List String) (awaits : Nat → Option String) :
    Prop where
  /-- A file stands at most once among the builds. -/
  keys : (table.building.map (·.1)).Nodup
  /-- A file is being built by a chain exactly when the chain has claimed it. -/
  builder_iff : ∀ key i, table.builder? key = some i ↔ key ∈ claims i
  /-- No chain claims a file twice. -/
  nodup : ∀ i, (claims i).Nodup
  waits_eq : ∀ i, table.waitsFor? i = awaits i
  acyclic : Acyclic table.WaitsOn

namespace Ledger

variable {table : BuildTable} {claims : Nat → List String} {awaits : Nat → Option String} {i : Nat}
  {key : String}

theorem empty : Ledger {} (fun _ => []) fun _ => none where
  keys := List.nodup_nil
  builder_iff := by simp [BuildTable.builder?, BuildTable.build?]
  nodup := by simp
  waits_eq _ := rfl
  acyclic i hi := by
    obtain ⟨j, ⟨key, hw, -⟩, -⟩ := TransGen.head'_iff.1 hi
    simp [BuildTable.waitsFor?] at hw

/-- Two chains never claim the same file. -/
lemma unique {j : Nat} (h : Ledger table claims awaits) (hi : key ∈ claims i) (hj : key ∈ claims j) :
    i = j := by
  rw [← h.builder_iff] at hi hj
  exact Option.some.inj (hi.symm.trans hj)

lemma nodup_filter_keys (h : Ledger table claims awaits) (p : String × Build → Bool) :
    ((table.building.filter p).map (·.1)).Nodup :=
  h.keys.sublist (List.filter_sublist.map _)

/-- A chain that does not wait may claim a file that nobody builds. -/
theorem begin (h : Ledger table claims awaits) (hkey : table.build? key = none)
    (hi : awaits i = none) (ticket : Nat) :
    Ledger (table.begin key ⟨i, ticket⟩) (Function.update claims i (key :: claims i)) awaits where
  keys := by
    simp only [BuildTable.begin, List.map_cons]
    refine List.nodup_cons.2 ⟨?_, h.nodup_filter_keys _⟩
    simp
  builder_iff k j := by
    have hnone : ∀ j, key ∉ claims j := by
      intro j hj
      obtain ⟨b, hb, -⟩ := BuildTable.builder?_eq_some.1 ((h.builder_iff key j).2 hj)
      rw [hkey] at hb
      cases hb
    by_cases hk : k = key
    · subst hk
      rw [BuildTable.builder?_begin_self]
      by_cases hj : j = i
      · simp [hj]
      · simpa [hj, Ne.symm hj] using hnone j
    · rw [BuildTable.builder?_begin_of_ne _ hk, h.builder_iff]
      by_cases hj : j = i
      · subst hj
        simp [hk]
      · simp [hj]
  nodup j := by
    by_cases hj : j = i
    · subst hj
      rw [Function.update_self]
      refine List.nodup_cons.2 ⟨fun hmem => ?_, h.nodup j⟩
      obtain ⟨b, hb, -⟩ := BuildTable.builder?_eq_some.1 ((h.builder_iff key j).2 hmem)
      rw [hkey] at hb
      cases hb
    · rw [Function.update_of_ne hj]
      exact h.nodup j
  waits_eq := h.waits_eq
  acyclic := BuildTable.acyclic_begin h.acyclic (by rw [h.waits_eq]; exact hi)

/-- The innermost claim of a chain may end. -/
theorem finish {rest : List String} (h : Ledger table claims awaits) (hi : claims i = key :: rest) :
    Ledger (table.finish key) (Function.update claims i rest) awaits where
  keys := h.nodup_filter_keys _
  builder_iff k j := by
    have hmem : key ∈ claims i := hi ▸ List.mem_cons_self
    have hrest : key ∉ rest := (List.nodup_cons.1 (hi ▸ h.nodup i)).1
    by_cases hk : k = key
    · subst hk
      rw [BuildTable.builder?_finish_self]
      by_cases hj : j = i
      · subst hj
        simpa using hrest
      · simpa [hj] using fun hjk => hj (h.unique hjk hmem)
    · rw [BuildTable.builder?_finish_of_ne hk, h.builder_iff]
      by_cases hj : j = i
      · subst hj
        simp [hi, hk]
      · simp [hj]
  nodup j := by
    by_cases hj : j = i
    · subst hj
      rw [Function.update_self]
      exact (List.nodup_cons.1 (hi ▸ h.nodup j)).2
    · rw [Function.update_of_ne hj]
      exact h.nodup j
  waits_eq := h.waits_eq
  acyclic := BuildTable.acyclic_finish h.acyclic key

/-- A chain may begin a wait that passes the check. -/
theorem wait (h : Ledger table claims awaits) (hc : table.closesCycle i key = false) :
    Ledger (table.wait i key) claims (Function.update awaits i (some key)) where
  keys := h.keys
  builder_iff := h.builder_iff
  nodup := h.nodup
  waits_eq j := by
    by_cases hj : j = i
    · subst hj
      simp
    · rw [Function.update_of_ne hj, BuildTable.waitsFor?_wait_of_ne table key hj, h.waits_eq]
  acyclic := BuildTable.acyclic_wait h.acyclic hc

theorem wake (h : Ledger table claims awaits) (i : Nat) :
    Ledger (table.wake i) claims (Function.update awaits i none) where
  keys := h.keys
  builder_iff := h.builder_iff
  nodup := h.nodup
  waits_eq j := by
    by_cases hj : j = i
    · subst hj
      simp
    · rw [Function.update_of_ne hj, BuildTable.waitsFor?_wake_of_ne table hj, h.waits_eq]
  acyclic := BuildTable.acyclic_wake h.acyclic i

/-- A chain may leave with all its claims. -/
theorem leave (h : Ledger table claims awaits) (i : Nat) :
    Ledger (table.leave i) (Function.update claims i []) (Function.update awaits i none) where
  keys := h.nodup_filter_keys _
  builder_iff k j := by
    rw [BuildTable.builder?_leave h.keys]
    by_cases hj : j = i
    · subst hj
      split
      · simp
      · next hne => simpa using hne
    · rw [Function.update_of_ne hj, ← h.builder_iff]
      split
      · next heq => simp [heq, Ne.symm hj]
      · rfl
  nodup j := by
    by_cases hj : j = i
    · subst hj
      simp
    · rw [Function.update_of_ne hj]
      exact h.nodup j
  waits_eq j := by
    by_cases hj : j = i
    · subst hj
      simp
    · rw [Function.update_of_ne hj, BuildTable.waitsFor?_leave_of_ne hj, h.waits_eq]
  acyclic := BuildTable.acyclic_leave h.keys h.acyclic i

end Ledger

/-! ### The ledger of a session -/

namespace Session

/-- The files that a task of the session has claimed. -/
def claims (s : Session) (i : Nat) : List String := (s.tasks[i]?.map Task.claims).getD []

/-- The file whose build a task of the session waits for. -/
def awaits (s : Session) (i : Nat) : Option String := s.tasks[i]?.bind Task.awaited?

variable {s s' : Session} {i : Nat} {t t' : Task}

lemma claims_eq (ht : s.tasks[i]? = some t) : s.claims i = t.claims := by
  simp [claims, ht]

lemma awaits_eq (ht : s.tasks[i]? = some t) : s.awaits i = t.awaited? := by
  simp [awaits, ht]

lemma exists_of_mem_claims {key : String} (h : key ∈ s.claims i) :
    ∃ t, s.tasks[i]? = some t ∧ key ∈ t.claims := by
  unfold claims at h
  cases ht : s.tasks[i]? with
  | none => simp [ht] at h
  | some t => exact ⟨t, rfl, by simpa [ht] using h⟩

lemma claims_set (ht : s.tasks[i]? = some t) (htasks : s'.tasks = s.tasks.set i t') :
    s'.claims = Function.update s.claims i t'.claims := by
  funext j
  by_cases hj : j = i
  · subst hj
    rw [Function.update_self, claims_eq (getElem?_set_self ht htasks)]
  · rw [Function.update_of_ne hj, claims, getElem?_set_of_ne htasks hj, claims]

lemma awaits_set (ht : s.tasks[i]? = some t) (htasks : s'.tasks = s.tasks.set i t') :
    s'.awaits = Function.update s.awaits i t'.awaited? := by
  funext j
  by_cases hj : j = i
  · subst hj
    rw [Function.update_self, awaits_eq (getElem?_set_self ht htasks)]
  · rw [Function.update_of_ne hj, awaits, getElem?_set_of_ne htasks hj, awaits]

/-- The table of a session agrees with its tasks. -/
def Balanced (s : Session) : Prop := Ledger s.shared.table s.claims s.awaits

/-- A task that joins has claimed nothing and waits for nothing. -/
lemma Balanced.join (h : s.Balanced) (hclaims : t.claims = []) (hawaits : t.awaited? = none) :
    ({ s with tasks := s.tasks ++ [t] } : Session).Balanced := by
  have old : ∀ j : Nat, (s.tasks ++ [t])[j]? = s.tasks[j]? ∨
      s.tasks[j]? = none ∧ (s.tasks ++ [t])[j]? = some t := by
    intro j
    rcases lt_trichotomy j s.tasks.length with hj | rfl | hj
    · exact .inl (List.getElem?_append_left hj)
    · exact .inr ⟨by simp, by simp⟩
    · rw [List.getElem?_eq_none hj.le, List.getElem?_eq_none (by simp; omega)]
      exact .inl rfl
  have h1 : ({ s with tasks := s.tasks ++ [t] } : Session).claims = s.claims := by
    funext j
    rcases old j with hj | ⟨hj, hj'⟩
    · simp [claims, hj]
    · simp [claims, hj, hj', hclaims]
  have h2 : ({ s with tasks := s.tasks ++ [t] } : Session).awaits = s.awaits := by
    funext j
    rcases old j with hj | ⟨hj, hj'⟩
    · simp [awaits, hj]
    · simp [awaits, hj, hj', hawaits]
  unfold Balanced
  rw [h1, h2]
  exact h

/-- A task whose claims and waits do not change leaves the ledger alone. -/
lemma Balanced.same (h : s.Balanced) (ht : s.tasks[i]? = some t)
    (htable : s'.shared.table = s.shared.table) (htasks : s'.tasks = s.tasks.set i t')
    (hclaims : t'.claims = t.claims) (hawaits : t'.awaited? = t.awaited?) : s'.Balanced := by
  unfold Balanced
  rw [claims_set ht htasks, awaits_set ht htasks, htable, hclaims, hawaits, ← claims_eq ht,
    ← awaits_eq ht, Function.update_eq_self, Function.update_eq_self]
  exact h

/-- When the innermost file is given up or finished, its claim ends, if it had one. -/
lemma Balanced.pop {frame : Frame} {frames : List Frame} {phase : Phase} (h : s.Balanced)
    (ht : s.tasks[i]? = some t) (hf : t.frames = frame :: frames) (hi : t.awaited? = none)
    (hi' : ({ t with frames, phase } : Task).awaited? = none)
    (hshared : s'.shared = Task.withoutFrame s.shared frame)
    (htasks : s'.tasks = s.tasks.set i { t with frames, phase }) : s'.Balanced := by
  have hcons : s.claims i = if frame.claimed
      then frame.path :: ({ t with frames, phase } : Task).claims
      else ({ t with frames, phase } : Task).claims := by
    rw [claims_eq ht]
    exact Task.claims_cons hf
  unfold Balanced
  rw [claims_set ht htasks, awaits_set ht htasks, hi', ← hi, ← awaits_eq ht, Function.update_eq_self,
    hshared, Task.withoutFrame]
  split at hcons
  · next hcl =>
    rw [if_pos hcl]
    exact Ledger.finish h hcons
  · next hcl =>
    rw [if_neg hcl, ← hcons, Function.update_eq_self]
    exact h

/-- **One turn keeps the ledger.** -/
lemma Balanced.turn {shared' : Shared} (h : s.Balanced) (ht : s.tasks[i]? = some t)
    (hturn : Task.Turn s.setting i s.shared t shared' t') (hshared : s'.shared = shared')
    (htasks : s'.tasks = s.tasks.set i t') : s'.Balanced := by
  have htable : s'.shared.table = shared'.table := by rw [hshared]
  cases hturn with
  | quiet hq => exact h.same ht htable htasks hq.claims (hq.idle'.trans hq.idle.symm)
  | marks => exact h.same ht htable htasks rfl rfl
  | loads hr hp => exact h.same ht htable htasks (by simp) (by simp [Task.awaited?, Task.enter, hp])
  | opens hp hf => exact h.same ht htable htasks rfl (by simp [Task.awaited?, hp])
  | publishes hp hf hcl hc => exact h.same ht htable htasks rfl (by simp [Task.awaited?, hp])
  | @begins key stack hp hc hb =>
    have hi : s.awaits i = none := by simp [awaits_eq ht, Task.awaited?, hp]
    have hi' : (t.enter key stack true).awaited? = s.awaits i := by rw [hi]; rfl
    unfold Balanced
    rw [claims_set ht htasks, awaits_set ht htasks, htable, Task.claims_enter, if_pos rfl,
      ← claims_eq ht, hi', Function.update_eq_self]
    exact Ledger.begin h hb hi _
  | waits hp hb hc =>
    unfold Balanced
    rw [claims_set ht htasks, awaits_set ht htasks, htable, Task.claims_goTo, ← claims_eq ht,
      Function.update_eq_self]
    exact Ledger.wait h hc
  | @wakes _ _ _ phase hp hphase =>
    have hi' : (t.goTo phase).awaited? = none := by rcases hphase with rfl | rfl <;> rfl
    unfold Balanced
    rw [claims_set ht htasks, awaits_set ht htasks, htable, Task.claims_goTo, ← claims_eq ht,
      Function.update_eq_self, hi']
    exact Ledger.wake h i
  | releases hp hf => exact h.pop ht hf (by simp [Task.awaited?, hp]) rfl hshared htasks
  | unwinds hp hf => exact h.pop ht hf (by simp [Task.awaited?, hp]) rfl hshared htasks
  | leaves =>
    unfold Balanced
    rw [claims_set ht htasks, awaits_set ht htasks, htable]
    exact Ledger.leave h i

lemma Balanced.change {e : Event} (h : s.Balanced) (hc : s.Change e s') : s'.Balanced := by
  cases hc with
  | acts _ ht hacts _ hshared htasks => exact h.turn ht hacts.turn hshared htasks
  | still => exact h
  | start => exact h.join rfl rfl
  | startText => exact h.join rfl rfl
  | release => exact h
  | replace => exact h

/-- **The ledger holds throughout every run.** -/
theorem balanced_after (setting : Setting) (es : List Event) :
    (({ setting } : Session).after es).Balanced :=
  after_induction es Ledger.empty fun _ _ _ _ h hc => h.change hc

end Session

end Shading
