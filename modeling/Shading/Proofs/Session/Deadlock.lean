import Shading.Proofs.Session.Ledger

/-!
# No deadlock

Tasks that wait for each other's builds never get stuck.  Waits form no loop, whoever waits does so
for a build that another unfinished task is making, and so the line of those who wait always ends with
a task that does not.

* `Task.isBlocked` — whether a task waits for a build that is still going on;
* `Session.Balanced.exists_builder` — who makes that build;
* `Session.Balanced.exists_unblocked` — somebody does not wait;
* `Session.never_deadlocks` — all of it, in every state of every run.
-/

namespace Shading

open Relation

namespace Task

/-- Whether a task waits for a build that is still going on. -/
def isBlocked (shared : Shared) (t : Task) : Bool :=
  match t.phase with
  | .wait key ticket _ => isBuilding shared key ticket
  | _ => false

/-- Whether a task stands before the closed gate of a source. -/
def isGated (setting : Setting) (t : Task) : Bool :=
  match t.phase, t.frames with
  | .gate, frame :: _ => setting.gates.contains frame.path
  | _, _ => false

variable {setting : Setting} {i : Nat} {shared shared' : Shared} {t t' : Task}

lemma isBlocked_iff : t.isBlocked shared = true ↔ ∃ key ticket stack build,
    t.phase = .wait key ticket stack ∧ shared.table.build? key = some build ∧
      build.ticket = ticket := by
  unfold isBlocked
  constructor
  · intro h
    split at h
    · next key ticket stack hp =>
      obtain ⟨build, hb, hticket⟩ := Option.any_eq_true _ _ |>.1 h
      exact ⟨key, ticket, stack, build, hp, hb, by simpa using hticket⟩
    · cases h
  · rintro ⟨key, ticket, stack, build, hp, hb, rfl⟩
    simp [hp, isBuilding, hb]

lemma Turn.shaped (h : t.Shaped) (hturn : Turn setting i shared t shared' t') : t'.Shaped := by
  cases hturn with
  | quiet hq => exact hq.shaped
  | marks => exact h
  | loads | begins => simp [Shaped, enter]
  | waits | releases | unwinds => trivial
  | wakes _ hphase => rcases hphase with rfl | rfl <;> trivial
  | opens _ hf | publishes _ hf => simp [Shaped, hf]
  | leaves => rfl

/-- **A task that is neither at its end nor blocked can go on**, unless it stands before a gate. -/
lemma step_isSome (hs : t.Shaped) (hp : t.isPending = true) (hb : t.isBlocked shared = false)
    (hg : t.isGated setting = false) : (t.step setting shared i).isSome = true := by
  obtain ⟨path, cancelled, frames, phase⟩ := t
  cases phase with
  | ask | look | claim | deliver => rfl
  | wait key ticket stack =>
    have hb : isBuilding shared key ticket = false := hb
    simp [step, hb]
  | openSource | merge | publish =>
    cases frames with
    | nil => simp [Shaped] at hs
    | cons f fs => rfl
  | read | release =>
    cases frames with
    | nil => simp [Shaped] at hs
    | cons f fs => rfl
  | gate =>
    cases frames with
    | nil => simp [Shaped] at hs
    | cons f fs =>
      have hg : setting.gates.contains f.path = false := hg
      simp only [step, hg, Bool.false_eq_true, if_false]
      split <;> rfl
  | unwind => cases frames <;> rfl
  | done | dropped => cases hp

end Task

namespace Session

variable {s : Session} {i : Nat} {t : Task}

theorem shaped_after (setting : Setting) (es : List Event) (i : Nat) (t : Task)
    (ht : (({ setting } : Session).after es).tasks[i]? = some t) : t.Shaped := by
  obtain ⟨-, -, h⟩ := forall_task_after (P := fun _ t => t.Shaped) setting es
    (fun _ h hacts => hacts.turn.shaped h) (fun _ _ _ => trivial)
    (fun _ _ _ _ => by simp [Task.Shaped, Task.ofText]) i t ht
  exact h

/-- A task that has claimed a file is not at its end. -/
lemma isPending_of_mem_claims {key : String} (hs : t.Shaped) (h : key ∈ t.claims) :
    t.isPending = true := by
  obtain ⟨frame, hframe, -⟩ := Task.mem_claims.1 h
  have hne : t.frames ≠ [] := List.ne_nil_of_mem hframe
  unfold Task.isPending
  split
  · next hp => simp [Task.Shaped, hp, hne] at hs
  · next hp => simp [Task.Shaped, hp, hne] at hs
  · rfl

/-- **Who makes the build that a task waits for**: another task, which is not at its end. -/
lemma Balanced.exists_builder (h : s.Balanced)
    (hs : ∀ (i : Nat) (t : Task), s.tasks[i]? = some t → t.Shaped) (ht : s.tasks[i]? = some t)
    (hb : t.isBlocked s.shared = true) :
    ∃ key ticket stack j u, t.phase = .wait key ticket stack ∧ j ≠ i ∧
      s.shared.table.build? key = some ⟨j, ticket⟩ ∧ s.tasks[j]? = some u ∧ u.isPending = true ∧
      key ∈ u.claims ∧ s.shared.table.WaitsOn i j := by
  obtain ⟨key, ticket, stack, ⟨j, _⟩, hp, hbuild, rfl⟩ := Task.isBlocked_iff.1 hb
  have hbuilder : s.shared.table.builder? key = some j := by simp [BuildTable.builder?, hbuild]
  have hwaits : s.shared.table.WaitsOn i j := by
    refine ⟨key, ?_, hbuilder⟩
    rw [h.waits_eq, awaits_eq ht]
    simp [Task.awaited?, hp]
  obtain ⟨u, hu, hkey⟩ := exists_of_mem_claims ((h.builder_iff key j).1 hbuilder)
  refine ⟨key, _, stack, j, u, hp, ?_, hbuild, hu, isPending_of_mem_claims (hs j u hu) hkey, hkey,
    hwaits⟩
  rintro rfl
  exact h.acyclic j (.single hwaits)

/-- **Somebody does not wait**: the line of those who wait on each other ends. -/
lemma Balanced.exists_unblocked (h : s.Balanced)
    (hs : ∀ (i : Nat) (t : Task), s.tasks[i]? = some t → t.Shaped) (ht : s.tasks[i]? = some t)
    (hp : t.isPending = true) :
    ∃ (j : Nat) (u : Task), s.tasks[j]? = some u ∧ u.isPending = true ∧
      u.isBlocked s.shared = false := by
  have hfin : {b | (∃ a, s.shared.table.WaitsOn a b) ∧ ∃ c, s.shared.table.WaitsOn b c}.Finite := by
    refine (Set.finite_lt_nat s.tasks.length).subset ?_
    rintro b ⟨-, c, key, hw, -⟩
    rw [h.waits_eq] at hw
    obtain ⟨u, hu, -⟩ := Option.bind_eq_some_iff.1 hw
    exact lt_length_of_getElem? hu
  have hwf := h.acyclic.wellFounded hfin
  induction i using hwf.induction generalizing t with
  | _ i ih =>
    cases hb : t.isBlocked s.shared with
    | false => exact ⟨i, t, ht, hp, hb⟩
    | true =>
      obtain ⟨_, _, _, j, u, -, -, -, hu, hup, -, hwaits⟩ := h.exists_builder hs ht hb
      exact ih j hwaits hu hup

lemma mem_pending : i ∈ s.pending ↔ ∃ t, s.tasks[i]? = some t ∧ t.isPending = true := by
  unfold pending
  simp only [List.mem_filter, List.mem_range, Option.any_eq_true]
  exact ⟨fun h => h.2, fun ⟨t, ht, hp⟩ => ⟨lt_length_of_getElem? ht, t, ht, hp⟩⟩

/-- **Compilations never deadlock.**  In every state of every run, whatever the sources include, who
fails, is told to stop or takes up a failed build again: the waits of chains on chains form no loop;
an unfinished task that cannot go on, and does not stand before a gate, waits for a build in progress
that another unfinished task is making; and if any task is unfinished, then some unfinished task can
go on or stands before a gate. -/
theorem never_deadlocks (setting : Setting) (es : List Event) :
    let s := ({ setting } : Session).after es
    Acyclic s.shared.table.WaitsOn ∧
    (∀ i t, s.tasks[i]? = some t → t.isPending = true → s.happen? (.step i) = none →
      t.isGated s.setting = false → ∃ key ticket stack j u, t.phase = .wait key ticket stack ∧ j ≠ i ∧
        s.shared.table.build? key = some ⟨j, ticket⟩ ∧ s.tasks[j]? = some u ∧ u.isPending = true ∧
        key ∈ u.claims) ∧
    (s.pending ≠ [] → ∃ i ∈ s.pending, ∃ t, s.tasks[i]? = some t ∧
      ((s.happen? (.step i)).isSome = true ∨ t.isGated s.setting = true)) := by
  intro s
  have h : s.Balanced := balanced_after setting es
  have hs : ∀ (i : Nat) (t : Task), s.tasks[i]? = some t → t.Shaped := shaped_after setting es
  have goesOn : ∀ (i : Nat) (t : Task), s.tasks[i]? = some t → t.isPending = true →
      t.isBlocked s.shared = false → t.isGated s.setting = false →
      (s.happen? (.step i)).isSome = true := by
    intro i t ht hp hb hg
    obtain ⟨p, hstep⟩ := Option.isSome_iff_exists.1 (Task.step_isSome (i := i) (hs i t ht) hp hb hg)
    simp [happen?, ht, hstep]
  refine ⟨h.acyclic, fun i t ht hp hstep hg => ?_, fun hne => ?_⟩
  · cases hb : t.isBlocked s.shared with
    | false =>
      have hsome := goesOn i t ht hp hb hg
      rw [hstep] at hsome
      cases hsome
    | true =>
      obtain ⟨key, ticket, stack, j, u, hp, hj, hbuild, hu, hup, hkey, -⟩ := h.exists_builder hs ht hb
      exact ⟨key, ticket, stack, j, u, hp, hj, hbuild, hu, hup, hkey⟩
  · obtain ⟨i, hi⟩ := List.exists_mem_of_ne_nil _ hne
    obtain ⟨t, ht, hp⟩ := mem_pending.1 hi
    obtain ⟨j, u, hu, hup, hub⟩ := h.exists_unblocked hs ht hp
    refine ⟨j, mem_pending.2 ⟨u, hu, hup⟩, u, hu, ?_⟩
    cases hg : u.isGated s.setting with
    | false => exact .inl (goesOn j u hu hup hub hg)
    | true => exact .inr rfl

end Session

end Shading
