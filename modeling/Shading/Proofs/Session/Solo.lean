import Shading.Proofs.Session.Run

/-!
# One task by itself

A task that takes all the next steps leaves the others where they are.  Over sources in which every
path leads to an empty file, it takes eight steps to build a file from its claim.

* `Task.steps`, `Session.after_steps` — a number of steps of one task;
* `Session.IsAt` — a session by what its tasks share and where they are;
* `Setting.blank` — every path leads to an empty file;
* `Task.steps_build` — a build from its claim to its end;
* `Task.steps_miss`, `Task.steps_hit` — a request up to its first look into the cache.
-/

namespace Shading

/-- A number of steps that task number `i` takes one after another. -/
def Task.steps (setting : Setting) (i : Nat) : Nat → Shared × Task → Option (Shared × Task)
  | 0, st => some st
  | n + 1, st => (st.2.step setting st.1 i).bind (steps setting i n)

lemma Task.steps_add (setting : Setting) (i m n : Nat) (st : Shared × Task) :
    Task.steps setting i (m + n) st = (Task.steps setting i m st).bind (Task.steps setting i n) := by
  induction m generalizing st with
  | zero => simp [Task.steps]
  | succ m ih =>
    rw [Nat.add_right_comm, Task.steps, Task.steps, Option.bind_assoc]
    congr 1
    funext st'
    exact ih st'

namespace Session

variable {s : Session} {i : Nat} {t t' : Task}

lemma happen_step {shared' : Shared} (ht : s.tasks[i]? = some t)
    (h : t.step s.setting s.shared i = some (shared', t')) :
    s.happen (.step i) = s.put i shared' t' := by
  simp [happen, happen?, ht, h]

/-- **Steps of one task** change what is shared and that task. -/
theorem after_steps {n : Nat} {shared' : Shared} (ht : s.tasks[i]? = some t)
    (h : Task.steps s.setting i n (s.shared, t) = some (shared', t')) :
    (s.after (List.replicate n (.step i))).setting = s.setting ∧
    (s.after (List.replicate n (.step i))).shared = shared' ∧
    (s.after (List.replicate n (.step i))).tasks = s.tasks.set i t' := by
  induction n generalizing s t with
  | zero =>
    obtain ⟨rfl, rfl⟩ : s.shared = shared' ∧ t = t' := by simpa [Task.steps] using h
    refine ⟨rfl, rfl, ?_⟩
    obtain ⟨hi, rfl⟩ := List.getElem?_eq_some_iff.1 ht
    exact (List.set_getElem_self hi).symm
  | succ n ih =>
    obtain ⟨⟨shared₁, t₁⟩, hstep, hrest⟩ := Option.bind_eq_some_iff.1 h
    rw [List.replicate_succ, after_cons, happen_step ht hstep]
    have ht₁ : (s.put i shared₁ t₁).tasks[i]? = some t₁ := getElem?_set_self ht rfl
    obtain ⟨h1, h2, h3⟩ := ih ht₁ hrest
    refine ⟨h1, h2, h3.trans ?_⟩
    exact List.set_set ..

/-- A session with this setting, in which the tasks share this and are here. -/
structure IsAt (s : Session) (setting : Setting) (shared : Shared) (tasks : List Task) : Prop where
  setting : s.setting = setting
  shared : s.shared = shared
  tasks : s.tasks = tasks

section IsAt

variable {setting : Setting} {shared shared' : Shared} {tasks : List Task}

lemma IsAt.start (h : s.IsAt setting shared tasks) (path : String) :
    (s.after [.start path false]).IsAt setting shared
      (tasks ++ [Task.ofPath tasks.length path false]) := by
  obtain ⟨rfl, rfl, rfl⟩ := h
  exact ⟨rfl, rfl, rfl⟩

lemma IsAt.steps {n : Nat} (h : s.IsAt setting shared tasks) (ht : tasks[i]? = some t)
    (hsteps : Task.steps setting i n (shared, t) = some (shared', t')) :
    (s.after (List.replicate n (.step i))).IsAt setting shared' (tasks.set i t') := by
  obtain ⟨rfl, rfl, rfl⟩ := h
  obtain ⟨h1, h2, h3⟩ := after_steps ht hsteps
  exact ⟨h1, h2, h3⟩

lemma IsAt.result? {result : Except Error Answer} (h : s.IsAt setting shared tasks)
    (ht : tasks[i]? = some t) (hr : t.result? = some result) : s.result? i = some result := by
  unfold Session.result?
  rw [h.tasks, ht]
  exact hr

end IsAt

end Session

/-- Every path leads to an empty file. -/
def Setting.blank : Setting := { sources := fun _ => .ok [] }

/-- The shader of an empty file. -/
def Shader.blank (key : String) : Shader := ⟨key, {}⟩

namespace Task

variable {i : Nat} {shared : Shared}

/-- **A build from its claim to its end.** -/
theorem steps_build {key path : String} {stack : IncludeStack}
    (hc : shared.cache.lookup key = none) (hb : shared.table.build? key = none) :
    steps .blank i 8 (shared, ⟨path, false, [], .claim key stack⟩) =
      some ({ cache := (key, .blank key) :: shared.cache
              table := (shared.table.begin key ⟨i, shared.builds⟩).finish key
              builds := shared.builds + 1
              opened := shared.opened ++ [key] },
        ⟨path, false, [], .done (.ok ⟨.blank key, some key⟩)⟩) := by
  let shared₁ : Shared := { shared with
    table := shared.table.begin key ⟨i, shared.builds⟩, builds := shared.builds + 1 }
  let frame : Frame := { path := key, stack, claimed := true }
  let shared₂ : Shared := { shared₁ with opened := shared.opened ++ [key] }
  let shared₃ : Shared := { shared₂ with cache := (key, .blank key) :: shared.cache }
  have hclaim : steps .blank i 1 (shared, ⟨path, false, [], .claim key stack⟩) =
      some (shared₁, ⟨path, false, [frame], .openSource⟩) := by
    simp [steps, step, claimStep, hc, hb, enter, shared₁, frame]
  have hread : steps .blank i 4 (shared₁, ⟨path, false, [frame], .openSource⟩) =
      some (shared₂, ⟨path, false, [frame], .publish⟩) := rfl
  have hpublish : steps .blank i 1 (shared₂, ⟨path, false, [frame], .publish⟩) =
      some (shared₃, ⟨path, false, [frame], .release ⟨.blank key, some key⟩⟩) := by
    simp [steps, step, publishStep, hc, goTo, shared₁, shared₂, shared₃, frame, Shader.blank]
  have hend : steps .blank i 2 (shared₃, ⟨path, false, [frame], .release ⟨.blank key, some key⟩⟩) =
      some ({ shared₃ with table := shared₃.table.finish key },
        ⟨path, false, [], .done (.ok ⟨.blank key, some key⟩)⟩) := rfl
  rw [show 8 = 1 + (4 + (1 + 2)) from rfl, steps_add, hclaim, Option.bind_some, steps_add, hread,
    Option.bind_some, steps_add, hpublish, Option.bind_some, hend]

/-- A request that finds nothing in the cache goes on to claim the file. -/
theorem steps_miss {setting : Setting} {path : String} (hr : setting.resolver = .cache [])
    (hc : shared.cache.lookup (Path.normalize (Path.normalize path)) = none) :
    steps setting i 2 (shared, ofPath i path false) =
      some (shared, ⟨path, false, [], .claim (Path.normalize path) (.root i path)⟩) := by
  simp [steps, step, ofPath, askStep, hr, goTo, lookStep, hc]

/-- A request that finds an entry of the cache answers with it. -/
theorem steps_hit {setting : Setting} {path : String} {shader : Shader}
    (hr : setting.resolver = .cache [])
    (hc : shared.cache.lookup (Path.normalize (Path.normalize path)) = some shader) :
    steps setting i 3 (shared, ofPath i path false) = some (shared, ⟨path, false, [],
      .done (.ok ⟨shader, some (Path.normalize (Path.normalize path))⟩)⟩) := by
  simp [steps, step, ofPath, askStep, hr, goTo, lookStep, hc, deliverStep]

end Task

end Shading
