import Shading.Proofs.Session.SingleFlight
import Shading.Proofs.Session.Solo

/-!
# Finding a file again

A task that comes to claim a file and meets it in the cache looks for it once more.  The claim takes
the key as it is, and the look takes the key's normal form.  Where the two are the same, the second
look finds the file; where they are not, it may miss it, and then the task goes from the claim to the
look and back for ever.

* `Session.FoundAgain` — a file met at its claim is found at the next look;
* `Session.Spins` — a task goes round for ever without building or waiting;
* `Session.found_again_iff` — which paths have the one and which the other.
-/

namespace Shading

namespace Task

variable {setting : Setting} {i : Nat} {shared : Shared} {t : Task} {key : String}
  {stack : IncludeStack}

/-- A file that is in the cache at its claim is looked for again. -/
lemma step_claim_cached (hp : t.phase = .claim key stack)
    (hc : (shared.cache.lookup key).isSome = true) :
    t.step setting shared i = some (shared, t.goTo (.look key stack)) := by
  simp [step, hp, claimStep, hc]

lemma step_look_found {shader : Shader} (hp : t.phase = .look key stack)
    (hc : shared.cache.lookup (Path.normalize key) = some shader) :
    t.step setting shared i =
      some (shared, t.goTo (.deliver (some ⟨shader, some (Path.normalize key)⟩))) := by
  simp [step, hp, lookStep, hc]

lemma step_look_missed (hp : t.phase = .look key stack) (hcancel : t.cancelled = false)
    (hc : shared.cache.lookup (Path.normalize key) = none) :
    t.step setting shared i = some (shared, t.goTo (.claim key stack)) := by
  simp [step, hp, lookStep, hc, hcancel]

/-- **A round of the loop**: from the claim to the look and back. -/
lemma steps_round (hp : t.phase = .claim key stack) (hcancel : t.cancelled = false)
    (hc : (shared.cache.lookup key).isSome = true)
    (hn : shared.cache.lookup (Path.normalize key) = none) :
    steps setting i 2 (shared, t) = some (shared, t) := by
  have hback : (t.goTo (.look key stack)).step setting shared i = some (shared, t) := by
    rw [step_look_missed (phase_goTo t _) hcancel hn]
    obtain ⟨path, cancelled, frames, phase⟩ := t
    obtain rfl : phase = .claim key stack := hp
    rfl
  simp [steps, step_claim_cached hp hc, hback]

/-- **Every round of the loop ends where it began.** -/
lemma steps_rounds (hp : t.phase = .claim key stack) (hcancel : t.cancelled = false)
    (hc : (shared.cache.lookup key).isSome = true)
    (hn : shared.cache.lookup (Path.normalize key) = none) (n : Nat) :
    steps setting i (2 * n) (shared, t) = some (shared, t) := by
  induction n with
  | zero => rfl
  | succ n ih =>
    rw [show 2 * (n + 1) = 2 + 2 * n by omega, steps_add, steps_round hp hcancel hc hn,
      Option.bind_some, ih]

end Task

namespace Session

/-- Whenever a task is about to claim the path's file and the file is in the cache, the task's next
look finds it and the answer is the entry of the cache, whatever the other tasks do in between. -/
def FoundAgain (path : String) : Prop :=
  ∀ pipeline sources gates es i t stack shader es',
    let s := ({ setting := { pipeline, sources, gates } } : Session).after es
    s.tasks[i]? = some t → t.phase = .claim (Path.normalize path) stack →
    s.shared.cache.lookup (Path.normalize path) = some shader → (∀ e ∈ es', e.task? ≠ some i) →
    (s.after ([.step i] ++ es' ++ [.step i])).tasks[i]? =
      some (t.goTo (.deliver (some ⟨shader, some (Path.normalize path)⟩)))

/-- In some run a task comes to claim the path's file, which is in the cache, and from then on every
second step of it brings it back there and changes nothing. -/
def Spins (path : String) : Prop :=
  ∃ pipeline sources gates es i t stack,
    let s := ({ setting := { pipeline, sources, gates } } : Session).after es
    s.tasks[i]? = some t ∧ t.phase = .claim (Path.normalize path) stack ∧
    s.isCached (Path.normalize path) = true ∧
    ∀ n, (s.after (List.replicate (2 * n) (.step i))).IsAt s.setting s.shared s.tasks

variable {path : String}

lemma foundAgain_of_settled (h : Path.normalize (Path.normalize path) = Path.normalize path) :
    FoundAgain path := by
  intro pipeline sources gates es i t stack shader es' s ht hp hc hes
  generalize s = s at ht hc ⊢
  set key := Path.normalize path
  let t₁ := t.goTo (.look key stack)
  rw [after_append, after_append]
  have hclaim : s.after [.step i] = s.put i s.shared t₁ :=
    happen_step ht (Task.step_claim_cached hp (by rw [hc]; rfl))
  have ht₁ : (s.after [.step i]).tasks[i]? = some t₁ := by
    rw [hclaim]
    exact getElem?_set_self ht rfl
  -- the others change neither the task nor the entry
  have ht₂ : ((s.after [.step i]).after es').tasks[i]? = some t₁ := getElem?_after_of_ne hes ht₁
  have hc₂ : ((s.after [.step i]).after es').shared.cache.lookup (Path.normalize key) =
      some shader := by
    rw [h, ← after_append]
    exact lookup_after hc _
  generalize (s.after [.step i]).after es' = s₂ at ht₂ hc₂ ⊢
  rw [after_cons, after_nil, happen_step ht₂ (Task.step_look_found rfl hc₂), h]
  exact getElem?_set_self ht₂ rfl

/-- **A task that goes round for ever.**  The path was asked for once, and its file is in the cache
under its normal form; the second request looks under the normal form of that. -/
lemma spins_of_unsettled (h : Path.normalize (Path.normalize path) ≠ Path.normalize path) :
    Spins path := by
  set key := Path.normalize path with hkey
  let shared : Shared := {
    cache := [(key, .blank key)]
    table := (BuildTable.begin {} key ⟨0, 0⟩).finish key
    builds := 1
    opened := [key] }
  let t : Task := ⟨path, false, [], .claim key (.root 1 path)⟩
  have hnone : shared.cache.lookup (Path.normalize key) = none := by
    have hne : (Path.normalize key == key) = false := by simpa using h
    simp [shared, List.lookup_cons, hne]
  have hsome : (shared.cache.lookup key).isSome = true := by simp [shared]
  let es : List Event := [.start path false] ++ .replicate 2 (.step 0) ++ .replicate 8 (.step 0) ++
    [.start path false] ++ .replicate 2 (.step 1)
  have hclaim : (({ setting := .blank } : Session).after es).IsAt .blank shared
      [⟨path, false, [], .done (.ok ⟨.blank key, some key⟩)⟩, t] := by
    have hstart : ({ setting := .blank } : Session).IsAt .blank {} [] := ⟨rfl, rfl, rfl⟩
    have hlook := (hstart.start path).steps (i := 0) (t := .ofPath 0 path false) rfl
      (Task.steps_miss rfl rfl)
    have hbuilt := hlook.steps (i := 0) (t := ⟨path, false, [], .claim key (.root 0 path)⟩) rfl
      (Task.steps_build rfl rfl)
    simp only [es, after_append]
    exact (hbuilt.start path).steps (i := 1) (t := .ofPath 1 path false) rfl
      (Task.steps_miss rfl hnone)
  clear_value es
  refine ⟨[], fun _ => .ok [], [], es, 1, t, .root 1 path, ?_, rfl, ?_, fun n => ?_⟩
  · exact (congrArg (·[1]?) hclaim.tasks).trans rfl
  · exact (congrArg (fun shared => (shared.cache.lookup key).isSome) hclaim.shared).trans hsome
  · have hround := hclaim.steps (i := 1) (t := t) rfl (Task.steps_rounds rfl rfl hsome hnone n)
    exact ⟨hround.setting.trans hclaim.setting.symm, hround.shared.trans hclaim.shared.symm,
      hround.tasks.trans hclaim.tasks.symm⟩

/-- A task that goes round is back at its claim, where it should have its answer. -/
lemma FoundAgain.not_spins (h : FoundAgain path) : ¬ Spins path := by
  rintro ⟨pipeline, sources, gates, es, i, t, stack, ht, hp, hc, hround⟩
  obtain ⟨shader, hshader⟩ := Option.isSome_iff_exists.1 hc
  have hdeliver := h pipeline sources gates es i t stack shader [] ht hp hshader (by simp)
  have hback := (hround 1).tasks
  rw [show ([.step i] ++ [] ++ [.step i] : List Event) = List.replicate (2 * 1) (.step i) from rfl,
    hback, ht] at hdeliver
  have hphase := congrArg Task.phase (Option.some.inj hdeliver)
  rw [hp] at hphase
  cases hphase

/-- **Which files are found again.**  A file that is met in the cache at its claim is found by the next
look, in every state of every run, exactly if its path's normal form is its own; and exactly if it is
not, there is a run in which a task asks for it for ever and neither gets it, builds it nor waits. -/
theorem found_again_iff (path : String) :
    (FoundAgain path ↔ Path.normalize (Path.normalize path) = Path.normalize path) ∧
    (Spins path ↔ Path.normalize (Path.normalize path) ≠ Path.normalize path) := by
  refine ⟨⟨fun hfound => ?_, foundAgain_of_settled⟩, fun hspins h => ?_, spins_of_unsettled⟩
  · by_contra hne
    exact hfound.not_spins (spins_of_unsettled hne)
  · exact (foundAgain_of_settled h).not_spins hspins

/-- The normal form of `/ a` begins with a blank, which its own normal form drops. -/
theorem not_foundAgain_slash_blank : ¬ FoundAgain "/ a" := by
  have hne : Path.normalize (Path.normalize "/ a") ≠ Path.normalize "/ a" := by decide +kernel
  intro h
  exact h.not_spins (spins_of_unsettled hne)

end Session

end Shading
