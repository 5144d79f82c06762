import Shading.Proofs.Session.Turn

/-!
# Runs of a session

A run is a list of events, each of which happens if it can.  Every interleaving of tasks is one.  What
a single event leaves true is true throughout a run, and an event is an act of one task, a task that
joins, or a change to the setting.

* `Session.after` — the session after a run;
* `Session.Change`, `happen_change` — what an event can be;
* `after_induction` — what every change keeps, a run keeps;
* `Session.Traced` — the tasks of a session and the events that began them;
* `forall_task_after` — what every act of a task keeps, every task of a run has.
-/

namespace Shading

/-- The task that an event is about. -/
def Event.task? : Event → Option Nat
  | .step i | .abort i | .cancel i | .drop i => some i
  | _ => none

/-- The path of the task that an event begins. -/
def Event.path? : Event → Option String
  | .start path _ | .startText path _ _ => some path
  | _ => none

lemma Event.path?_of_task? {e : Event} {i : Nat} (h : e.task? = some i) : e.path? = none := by
  cases e with
  | start | startText => cases h
  | _ => rfl

namespace Session

/-- The session after a run. -/
def after (s : Session) (es : List Event) : Session := es.foldl happen s

@[simp] lemma after_nil (s : Session) : s.after [] = s := rfl

@[simp] lemma after_cons (s : Session) (e : Event) (es : List Event) :
    s.after (e :: es) = (s.happen e).after es := rfl

lemma after_append (s : Session) (es es' : List Event) :
    s.after (es ++ es') = (s.after es).after es' := by
  unfold after
  rw [List.foldl_append]

/-- What an event can be, seen from the tasks. -/
inductive Change (s : Session) : Event → Session → Prop
  /-- A task acts. -/
  | acts {e : Event} {i : Nat} {t t' : Task} {shared' : Shared} {s' : Session} (he : e.task? = some i)
    (ht : s.tasks[i]? = some t) (h : Task.Acts s.setting i s.shared t shared' t')
    (hset : s'.setting = s.setting) (hshared : s'.shared = shared')
    (htasks : s'.tasks = s.tasks.set i t') : Change s e s'
  /-- The event cannot happen, or it comes too late. -/
  | still {e : Event} (he : e.path? = none) : Change s e s
  | start {path : String} {cancelled : Bool} : Change s (.start path cancelled)
      { s with tasks := s.tasks ++ [Task.ofPath s.tasks.length path cancelled] }
  | startText {path text : String} {cancelled : Bool} : Change s (.startText path text cancelled)
      { s with tasks := s.tasks ++ [Task.ofText s.tasks.length path text cancelled] }
  | release {path : String} : Change s (.release path)
      { s with setting := { s.setting with gates := s.setting.gates.filter (· != path) } }
  | replace {sources : String → Except Error (List Reading)} : Change s (.replace sources)
      { s with setting := { s.setting with sources } }

/-- **Every event is a change.** -/
theorem happen_change (s : Session) (e : Event) : s.Change e (s.happen e) := by
  have acts : ∀ {i : Nat} {t : Task} {r : Option (Shared × Task)}, e.task? = some i →
      s.tasks[i]? = some t →
      (∀ {shared' t'}, r = some (shared', t') → Task.Acts s.setting i s.shared t shared' t') →
      s.Change e ((r.bind fun p => some (s.put i p.1 p.2)).getD s) := by
    intro i t r he ht h
    cases r with
    | none => exact .still (Event.path?_of_task? he)
    | some p => exact .acts he ht (h rfl) rfl rfl rfl
  unfold happen
  cases e with
  | step i =>
    cases ht : s.tasks[i]? with
    | none => simpa [happen?, ht] using .still rfl
    | some t => simpa [happen?, ht] using! acts rfl ht fun h => .step h
  | abort i =>
    cases ht : s.tasks[i]? with
    | none => simpa [happen?, ht] using .still rfl
    | some t => simpa [happen?, ht] using! acts rfl ht fun h => .abort h
  | cancel i =>
    cases ht : s.tasks[i]? with
    | none => simpa [happen?, ht] using .still rfl
    | some t =>
      have h : s.Change (.cancel i) { s with tasks := s.tasks.set i { t with cancelled := true } } :=
        .acts rfl ht .cancel rfl rfl rfl
      simpa [happen?, ht] using h
  | drop i =>
    cases ht : s.tasks[i]? with
    | none => simpa [happen?, ht] using .still rfl
    | some t =>
      cases hp : t.isPending with
      | false => simpa [happen?, ht, hp] using .still rfl
      | true =>
        have h : s.Change (.drop i) { s with
            shared := { s.shared with table := s.shared.table.leave i }
            tasks := s.tasks.set i { t with frames := [], phase := .dropped } } :=
          .acts rfl ht (.drop hp) rfl rfl rfl
        simpa [happen?, ht, hp] using h
  | start path cancelled => exact .start
  | startText path text cancelled => exact .startText
  | release path => exact .release
  | replace sources => exact .replace

/-- **What every change keeps, a run keeps.** -/
theorem after_induction {P : Session → Prop} {s : Session} (es : List Event) (h : P s)
    (hstep : ∀ e ∈ es, ∀ s s', P s → s.Change e s' → P s') : P (s.after es) := by
  induction es generalizing s with
  | nil => exact h
  | cons e es ih =>
    have he : P (s.happen e) := hstep e List.mem_cons_self s _ h (s.happen_change e)
    exact ih he fun e he => hstep e (List.mem_cons_of_mem _ he)

/-! ### Tasks after a change -/

variable {s s' : Session} {i : Nat} {t t' : Task}

lemma lt_length_of_getElem? (ht : s.tasks[i]? = some t) : i < s.tasks.length :=
  (List.getElem?_eq_some_iff.1 ht).1

lemma getElem?_set_self (ht : s.tasks[i]? = some t) (htasks : s'.tasks = s.tasks.set i t') :
    s'.tasks[i]? = some t' := by
  rw [htasks, List.getElem?_set_self (lt_length_of_getElem? ht)]

lemma getElem?_set_of_ne {j : Nat} (htasks : s'.tasks = s.tasks.set i t') (h : j ≠ i) :
    s'.tasks[j]? = s.tasks[j]? := by
  rw [htasks, List.getElem?_set_ne (Ne.symm h)]

/-- A task of the session with one task changed is that task or an old one. -/
lemma getElem?_set_cases {j : Nat} {u : Task} (ht : s.tasks[i]? = some t)
    (htasks : s'.tasks = s.tasks.set i t') (hu : s'.tasks[j]? = some u) :
    (j = i ∧ u = t') ∨ (j ≠ i ∧ s.tasks[j]? = some u) := by
  by_cases hj : j = i
  · subst hj
    rw [getElem?_set_self ht htasks] at hu
    exact .inl ⟨rfl, (Option.some.inj hu).symm⟩
  · rw [getElem?_set_of_ne htasks hj] at hu
    exact .inr ⟨hj, hu⟩

/-- A task of the session with one task more is that task or an old one. -/
lemma getElem?_append_cases {j : Nat} {u : Task} (hu : (s.tasks ++ [t])[j]? = some u) :
    (j = s.tasks.length ∧ u = t) ∨ s.tasks[j]? = some u := by
  rcases lt_or_ge j s.tasks.length with hj | hj
  · rw [List.getElem?_append_left hj] at hu
    exact .inr hu
  · rw [List.getElem?_append_right hj, List.getElem?_singleton] at hu
    split at hu
    · exact .inl ⟨by omega, (Option.some.inj hu).symm⟩
    · cases hu

/-- An event that is about something else leaves a task where it is. -/
lemma Change.getElem?_of_ne {e : Event} (hc : s.Change e s') (he : e.task? ≠ some i)
    (ht : s.tasks[i]? = some t) : s'.tasks[i]? = some t := by
  cases hc with
  | acts hj _ _ _ _ htasks =>
    rw [getElem?_set_of_ne htasks, ht]
    rintro rfl
    exact he hj
  | start | startText =>
    rw [List.getElem?_append_left (lt_length_of_getElem? ht)]
    exact ht
  | _ => exact ht

lemma getElem?_after_of_ne {es : List Event} (hes : ∀ e ∈ es, e.task? ≠ some i)
    (ht : s.tasks[i]? = some t) : (s.after es).tasks[i]? = some t :=
  after_induction (P := fun s => s.tasks[i]? = some t) es ht fun e he _ _ ht hc =>
    hc.getElem?_of_ne (hes e he) ht

/-! ### What every task keeps -/

/-- The events of a run that begin tasks, in the order of the tasks' numbers. -/
def begun (es : List Event) : List Event := es.filter (·.path?.isSome)

lemma Change.resolver {e : Event} (h : s.Change e s') :
    s'.setting.resolver = s.setting.resolver := by
  cases h with
  | acts _ _ _ hset => rw [hset]
  | _ => rfl

/-- The tasks of a session belong to these events, each to the event that began it. -/
structure Traced (P : Event → Task → Prop) (s : Session) (first : List Event) : Prop where
  length : s.tasks.length = first.length
  each : ∀ (i : Nat) (t : Task), s.tasks[i]? = some t → ∃ e, first[i]? = some e ∧ P e t

section Traced

variable {P : Event → Task → Prop} {first : List Event} {e : Event}

/-- A task that joins gets the number of the event that begins it. -/
lemma Traced.join (h : s.Traced P first) (ht : P e t) (htasks : s'.tasks = s.tasks ++ [t]) :
    s'.Traced P (first ++ [e]) := by
  refine ⟨by rw [htasks]; simp [h.length], fun i u hu => ?_⟩
  rw [htasks] at hu
  rcases getElem?_append_cases hu with ⟨rfl, rfl⟩ | hu
  · exact ⟨e, by rw [h.length]; simp, ht⟩
  · obtain ⟨e', he', hP⟩ := h.each i u hu
    refine ⟨e', ?_, hP⟩
    rw [List.getElem?_append_left (List.getElem?_eq_some_iff.1 he').1, he']

lemma Traced.set (h : s.Traced P first) (ht : s.tasks[i]? = some t)
    (htasks : s'.tasks = s.tasks.set i t') (hP : ∀ e, P e t → P e t') : s'.Traced P first := by
  refine ⟨by rw [htasks, List.length_set, h.length], fun j u hu => ?_⟩
  rcases getElem?_set_cases ht htasks hu with ⟨rfl, rfl⟩ | ⟨-, hu⟩
  · obtain ⟨e, he, hPe⟩ := h.each _ t ht
    exact ⟨e, he, hP e hPe⟩
  · exact h.each j u hu

/-- **One change** traces the task that it begins, if it begins one. -/
lemma Traced.change {setting : Setting} (h : s.Traced P first) (hc : s.Change e s')
    (hr : s.setting.resolver = setting.resolver)
    (hacts : ∀ {e setting' i shared t shared' t'}, setting'.resolver = setting.resolver → P e t →
      Task.Acts setting' i shared t shared' t' → P e t')
    (hpath : ∀ i path cancelled, P (.start path cancelled) (Task.ofPath i path cancelled))
    (htext : ∀ i path text cancelled,
      P (.startText path text cancelled) (Task.ofText i path text cancelled)) :
    s'.Traced P (first ++ begun [e]) := by
  have stays : e.path? = none → first ++ begun [e] = first := fun he => by simp [begun, he]
  cases hc with
  | acts he ht hact _ _ htasks =>
    rw [stays (Event.path?_of_task? he)]
    exact h.set ht htasks fun e hP => hacts hr hP hact
  | still he =>
    rw [stays he]
    exact h
  | start => exact h.join (hpath _ _ _) rfl
  | startText => exact h.join (htext _ _ _ _) rfl
  | release | replace =>
    rw [stays rfl]
    exact ⟨h.length, h.each⟩

end Traced

/-- **What every task keeps.**  A property that ties a task to the event that began it, and that every
act keeps, holds of every task of a run. -/
theorem forall_task_after {P : Event → Task → Prop} (setting : Setting) (es : List Event)
    (hacts : ∀ {e setting' i shared t shared' t'}, setting'.resolver = setting.resolver → P e t →
      Task.Acts setting' i shared t shared' t' → P e t')
    (hpath : ∀ i path cancelled, P (.start path cancelled) (Task.ofPath i path cancelled))
    (htext : ∀ i path text cancelled,
      P (.startText path text cancelled) (Task.ofText i path text cancelled)) :
    ∀ (i : Nat) (t : Task), (({ setting } : Session).after es).tasks[i]? = some t →
      ∃ e, (begun es)[i]? = some e ∧ P e t := by
  have main : ∀ (es : List Event) (s : Session) (first : List Event), s.Traced P first →
      s.setting.resolver = setting.resolver → (s.after es).Traced P (first ++ begun es) := by
    intro es
    induction es with
    | nil =>
      intro s first h _
      simpa [begun] using h
    | cons e es ih =>
      intro s first h hr
      have hc := s.happen_change e
      have hnext := ih _ _ (h.change hc hr hacts hpath htext) (hc.resolver.trans hr)
      have hbegun : begun (e :: es) = begun [e] ++ begun es := List.filter_append [e] es
      rw [hbegun, ← List.append_assoc]
      exact hnext
  exact (main es { setting } [] ⟨rfl, by simp⟩ rfl).each

end Session

end Shading
