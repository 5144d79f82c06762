import Mathlib.Data.List.Forall2

/-!
# Results and errors

When a computation that may stop with an error gives a result, and when it fails: one step behind
another, and one for each element of a list.

* `bind_eq_ok_iff`, `mapM_eq_ok_iff` — the results of steps and of lists;
* `Fails` — an error, whichever;
* `fails_bind`, `fails_mapM` — where the error comes from.
-/

namespace Shading

/-! ### Results -/

lemma eq_ok_of_toOption {ε α : Type} {x : Except ε α} {a : α} (h : x.toOption = some a) : x = .ok a := by
  cases x with
  | error e => cases h
  | ok b => rw [Option.some.inj h]

lemma bind_eq_ok_iff {ε α β : Type} {x : Except ε α} {f : α → Except ε β} {b : β} :
    x >>= f = .ok b ↔ ∃ a, x = .ok a ∧ f a = .ok b := by
  cases x <;> simp [bind, Except.bind]

lemma mapError_eq_ok_iff {ε ε' α : Type} {x : Except ε α} {f : ε → ε'} {a : α} :
    x.mapError f = .ok a ↔ x = .ok a := by
  cases x <;> simp [Except.mapError]

/-- **Lists of results**: all are there exactly if each is. -/
lemma mapM_eq_ok_iff {ε α β : Type} {f : α → Except ε β} {xs : List α} {ys : List β} :
    xs.mapM f = .ok ys ↔ List.Forall₂ (fun x y => f x = .ok y) xs ys := by
  induction xs generalizing ys with
  | nil => simp [pure, Except.pure, eq_comm]
  | cons x xs ih =>
    rw [List.mapM_cons, List.forall₂_cons_left_iff]
    cases hx : f x with
    | error e => simp [bind, Except.bind]
    | ok y =>
      cases hxs : xs.mapM f with
      | error e =>
        have hno : ∀ zs, ¬ List.Forall₂ (fun x y => f x = .ok y) xs zs := fun zs hzs => by
          rw [← ih, hxs] at hzs
          cases hzs
        simp [bind, Except.bind, hno]
      | ok zs =>
        have hzs : ∀ zs', List.Forall₂ (fun x y => f x = .ok y) xs zs' ↔ zs = zs' := fun zs' => by
          rw [← ih, hxs, Except.ok.injEq]
        simp [bind, Except.bind, pure, Except.pure, hzs, eq_comm]

lemma exists_mapM_eq_ok {ε α β : Type} {f : α → Except ε β} {xs : List α}
    (h : ∀ x ∈ xs, ∃ y, f x = .ok y) : ∃ ys, xs.mapM f = .ok ys := by
  induction xs with
  | nil => exact ⟨[], rfl⟩
  | cons x xs ih =>
    obtain ⟨hx, hxs⟩ := List.forall_mem_cons.1 h
    obtain ⟨y, hy⟩ := hx
    obtain ⟨ys, hys⟩ := ih hxs
    exact ⟨y :: ys, mapM_eq_ok_iff.2 (.cons hy (mapM_eq_ok_iff.1 hys))⟩

lemma forall_mem_of_mapM {ε α β : Type} {f : α → Except ε β} {P : β → Prop} {xs : List α} {ys : List β}
    (h : xs.mapM f = .ok ys) (hP : ∀ x y, f x = .ok y → P y) : ∀ y ∈ ys, P y := by
  have hpairs := mapM_eq_ok_iff.1 h
  clear h
  induction hpairs with
  | nil => simp
  | cons hx _ ih => exact List.forall_mem_cons.2 ⟨hP _ _ hx, ih⟩

section

variable {α β : Type} {R : α → β → Prop}

/-- What belongs to two lists together belongs to the one and then to the other. -/
lemma exists_append_of_forall₂ {xs ys : List α} {zs : List β} (h : List.Forall₂ R (xs ++ ys) zs) :
    ∃ us vs, List.Forall₂ R xs us ∧ List.Forall₂ R ys vs ∧ zs = us ++ vs := by
  induction xs generalizing zs with
  | nil => exact ⟨[], zs, .nil, h, rfl⟩
  | cons x xs ih =>
    obtain ⟨z, zs, hx, hrest, rfl⟩ := List.forall₂_cons_left_iff.1 h
    obtain ⟨us, vs, hus, hvs, rfl⟩ := ih hrest
    exact ⟨z :: us, vs, .cons hx hus, hvs, rfl⟩

/-- Two lists whose elements belong together are a list of pairs. -/
lemma exists_pairs_of_forall₂ {xs : List α} {ys : List β} (h : List.Forall₂ R xs ys) :
    ∃ pairs : List (α × β), pairs.map (·.1) = xs ∧ pairs.map (·.2) = ys ∧ ∀ pair ∈ pairs, R pair.1 pair.2 := by
  induction h with
  | nil => exact ⟨[], rfl, rfl, by simp⟩
  | @cons x y _ _ hxy _ ih =>
    obtain ⟨pairs, rfl, rfl, hpairs⟩ := ih
    exact ⟨(x, y) :: pairs, rfl, rfl, List.forall_mem_cons.2 ⟨hxy, hpairs⟩⟩

lemma forall_mem_of_forall₂ {P : β → Prop} {xs : List α} {ys : List β} (h : List.Forall₂ R xs ys)
    (hP : ∀ x ∈ xs, ∀ y, R x y → P y) : ∀ y ∈ ys, P y := by
  induction h with
  | nil => simp
  | cons hxy _ ih =>
    obtain ⟨hx, hxs⟩ := List.forall_mem_cons.1 hP
    exact List.forall_mem_cons.2 ⟨hx _ hxy, ih hxs⟩

lemma exists_mem_of_forall₂ {xs : List α} {ys : List β} {x : α} (h : List.Forall₂ R xs ys)
    (hx : x ∈ xs) : ∃ y ∈ ys, R x y := by
  induction h with
  | nil => cases hx
  | @cons x' y' _ _ hxy _ ih =>
    rcases List.mem_cons.1 hx with rfl | hx
    · exact ⟨y', List.mem_cons_self, hxy⟩
    · obtain ⟨y, hy, hxy⟩ := ih hx
      exact ⟨y, List.mem_cons_of_mem _ hy, hxy⟩

end

/-! ### Errors -/

/-- There is no result, only an error. -/
def Fails {ε α : Type} (x : Except ε α) : Prop := ∃ e, x = .error e

section

variable {ε α β : Type} {x : Except ε α} {f : α → Except ε β} {P : Prop}

@[simp] lemma fails_error (e : ε) : Fails (.error e : Except ε α) := ⟨e, rfl⟩

@[simp] lemma not_fails_ok (a : α) : ¬ Fails (.ok a : Except ε α) := by simp [Fails]

@[simp] lemma not_fails_pure (a : α) : ¬ Fails (pure a : Except ε α) := not_fails_ok a

/-- The error is that of the first step or that of the second, if the second fails or not whatever the
first gives. -/
lemma fails_bind (h : ∀ a, Fails (f a) ↔ P) : Fails (x >>= f) ↔ Fails x ∨ P := by
  cases x with
  | error e => simp [bind, Except.bind]
  | ok a => simpa [bind, Except.bind] using h a

/-- A last step without an error. -/
lemma fails_bind_pure (g : α → β) : Fails (x >>= fun a => pure (g a)) ↔ Fails x := by
  rw [fails_bind (P := False) (by simp), or_false]

/-- **The error of a list** is that of one of its elements. -/
lemma fails_mapM (xs : List α) : Fails (xs.mapM f) ↔ ∃ a ∈ xs, Fails (f a) := by
  induction xs with
  | nil => simp
  | cons a xs ih =>
    rw [List.mapM_cons, fails_bind fun _ => fails_bind_pure _, ih, List.exists_mem_cons_iff]

end

end Shading
