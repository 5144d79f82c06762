/-!
# Lines

A text is cut after each line feed, so that every line keeps its terminator and the lines put
together again are the text.  The content of a line is what stands before its terminator, which
is a line feed or a carriage return and a line feed.

* `splitAfter` — the pieces of a list, cut after each element that ends one;
* `flatten_splitAfter` — nothing is lost;
* `splitAfter_append_cons`, `splitAfter_of_forall` — the first piece, and the only one;
* `piece_induction` — what holds piece by piece holds of a list;
* `content` — a line without its terminator.
-/

namespace Shading.Text

variable {α : Type}

/-- The pieces of a list, cut after each element that ends one.  No piece is empty. -/
def splitAfter (ends : α → Bool) : List α → List (List α)
  | [] => []
  | x :: xs =>
    if ends x then [x] :: splitAfter ends xs
    else match splitAfter ends xs with
      | [] => [[x]]
      | piece :: pieces => (x :: piece) :: pieces

@[simp] theorem splitAfter_nil (ends : α → Bool) : splitAfter ends [] = [] := rfl

theorem flatten_splitAfter (ends : α → Bool) (xs : List α) : (splitAfter ends xs).flatten = xs := by
  induction xs with
  | nil => rfl
  | cons x xs ih =>
    rw [splitAfter]
    split
    · simp [ih]
    · split
      · next h => rw [h] at ih; simp [← ih]
      · next h => rw [← ih, h]; rfl

section

variable {ends : α → Bool} {piece : List α}

/-- The first piece goes up to the first element that ends one. -/
theorem splitAfter_append_cons (hpiece : ∀ y ∈ piece, ends y = false) {x : α} (hx : ends x = true)
    (rest : List α) :
    splitAfter ends (piece ++ x :: rest) = (piece ++ [x]) :: splitAfter ends rest := by
  induction piece with
  | nil => simp [splitAfter, hx]
  | cons y piece ih =>
    obtain ⟨hy, hpiece⟩ := List.forall_mem_cons.1 hpiece
    simp [splitAfter, hy, ih hpiece]

/-- What nothing ends is one piece. -/
theorem splitAfter_of_forall (hpiece : ∀ y ∈ piece, ends y = false) (hne : piece ≠ []) :
    splitAfter ends piece = [piece] := by
  induction piece with
  | nil => exact absurd rfl hne
  | cons y piece ih =>
    obtain ⟨hy, hpiece⟩ := List.forall_mem_cons.1 hpiece
    cases piece with
    | nil => simp [splitAfter, hy]
    | cons z piece =>
      rw [splitAfter, ih hpiece (by simp)]
      simp [hy]

/-- A list is read piece by piece: the last piece may have no element that ends it. -/
theorem piece_induction {P : List α → Prop} (ends : α → Bool) (nil : P [])
    (last : ∀ piece, (∀ y ∈ piece, ends y = false) → piece ≠ [] → P piece)
    (cons : ∀ piece x rest, (∀ y ∈ piece, ends y = false) → ends x = true → P rest →
      P (piece ++ x :: rest)) (xs : List α) : P xs := by
  -- the piece that is being read is put before the rest
  suffices h : ∀ piece, (∀ y ∈ piece, ends y = false) → P (piece ++ xs) from h [] (by simp)
  induction xs with
  | nil =>
    intro piece hpiece
    rw [List.append_nil]
    by_cases hne : piece = []
    · exact hne ▸ nil
    · exact last piece hpiece hne
  | cons x xs ih =>
    intro piece hpiece
    cases hx : ends x with
    | true => exact cons piece x xs hpiece hx (ih [] (by simp))
    | false =>
      rw [List.append_cons]
      refine ih (piece ++ [x]) fun y hy => ?_
      rcases List.mem_append.1 hy with hy | hy
      · exact hpiece y hy
      · exact List.mem_singleton.1 hy ▸ hx

/-- The pieces before another are the pieces of what they make together. -/
theorem splitAfter_flatten {xs : List α} {before later : List (List α)} {next : List α}
    (h : splitAfter ends xs = before ++ next :: later) : splitAfter ends before.flatten = before := by
  induction xs using piece_induction ends generalizing before with
  | nil => cases before <;> cases h
  | last piece hpiece hne =>
    rw [splitAfter_of_forall hpiece hne] at h
    cases before with
    | nil => rfl
    | cons first before => cases before <;> cases h
  | cons piece x rest hpiece hx ih =>
    rw [splitAfter_append_cons hpiece hx] at h
    cases before with
    | nil => rfl
    | cons first before =>
      obtain ⟨rfl, hrest⟩ := List.cons.inj h
      rw [List.flatten_cons, List.append_assoc, List.singleton_append,
        splitAfter_append_cons hpiece hx, ih hrest]

end

/-- The lines of a text, each with its terminator. -/
def lines (s : List Char) : List (List Char) := splitAfter (· == '\n') s

/-- A line without its terminator.  A carriage return counts as part of the terminator only
before a line feed. -/
def content (line : List Char) : List Char :=
  match line.reverse with
  | '\n' :: '\r' :: rest => rest.reverse
  | '\n' :: rest => rest.reverse
  | _ => line

end Shading.Text
