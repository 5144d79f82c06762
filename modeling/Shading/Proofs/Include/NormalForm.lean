import Mathlib.Data.List.Basic
import Shading.Include.Path

/-!
# Normal forms of paths

The normal form of a path is made of plain segments: none is empty, `.` or `..`, and no slash of either
kind is left in any.  Trimming, turning backslashes round and dropping the scheme only choose which
characters come before the segments are told apart, and `..` takes back a segment that was kept, so that
whatever a path begins with is worked off in the end.

* `Path.Plain` — what every segment of a normal form is;
* `Path.plain_parts` — only plain segments are kept;
* `Path.segments_join` — plain segments are told apart again;
* `Path.head?_normalizeChars` — a normal form begins with no slash.
-/

namespace Shading.Path

/-- A segment that names something: neither empty nor `.` nor `..`, and without slashes. -/
structure Plain (s : List Char) : Prop where
  ne_nil : s ≠ []
  ne_dot : s ≠ ['.']
  ne_dots : s ≠ ['.', '.']
  no_slash : '/' ∉ s
  no_backslash : '\\' ∉ s

/-! ### Segments -/

/-- A segment has characters of the text, and none of them is a slash. -/
lemma mem_segments {cs s : List Char} (hs : s ∈ segments cs) : ∀ c ∈ s, c ∈ cs ∧ c ≠ '/' := by
  induction cs generalizing s with
  | nil =>
    obtain rfl : s = [] := by simpa [segments] using hs
    simp
  | cons d cs ih =>
    have later : ∀ s' ∈ segments cs, ∀ c ∈ s', c ∈ d :: cs ∧ c ≠ '/' := by
      intro s' hs' c hc
      obtain ⟨hmem, hne⟩ := ih hs' c hc
      exact ⟨List.mem_cons_of_mem _ hmem, hne⟩
    rw [segments] at hs
    split at hs
    · rcases List.mem_cons.1 hs with rfl | hs
      · simp
      · exact later s hs
    · next hd =>
      split at hs
      · next hnone => exact absurd hnone (segments_ne_nil cs)
      · next first rest hfirst =>
        rcases List.mem_cons.1 hs with rfl | hs
        · intro c hc
          rcases List.mem_cons.1 hc with rfl | hc
          · exact ⟨List.mem_cons_self, hd⟩
          · exact later first (hfirst ▸ List.mem_cons_self) c hc
        · exact later s (hfirst ▸ List.mem_cons_of_mem _ hs)

lemma segments_of_no_slash {s : List Char} (h : '/' ∉ s) : segments s = [s] := by
  induction s with
  | nil => rfl
  | cons c s ih =>
    obtain ⟨hc, hs⟩ := not_or.1 (mt List.mem_cons.2 h)
    simp [segments, Ne.symm hc, ih hs]

lemma segments_append_slash {s : List Char} (h : '/' ∉ s) (cs : List Char) :
    segments (s ++ '/' :: cs) = s :: segments cs := by
  induction s with
  | nil => simp [segments]
  | cons c s ih =>
    obtain ⟨hc, hs⟩ := not_or.1 (mt List.mem_cons.2 h)
    simp [segments, Ne.symm hc, ih hs]

/-- **Segments without slashes are told apart again** when they have been joined. -/
theorem segments_join {ss : List (List Char)} (hne : ss ≠ []) (h : ∀ s ∈ ss, '/' ∉ s) :
    segments (join ss) = ss := by
  induction ss with
  | nil => exact absurd rfl hne
  | cons s ss ih =>
    obtain ⟨hs, hss⟩ := List.forall_mem_cons.1 h
    by_cases hlast : ss = []
    · subst hlast
      exact segments_of_no_slash hs
    · rw [join_cons hlast, segments_append_slash hs, ih hlast hss]

/-! ### Segments that are kept -/

/-- **One segment** leaves only plain segments. -/
lemma Plain.keep {kept : List (List Char)} {s : List Char} (h : ∀ k ∈ kept, Plain k)
    (hslash : '/' ∉ s) (hback : '\\' ∉ s) : ∀ k ∈ Path.keep kept s, Plain k := by
  unfold Path.keep
  split
  · exact h
  · exact h
  · intro k hk
    exact h k (List.mem_of_mem_tail hk)
  · next hnil hdot hdots =>
    exact List.forall_mem_cons.2 ⟨⟨hnil, hdot, hdots, hslash, hback⟩, h⟩

lemma Plain.resolve {ss : List (List Char)} (h : ∀ s ∈ ss, '/' ∉ s ∧ '\\' ∉ s) :
    ∀ s ∈ Path.resolve ss, Plain s := by
  have main : ∀ kept : List (List Char), (∀ k ∈ kept, Plain k) →
      ∀ s ∈ ss.foldl Path.keep kept, Plain s := by
    induction ss with
    | nil =>
      intro kept hkept
      exact hkept
    | cons s ss ih =>
      obtain ⟨⟨hslash, hback⟩, hss⟩ := List.forall_mem_cons.1 h
      intro kept hkept
      exact ih hss _ (Plain.keep hkept hslash hback)
  intro s hs
  exact main [] (by simp) s (List.mem_reverse.1 hs)

/-- What a path is cut into: slashes all turn one way, and the scheme is dropped. -/
def prepared (cs : List Char) : List Char := dropScheme ((Text.trim cs).map slash)

/-- The segments of the normal form. -/
def parts (cs : List Char) : List (List Char) := resolve (segments (prepared cs))

lemma normalizeChars_eq (cs : List Char) : normalizeChars cs = join (parts cs) := rfl

lemma slash_ne_backslash (c : Char) : slash c ≠ '\\' := by
  unfold slash
  split
  · decide
  · assumption

lemma backslash_not_mem_prepared (cs : List Char) : '\\' ∉ prepared cs := by
  have hmapped : '\\' ∉ (Text.trim cs).map slash := by
    intro hmem
    obtain ⟨c, -, hc⟩ := List.mem_map.1 hmem
    exact slash_ne_backslash c hc
  unfold prepared dropScheme
  split
  · exact fun hmem => hmapped (List.mem_of_mem_drop hmem)
  · exact hmapped

/-- **Every segment of a normal form is plain.** -/
theorem plain_parts (cs : List Char) : ∀ s ∈ parts cs, Plain s := by
  refine Plain.resolve fun s hs => ?_
  have hmem := mem_segments hs
  refine ⟨fun hslash => (hmem _ hslash).2 rfl, fun hback => ?_⟩
  exact backslash_not_mem_prepared cs (hmem _ hback).1

/-- **A normal form begins with no slash.** -/
theorem head?_normalizeChars (cs : List Char) : (normalizeChars cs).head? ≠ some '/' := by
  rw [normalizeChars_eq]
  have hplain := plain_parts cs
  cases hparts : parts cs with
  | nil => simp [join]
  | cons s ss =>
    rw [hparts] at hplain
    have hs : Plain s := hplain s List.mem_cons_self
    have hhead : (join (s :: ss)).head? = s.head? := by
      cases ss with
      | nil => rfl
      | cons _ _ => rw [join_cons (by simp), List.head?_append_of_ne_nil _ hs.ne_nil]
    rw [hhead]
    intro hslash
    exact hs.no_slash (List.mem_of_head? hslash)

end Shading.Path
