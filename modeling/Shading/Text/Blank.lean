/-!
# Blank characters

The characters that separate words, and the text left when they are cut from both ends.

* `isBlank` — the characters of the property White_Space;
* `trim` — a text without the blanks at its two ends;
* `trimStart_eq_self_iff`, `trimEnd_eq_self_iff` — nothing is cut exactly when the end in question is
  not blank;
* `trim_concat` — a blank at the end does not matter.
-/

namespace Shading.Text

/-- A character of the property White_Space. -/
def isBlank (c : Char) : Bool :=
  let n := c.toNat
  (9 ≤ n && n ≤ 13) || n == 0x20 || n == 0x85 || n == 0xA0 || n == 0x1680 ||
    (0x2000 ≤ n && n ≤ 0x200A) || n == 0x2028 || n == 0x2029 || n == 0x202F || n == 0x205F ||
    n == 0x3000

/-- The text without the blanks at its start. -/
def trimStart (s : List Char) : List Char := s.dropWhile isBlank

/-- The text without the blanks at its end. -/
def trimEnd (s : List Char) : List Char := (trimStart s.reverse).reverse

/-- The text without the blanks at its two ends. -/
def trim (s : List Char) : List Char := trimEnd (trimStart s)

theorem trimStart_eq_self_iff (s : List Char) :
    trimStart s = s ↔ ∀ c ∈ s.head?, isBlank c = false := by
  cases s with
  | nil => simp [trimStart]
  | cons c s =>
    cases hc : isBlank c with
    | false => simp [trimStart, hc]
    | true =>
      have hlen : (s.dropWhile isBlank).length ≤ s.length := (List.dropWhile_sublist _).length_le
      simp only [trimStart, List.dropWhile_cons, hc, if_true, List.head?_cons, Option.mem_some_iff,
        forall_eq', Bool.true_eq_false, iff_false]
      intro h
      have := congrArg List.length h
      simp only [List.length_cons] at this
      omega

theorem trimEnd_eq_self_iff (s : List Char) :
    trimEnd s = s ↔ ∀ c ∈ s.getLast?, isBlank c = false := by
  rw [trimEnd, List.reverse_eq_iff, trimStart_eq_self_iff, List.head?_reverse]

/-- A blank at the end is cut. -/
theorem trim_concat {c : Char} (hc : isBlank c = true) (s : List Char) : trim (s ++ [c]) = trim s := by
  unfold trim trimStart
  rw [List.dropWhile_append]
  split
  · next hblank => simp [List.isEmpty_iff.1 hblank, hc]
  · simp [trimEnd, trimStart, hc]

end Shading.Text
