import Shading.Text.Blank

/-!
# Paths

The normal form of the path of a shader file: the scheme `local://` is dropped, backslashes count as
slashes, empty and `.` segments are left out, and `..` takes back the segment before it.

* `Path.segments`, `Path.join` — a path as its segments, and back (`join_segments`);
* `Path.resolve` — the segments that are left;
* `Path.normalize` — the normal form.
-/

namespace Shading

namespace Path

/-- The pieces of a text between slashes. -/
def segments : List Char → List (List Char)
  | [] => [[]]
  | c :: cs =>
    if c = '/' then [] :: segments cs
    else match segments cs with
      | [] => [[c]]
      | s :: ss => (c :: s) :: ss

theorem segments_ne_nil (cs : List Char) : segments cs ≠ [] := by
  cases cs with
  | nil => simp [segments]
  | cons c cs =>
    rw [segments]
    split
    · simp
    · split <;> simp

/-- One segment after the segments kept so far, the last of which comes first. -/
def keep (kept : List (List Char)) (segment : List Char) : List (List Char) :=
  match segment with
  | [] => kept
  | ['.'] => kept
  | ['.', '.'] => kept.tail
  | _ => segment :: kept

/-- The segments that are left when `.` and `..` have been worked off. -/
def resolve (ss : List (List Char)) : List (List Char) := (ss.foldl keep []).reverse

/-- Segments joined by slashes. -/
def join : List (List Char) → List Char
  | [] => []
  | [s] => s
  | s :: ss => s ++ '/' :: join ss

theorem join_cons {s : List Char} {ss : List (List Char)} (h : ss ≠ []) :
    join (s :: ss) = s ++ '/' :: join ss := by
  cases ss with
  | nil => exact absurd rfl h
  | cons _ _ => rfl

theorem join_segments (cs : List Char) : join (segments cs) = cs := by
  induction cs with
  | nil => rfl
  | cons c cs ih =>
    rw [segments]
    split
    · next h => rw [join_cons (segments_ne_nil cs), ih, h]; rfl
    · split
      · next h => exact absurd h (segments_ne_nil cs)
      · next s ss h =>
        rw [h] at ih
        rw [← ih]
        cases ss <;> rfl

/-- A slash for a backslash. -/
def slash (c : Char) : Char := if c = '\\' then '/' else c

/-- The scheme that a path may carry. -/
def scheme : List Char := ['l', 'o', 'c', 'a', 'l', ':', '/', '/']

/-- The text without the scheme, if it begins with it. -/
def dropScheme (cs : List Char) : List Char :=
  if cs.take scheme.length = scheme then cs.drop scheme.length else cs

/-- The characters of the normal form. -/
def normalizeChars (cs : List Char) : List Char :=
  join (resolve (segments (dropScheme ((Text.trim cs).map slash))))

/-- The normal form of a path. -/
def normalize (path : String) : String := String.ofList (normalizeChars path.toList)

end Path

end Shading
