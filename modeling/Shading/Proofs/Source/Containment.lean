import Shading.Proofs.Include.NormalForm
import Shading.Source.Folder

/-!
# No path leads out of the folder

A source is looked for under the normal form of its path.  Its names are the plain segments of the
normal form, each of which leads one folder down, so that the place it is looked for at is the folder
itself or lies below it, and what stands around the folder does not matter.

* `Folder.Inside` — the folder itself or a place below it;
* `Folder.names_normalize` — the names of a normal form are its segments;
* `Folder.follow_of_down`, `Folder.follow_congr` — where such names lead, and what is seen on the way;
* `Folder.opens_inside` — a source is always looked for inside.
-/

namespace Shading.Folder

open Shading.Path (Plain)

/-- The folder itself or a place below it: no name on the way leads out. -/
def Inside (place : Place) : Prop := ".." ∉ place ∧ "/" ∉ place

/-- A name that leads one folder down. -/
structure Down (name : String) : Prop where
  ne_dot : name ≠ "."
  ne_dots : name ≠ ".."
  ne_slash : name ≠ "/"

lemma Inside.concat {here : Place} {name : String} (h : Inside here) (hname : Down name) :
    Inside (here ++ [name]) := by
  refine ⟨?_, ?_⟩
  · simpa using ⟨h.1, hname.ne_dots.symm⟩
  · simpa using ⟨h.2, hname.ne_slash.symm⟩

lemma inside_of_down {names : List String} (h : ∀ name ∈ names, Down name) : Inside names :=
  ⟨fun hdots => (h _ hdots).ne_dots rfl, fun hslash => (h _ hslash).ne_slash rfl⟩

/-! ### The names of a normal form -/

lemma ofList_ne {s t : List Char} (h : s ≠ t) : String.ofList s ≠ String.ofList t :=
  fun heq => h (String.ofList_injective heq)

lemma down_of_plain {s : List Char} (h : Plain s) : Down (String.ofList s) where
  ne_dot := ofList_ne h.ne_dot
  ne_dots := ofList_ne h.ne_dots
  ne_slash := ofList_ne (t := ['/']) (by rintro rfl; simpa using h.no_slash)

/-- Joined plain segments are the names of a path that starts in the folder. -/
lemma names_join {ss : List (List Char)} (h : ∀ s ∈ ss, Plain s) :
    names (String.ofList (Path.join ss)) = ss.map String.ofList := by
  unfold names
  rw [String.toList_ofList]
  by_cases hne : ss = []
  · subst hne
    decide
  · rw [Path.segments_join hne fun s hs => (h s hs).no_slash]
    have hfilter : (ss.map String.ofList).filter (· != "") = ss.map String.ofList := by
      refine List.filter_eq_self.2 fun name hname => ?_
      obtain ⟨s, hs, rfl⟩ := List.mem_map.1 hname
      exact bne_iff_ne.2 (ofList_ne (t := []) (h s hs).ne_nil)
    have hlast : (ss.map String.ofList).getLast? ≠ some "" := by
      intro hempty
      obtain ⟨s, hs, heq⟩ := List.mem_map.1 (List.mem_of_getLast? hempty)
      exact ofList_ne (t := []) (h s hs).ne_nil heq
    simp only [hfilter, hlast, decide_false, Bool.false_and, Bool.false_eq_true, if_false]

/-- **The names of a normal form are its segments.** -/
theorem names_normalize (path : String) :
    names (Path.normalize path) = (Path.parts path.toList).map String.ofList :=
  names_join (Path.plain_parts path.toList)

lemma down_names (path : String) : ∀ name ∈ names (Path.normalize path), Down name := by
  rw [names_normalize]
  intro name hname
  obtain ⟨s, hs, rfl⟩ := List.mem_map.1 hname
  exact down_of_plain (Path.plain_parts path.toList s hs)

lemma start_normalize (path : String) : start (Path.normalize path) = [] := by
  unfold start Path.normalize
  rw [String.toList_ofList, if_neg (Path.head?_normalizeChars path.toList)]

/-! ### Where they lead -/

lemma step_of_down {name : String} (h : Down name) (here : Place) : step here name = here ++ [name] := by
  simp [step, h.ne_dot, h.ne_dots]

/-- **Names that lead down** lead to the place that they name, from wherever they start. -/
lemma follow_of_down {f : Folder} {here place : Place} {names : List String}
    (hdown : ∀ name ∈ names, Down name) (h : f.follow here names = .ok place) :
    place = here ++ names := by
  induction names generalizing here with
  | nil => simpa [follow] using h.symm
  | cons name names ih =>
    obtain ⟨hname, hnames⟩ := List.forall_mem_cons.1 hdown
    unfold follow at h
    split at h
    · cases h
    · cases h
    · split at h
      · cases h
      · rw [step_of_down hname] at h
        simpa using ih hnames h

/-- The two folders hold the same, inside. -/
def AgreeInside (f f' : Folder) : Prop := ∀ place, Inside place → f.node? place = f'.node? place

variable {f f' : Folder}

/-- **What is seen on the way** stands inside. -/
lemma follow_congr (hagree : f.AgreeInside f') {here : Place} {names : List String}
    (hhere : Inside here) (hdown : ∀ name ∈ names, Down name) :
    f.follow here names = f'.follow here names := by
  induction names generalizing here with
  | nil => rfl
  | cons name names ih =>
    obtain ⟨hname, hnames⟩ := List.forall_mem_cons.1 hdown
    unfold follow
    rw [hagree here hhere, step_of_down hname, ih (hhere.concat hname) hnames]

lemma locate_normalize {path : String} {place : Place} (h : f.locate (Path.normalize path) = .ok place) :
    place = names (Path.normalize path) := by
  unfold locate at h
  split at h
  · cases h
  · split at h
    · cases h
    · rw [start_normalize] at h
      rw [follow_of_down (down_names path) h, List.nil_append]

lemma locate_congr (hagree : f.AgreeInside f') (path : String) :
    f.locate (Path.normalize path) = f'.locate (Path.normalize path) := by
  have hempty : Inside [] := ⟨by simp, by simp⟩
  unfold locate
  rw [start_normalize, follow_congr hagree hempty (down_names path)]

/-- What a normal form leads to stands inside. -/
lemma resolve_congr (hagree : f.AgreeInside f') (path : String) :
    f.resolve (Path.normalize path) = f'.resolve (Path.normalize path) := by
  unfold resolve
  rw [← locate_congr hagree]
  cases hplace : f.locate (Path.normalize path) with
  | error fault => rfl
  | ok place =>
    have hinside : Inside place := by
      rw [locate_normalize hplace]
      exact inside_of_down (down_names path)
    simp only [bind, Except.bind]
    rw [hagree place hinside]

/-- **No path leads out of the folder.**  Whatever a path is made of, its normal form is joined from
plain segments, of which none is empty, `.` or `..` and none has a slash or a backslash, and it begins
with no slash.  Followed from any place, the normal form leads to that place or below it; followed from
the folder it leads to the place that the segments name, which is inside.  And the source that is opened
under the path, or the error, is the same for two folders that hold the same inside. -/
theorem opens_inside (path : String) :
    (∃ segments : List (List Char), (Path.normalize path).toList = Path.join segments ∧
      (∀ s ∈ segments, Plain s) ∧
      ∀ (f : Folder) (place : Place), f.locate (Path.normalize path) = .ok place →
        place = segments.map String.ofList ∧ Inside place) ∧
    (Path.normalize path).toList.head? ≠ some '/' ∧
    (∀ (f : Folder) (root place : Place), f.follow root (names (Path.normalize path)) = .ok place →
      root <+: place) ∧
    ∀ f f' : Folder, f.AgreeInside f' → ∀ root, f.openSource root path = f'.openSource root path := by
  have hchars : (Path.normalize path).toList = Path.normalizeChars path.toList := String.toList_ofList
  refine ⟨⟨Path.parts path.toList, hchars, Path.plain_parts path.toList, fun f place hplace => ?_⟩, ?_,
    ?_, ?_⟩
  · rw [locate_normalize hplace]
    exact ⟨names_normalize path, inside_of_down (down_names path)⟩
  · rw [hchars]
    exact Path.head?_normalizeChars path.toList
  · intro f root place hplace
    rw [follow_of_down (down_names path) hplace]
    exact List.prefix_append root _
  · intro f f' hagree root
    unfold openSource
    simp only
    rw [resolve_congr hagree path]

/-- A scheme, a root and more `..` than folders are worked off. -/
example : Path.normalize " local:///lib\\..\\../..//./etc/passwd" = "etc/passwd" := by decide +kernel

end Shading.Folder
