/-!
# Build tables

Which files are being built, by which compilation, and which file each waiting compilation waits for.
A compilation must not wait for a file when the wait would close a loop of compilations, each waiting
for a file that the next one builds.

* `BuildTable.closesCycle` — whether a wait would close such a loop;
* `build?_begin_self`, `waitsFor?_wake_self` and their like — what a change does to the two views.
-/

namespace Shading

/-- A build in progress: the chain that builds, and the number of the build. -/
structure Build where
  chain : Nat
  ticket : Nat
deriving DecidableEq, Repr

/-- The builds in progress by file, and the files waited for by chain. -/
structure BuildTable where
  building : List (String × Build) := []
  waiting : List (Nat × String) := []
deriving DecidableEq, Repr

namespace BuildTable

/-- The build of a file. -/
def build? (t : BuildTable) (key : String) : Option Build := t.building.lookup key

/-- The file that a chain waits for. -/
def waitsFor? (t : BuildTable) (chain : Nat) : Option String := t.waiting.lookup chain

/-- Follows files and the chains that build them, for at most `n` files, until one is built by the
chain. -/
def leadsTo (t : BuildTable) (chain : Nat) : Nat → String → Bool
  | 0, _ => false
  | n + 1, key =>
    match t.build? key with
    | none => false
    | some build =>
      build.chain == chain || (t.waitsFor? build.chain).any fun next => t.leadsTo chain n next

/-- Whether a chain that waited for a file would close a loop.  A walk that does not come back takes
each wait at most once. -/
def closesCycle (t : BuildTable) (chain : Nat) (key : String) : Bool :=
  t.leadsTo chain (t.waiting.length + 1) key

/-- Begins a build. -/
def begin (t : BuildTable) (key : String) (build : Build) : BuildTable :=
  { t with building := (key, build) :: t.building.filter (·.1 != key) }

/-- Ends the build of a file. -/
def finish (t : BuildTable) (key : String) : BuildTable :=
  { t with building := t.building.filter (·.1 != key) }

/-- A chain begins to wait for a file. -/
def wait (t : BuildTable) (chain : Nat) (key : String) : BuildTable :=
  { t with waiting := (chain, key) :: t.waiting.filter (·.1 != chain) }

/-- A chain ends its wait. -/
def wake (t : BuildTable) (chain : Nat) : BuildTable :=
  { t with waiting := t.waiting.filter (·.1 != chain) }

/-- Ends all builds and the wait of a chain. -/
def leave (t : BuildTable) (chain : Nat) : BuildTable where
  building := t.building.filter (·.2.chain != chain)
  waiting := t.waiting.filter (·.1 != chain)

/-! ## Looking up after a change -/

section Lookup

variable {κ β : Type} [BEq κ] [LawfulBEq κ]

theorem lookup_filter_self (k : κ) (m : List (κ × β)) : (m.filter (·.1 != k)).lookup k = none := by
  induction m with
  | nil => rfl
  | cons e m ih =>
    obtain ⟨j, b⟩ := e
    by_cases h : j = k
    · rw [List.filter_cons_of_neg (by simp [h]), ih]
    · have hk : (k == j) = false := by simpa using Ne.symm h
      rw [List.filter_cons_of_pos (by simpa using h), List.lookup_cons, hk, ih]

theorem lookup_filter_of_ne {k k' : κ} (m : List (κ × β)) (h : k' ≠ k) :
    (m.filter (·.1 != k)).lookup k' = m.lookup k' := by
  induction m with
  | nil => rfl
  | cons e m ih =>
    obtain ⟨j, b⟩ := e
    by_cases he : j = k
    · have hk : (k' == k) = false := by simpa using h
      simp [he, List.lookup_cons, ih, hk]
    · simp [he, List.lookup_cons, ih]

end Lookup

variable (t : BuildTable)

@[simp] theorem build?_begin_self (key : String) (b : Build) : (t.begin key b).build? key = some b := by
  simp [begin, build?]

theorem build?_begin_of_ne {key other : String} (b : Build) (h : other ≠ key) :
    (t.begin key b).build? other = t.build? other := by
  have hk : (other == key) = false := by simpa using h
  simp [begin, build?, List.lookup_cons, hk, lookup_filter_of_ne _ h]

@[simp] theorem build?_finish_self (key : String) : (t.finish key).build? key = none :=
  lookup_filter_self key t.building

theorem build?_finish_of_ne {key other : String} (h : other ≠ key) :
    (t.finish key).build? other = t.build? other :=
  lookup_filter_of_ne t.building h

@[simp] theorem waitsFor?_wait_self (chain : Nat) (key : String) :
    (t.wait chain key).waitsFor? chain = some key := by
  simp [wait, waitsFor?]

theorem waitsFor?_wait_of_ne {chain other : Nat} (key : String) (h : other ≠ chain) :
    (t.wait chain key).waitsFor? other = t.waitsFor? other := by
  have hk : (other == chain) = false := by simpa using h
  simp [wait, waitsFor?, List.lookup_cons, hk, lookup_filter_of_ne _ h]

@[simp] theorem waitsFor?_wake_self (chain : Nat) : (t.wake chain).waitsFor? chain = none :=
  lookup_filter_self chain t.waiting

theorem waitsFor?_wake_of_ne {chain other : Nat} (h : other ≠ chain) :
    (t.wake chain).waitsFor? other = t.waitsFor? other :=
  lookup_filter_of_ne t.waiting h

end BuildTable

end Shading
