import Shading.Include.BuildTable
import Shading.Proofs.Acyclic

/-!
# The wait graph

A chain waits on another when it waits for a file that the other one builds.  The check made before a
wait follows these edges, and it finds a way back exactly when there is one, although it gives up
after a bounded number of steps.  Hence no change to a build table closes a loop.

* `BuildTable.WaitsOn` — the edges;
* `closesCycle_iff` — what the check finds;
* `closesCycle_iff_exists_walk` — the same as walks along the files;
* `acyclic_begin`, `acyclic_wait` and their like — no change closes a loop.
-/

namespace Shading

open Relation

namespace BuildTable

variable (t : BuildTable)

/-- The chain that builds a file. -/
def builder? (key : String) : Option Nat := (t.build? key).map (·.chain)

/-- The chain `c` waits for a file that the chain `d` builds. -/
def WaitsOn (c d : Nat) : Prop := ∃ key, t.waitsFor? c = some key ∧ t.builder? key = some d

variable {t}

/-! ### Builders after a change -/

lemma builder?_eq_some {key : String} {c : Nat} :
    t.builder? key = some c ↔ ∃ b, t.build? key = some b ∧ b.chain = c := by
  unfold builder?
  rw [Option.map_eq_some_iff]

@[simp] lemma builder?_begin_self (key : String) (b : Build) :
    (t.begin key b).builder? key = some b.chain := by
  simp [builder?]

lemma builder?_begin_of_ne {key other : String} (b : Build) (h : other ≠ key) :
    (t.begin key b).builder? other = t.builder? other := by
  simp [builder?, build?_begin_of_ne _ b h]

@[simp] lemma builder?_finish_self (key : String) : (t.finish key).builder? key = none := by
  simp [builder?]

lemma builder?_finish_of_ne {key other : String} (h : other ≠ key) :
    (t.finish key).builder? other = t.builder? other := by
  simp [builder?, build?_finish_of_ne _ h]

@[simp] lemma builder?_wait (c : Nat) (key other : String) :
    (t.wait c key).builder? other = t.builder? other := rfl

@[simp] lemma builder?_wake (c : Nat) (key : String) : (t.wake c).builder? key = t.builder? key := rfl

@[simp] lemma waitsFor?_begin (key : String) (b : Build) (c : Nat) :
    (t.begin key b).waitsFor? c = t.waitsFor? c := rfl

@[simp] lemma waitsFor?_finish (key : String) (c : Nat) :
    (t.finish key).waitsFor? c = t.waitsFor? c := rfl

@[simp] lemma waitsFor?_leave_self (c : Nat) : (t.leave c).waitsFor? c = none :=
  lookup_filter_self c t.waiting

lemma waitsFor?_leave_of_ne {c d : Nat} (h : d ≠ c) : (t.leave c).waitsFor? d = t.waitsFor? d :=
  lookup_filter_of_ne t.waiting h

/-- **Builders after a chain has left.**  Every file stands at most once among the builds, so that
taking out a chain's builds uncovers no other. -/
lemma builder?_leave (hkeys : (t.building.map (·.1)).Nodup) (c : Nat) (key : String) :
    (t.leave c).builder? key = if t.builder? key = some c then none else t.builder? key := by
  have main : ∀ m : List (String × Build), (m.map (·.1)).Nodup →
      ((m.filter (·.2.chain != c)).lookup key).map (·.chain) =
        if (m.lookup key).map (·.chain) = some c then none else (m.lookup key).map (·.chain) := by
    intro m
    induction m with
    | nil => simp
    | cons e m ih =>
      obtain ⟨k, b⟩ := e
      intro hm
      obtain ⟨hk, hrest⟩ := List.nodup_cons.1 hm
      by_cases hkey : key = k
      · subst hkey
        have hnone : m.lookup key = none := by
          refine List.lookup_eq_none_iff.2 fun p hp => ?_
          have : key ≠ p.1 := fun h => hk (h ▸ List.mem_map.2 ⟨p, hp, rfl⟩)
          simpa using this
        by_cases hb : b.chain = c
        · have := ih hrest
          rw [hnone] at this
          simpa [hb] using this
        · simp [hb]
      · have hne : (key == k) = false := by simpa using hkey
        by_cases hb : b.chain = c
        · simp [hb, ih hrest, List.lookup_cons, hne]
        · simp [hb, ih hrest, List.lookup_cons, hne]
  exact main t.building hkeys

/-! ### What the check finds -/

lemma leadsTo_succ {c n : Nat} {key : String} :
    t.leadsTo c (n + 1) key = true ↔ ∃ d, t.builder? key = some d ∧
      (d = c ∨ ∃ next, t.waitsFor? d = some next ∧ t.leadsTo c n next = true) := by
  rw [leadsTo, builder?]
  cases t.build? key with
  | none => simp
  | some b => simp [Option.any_eq_true]

lemma waitsOn_of_leadsTo {c : Nat} : ∀ {n : Nat} {key : String}, t.leadsTo c n key = true →
    ∃ d, t.builder? key = some d ∧ ReflTransGen t.WaitsOn d c
  | 0, _, h => by simp [leadsTo] at h
  | n + 1, key, h => by
    obtain ⟨d, hd, rfl | ⟨next, hnext, h⟩⟩ := leadsTo_succ.1 h
    · exact ⟨d, hd, .refl⟩
    · obtain ⟨e, he, hec⟩ := waitsOn_of_leadsTo h
      exact ⟨d, hd, hec.head ⟨next, hnext, he⟩⟩

/-- A chain waits on at most one other. -/
lemma WaitsOn.unique {c d e : Nat} (hd : t.WaitsOn c d) (he : t.WaitsOn c e) : d = e := by
  obtain ⟨key, hw, hb⟩ := hd
  obtain ⟨key', hw', hb'⟩ := he
  obtain rfl : key = key' := Option.some.inj (hw.symm.trans hw')
  exact Option.some.inj (hb.symm.trans hb')

lemma WaitsOn.wake {c d e : Nat} (h : t.WaitsOn d e) (hne : d ≠ c) : (t.wake c).WaitsOn d e := by
  obtain ⟨key, hw, hb⟩ := h
  exact ⟨key, by rwa [waitsFor?_wake_of_ne t hne], by simpa using hb⟩

/-- From the point after `d`, a walk need not come through `d` again: it could only go on as before. -/
lemma reflTransGen_wake {c d e : Nat} (hde : t.WaitsOn d e) (h : ReflTransGen t.WaitsOn e c) :
    ReflTransGen (t.wake d).WaitsOn e c := by
  have walk : ∀ a, ReflTransGen t.WaitsOn a c →
      ReflTransGen (t.wake d).WaitsOn a c ∨ ReflTransGen (t.wake d).WaitsOn e c := by
    intro a ha
    induction ha using ReflTransGen.head_induction_on with
    | refl => exact .inl .refl
    | @head a b hab _ ih =>
      by_cases had : a = d
      · subst had
        obtain rfl := hab.unique hde
        exact .inr (ih.elim id id)
      · exact ih.imp_left fun ih => ih.head (hab.wake had)
  exact (walk e h).elim id id

lemma leadsTo_of_wake {c d : Nat} : ∀ {n : Nat} {key : String},
    (t.wake d).leadsTo c n key = true → t.leadsTo c n key = true
  | 0, _, h => by simp [leadsTo] at h
  | n + 1, key, h => by
    obtain ⟨e, he, h⟩ := leadsTo_succ.1 h
    refine leadsTo_succ.2 ⟨e, by simpa using he, h.imp_right ?_⟩
    rintro ⟨next, hnext, h⟩
    have hne : e ≠ d := by rintro rfl; simp at hnext
    exact ⟨next, by rwa [waitsFor?_wake_of_ne t hne] at hnext, leadsTo_of_wake h⟩

lemma length_wake_lt {c : Nat} {key : String} (h : t.waitsFor? c = some key) :
    (t.wake c).waiting.length < t.waiting.length := by
  unfold wake
  refine List.length_filter_lt_length_iff_exists.2 ?_
  by_contra hno
  have : t.waitsFor? c = none := List.lookup_eq_none_iff.2 fun p hp => by
    by_contra hc
    have hc : c = p.1 := by simpa using hc
    exact hno ⟨p, hp, by simp [hc]⟩
  rw [h] at this
  cases this

/-- A walk takes each wait at most once, so the number of waits bounds the steps that are needed. -/
lemma leadsTo_of_waitsOn {c : Nat} : ∀ (n : Nat) (t : BuildTable) {key : String} {d : Nat},
    t.waiting.length ≤ n → t.builder? key = some d → ReflTransGen t.WaitsOn d c →
      t.leadsTo c (n + 1) key = true := by
  intro n
  induction n with
  | zero =>
    intro t key d hn hd h
    refine leadsTo_succ.2 ⟨d, hd, ?_⟩
    rcases h.cases_head with rfl | ⟨e, ⟨next, hnext, -⟩, -⟩
    · exact .inl rfl
    · exact absurd (length_wake_lt hnext) (by omega)
  | succ n ih =>
    intro t key d hn hd h
    refine leadsTo_succ.2 ⟨d, hd, ?_⟩
    rcases h.cases_head with rfl | ⟨e, hde, hec⟩
    · exact .inl rfl
    · obtain ⟨next, hnext, he⟩ := id hde
      have hlen := length_wake_lt hnext
      exact .inr ⟨next, hnext, leadsTo_of_wake (d := d)
        (ih (t.wake d) (by omega) (by simpa using he) (reflTransGen_wake hde hec))⟩

/-- **What the check finds**: the file is built by a chain that waits, through any number of others,
on the chain that asks. -/
theorem closesCycle_iff {c : Nat} {key : String} : t.closesCycle c key = true ↔
    ∃ d, t.builder? key = some d ∧ ReflTransGen t.WaitsOn d c :=
  ⟨waitsOn_of_leadsTo, fun ⟨_, hd, h⟩ => leadsTo_of_waitsOn _ t le_rfl hd h⟩

/-! ### Walks along files -/

/-- A walk of `n` steps from a file: each file but the last is built by a chain that waits for the next
one, and the last is built by the chain `c`. -/
structure IsWalk (t : BuildTable) (c : Nat) (key : String) (n : Nat) (walk : Nat → String) : Prop where
  first : walk 0 = key
  next : ∀ i < n, ∃ d, t.builder? (walk i) = some d ∧ t.waitsFor? d = some (walk (i + 1))
  last : t.builder? (walk n) = some c

/-- A walk with one more file before it. -/
lemma IsWalk.cons {c d n : Nat} {key next : String} {walk : Nat → String} (h : t.IsWalk c next n walk)
    (hd : t.builder? key = some d) (hw : t.waitsFor? d = some next) :
    t.IsWalk c key (n + 1) (fun i => if i = 0 then key else walk (i - 1)) := by
  refine ⟨rfl, fun i hi => ?_, h.last⟩
  cases i with
  | zero => exact ⟨d, hd, by simpa [h.first] using hw⟩
  | succ i => exact h.next i (by omega)

lemma exists_walk_of_waitsOn {c d : Nat} {key : String} (hd : t.builder? key = some d)
    (h : ReflTransGen t.WaitsOn d c) : ∃ n walk, t.IsWalk c key n walk := by
  induction h using ReflTransGen.head_induction_on generalizing key with
  | refl => exact ⟨0, fun _ => key, rfl, by simp, hd⟩
  | head hde _ ih =>
    obtain ⟨next, hw, he⟩ := hde
    obtain ⟨n, walk, hwalk⟩ := ih he
    exact ⟨n + 1, _, hwalk.cons hd hw⟩

/-- The chains that build the files of a walk wait on one another. -/
lemma IsWalk.waitsOn {c n : Nat} {key : String} {walk : Nat → String} (h : t.IsWalk c key n walk) :
    ∃ d, t.builder? key = some d ∧ ReflTransGen t.WaitsOn d c := by
  induction n generalizing key walk with
  | zero => exact ⟨c, h.first ▸ h.last, .refl⟩
  | succ n ih =>
    obtain ⟨d, hd, hw⟩ := h.next 0 (by omega)
    have hrest : t.IsWalk c (walk 1) n fun i => walk (i + 1) :=
      ⟨rfl, fun i hi => h.next (i + 1) (by omega), h.last⟩
    obtain ⟨e, he, hec⟩ := ih hrest
    exact ⟨d, h.first ▸ hd, hec.head ⟨walk 1, hw, he⟩⟩

/-- **The check is exact**, whatever the table holds, also a loop that does not pass through the chain
that asks: it finds a walk from the file to one that the chain builds just if there is one, of whatever
length. -/
theorem closesCycle_iff_exists_walk (t : BuildTable) (c : Nat) (key : String) :
    t.closesCycle c key = true ↔ ∃ n walk, t.IsWalk c key n walk := by
  rw [closesCycle_iff]
  constructor
  · rintro ⟨d, hd, h⟩
    exact exists_walk_of_waitsOn hd h
  · rintro ⟨n, walk, h⟩
    exact h.waitsOn

/-! ### No change closes a loop -/

/-- A chain that does not wait may begin any build: those who wait for the file now wait on a chain
that waits on nobody. -/
theorem acyclic_begin {key : String} {b : Build} (h : Acyclic t.WaitsOn)
    (hb : t.waitsFor? b.chain = none) : Acyclic (t.begin key b).WaitsOn := by
  refine h.of_sink (i := b.chain) ?_ ?_
  · rintro c d ⟨k, hw, hd⟩
    by_cases hk : k = key
    · subst hk
      rw [builder?_begin_self] at hd
      exact .inr (Option.some.inj hd).symm
    · rw [builder?_begin_of_ne b hk] at hd
      exact .inl ⟨k, hw, hd⟩
  · rintro d ⟨k, hw, -⟩
    rw [waitsFor?_begin, hb] at hw
    cases hw

theorem acyclic_finish (h : Acyclic t.WaitsOn) (key : String) : Acyclic (t.finish key).WaitsOn := by
  refine h.mono ?_
  rintro c d ⟨k, hw, hd⟩
  by_cases hk : k = key
  · subst hk
    simp at hd
  · exact ⟨k, hw, by rwa [builder?_finish_of_ne hk] at hd⟩

/-- A wait that passes the check closes no loop. -/
theorem acyclic_wait {c : Nat} {key : String} (h : Acyclic t.WaitsOn)
    (hc : t.closesCycle c key = false) : Acyclic (t.wait c key).WaitsOn := by
  have old : ∀ a b, (t.wait c key).WaitsOn a b → a ≠ c → t.WaitsOn a b := by
    rintro a b ⟨k, hw, hb⟩ hne
    exact ⟨k, by rwa [waitsFor?_wait_of_ne t key hne] at hw, hb⟩
  have new : ∀ b, (t.wait c key).WaitsOn c b → t.builder? key = some b := by
    rintro b ⟨k, hw, hb⟩
    rw [waitsFor?_wait_self] at hw
    rwa [← Option.some.inj hw] at hb
  cases hd : t.builder? key with
  | none =>
    refine h.mono fun a b hab => old a b hab ?_
    rintro rfl
    rw [new b hab] at hd
    cases hd
  | some d =>
    refine h.add_edge (i := c) (d := d) ?_ ?_
    · intro a b hab
      by_cases ha : a = c
      · subst ha
        exact .inr ⟨rfl, Option.some.inj ((new b hab).symm.trans hd)⟩
      · exact .inl (old a b hab ha)
    · intro hback
      rw [closesCycle_iff.2 ⟨d, hd, hback⟩] at hc
      cases hc

theorem acyclic_wake (h : Acyclic t.WaitsOn) (c : Nat) : Acyclic (t.wake c).WaitsOn := by
  refine h.mono ?_
  rintro a b ⟨k, hw, hb⟩
  have hne : a ≠ c := by rintro rfl; simp at hw
  exact ⟨k, by rwa [waitsFor?_wake_of_ne t hne] at hw, hb⟩

theorem acyclic_leave (hkeys : (t.building.map (·.1)).Nodup) (h : Acyclic t.WaitsOn) (c : Nat) :
    Acyclic (t.leave c).WaitsOn := by
  refine h.mono ?_
  rintro a b ⟨k, hw, hb⟩
  have hne : a ≠ c := by rintro rfl; simp at hw
  rw [waitsFor?_leave_of_ne hne] at hw
  rw [builder?_leave hkeys] at hb
  split at hb
  · cases hb
  · exact ⟨k, hw, hb⟩

end BuildTable

end Shading
