import Shading.Proofs.Session.Ledger

/-!
# Single flight

A file that is in the cache is not being built, save for the moment between the end of its build and
the release of its claim; so it is not opened again, and its entry is never written over.  A file is
opened at most once more often than builds of it were lost.

* `Session.Flight` — where cached files, claims and answers stand to each other;
* `Session.lookup_after` — an entry of the cache stays as it is;
* `Session.lost` — the builds that ended without an entry in the cache;
* `Session.opened_le` — how often a file is opened.
-/

namespace Shading

namespace Task

variable {setting : Setting} {i : Nat} {shared shared' : Shared} {t t' : Task}

/-- **The cache only grows**, and no entry is written over. -/
lemma Turn.lookup_cache {key : String} {shader : Shader} (h : Turn setting i shared t shared' t')
    (hkey : shared.cache.lookup key = some shader) : shared'.cache.lookup key = some shader := by
  cases h with
  | @publishes frame frames hp hf hcl hc =>
    have hne : (key == frame.path) = false := by
      have : key ≠ frame.path := by
        rintro rfl
        rw [hc] at hkey
        cases hkey
      simpa using this
    simp [List.lookup_cons, hne, hkey]
  | releases | unwinds =>
    unfold withoutFrame
    split <;> exact hkey
  | _ => exact hkey

/-- A new entry of the cache is a claimed file that has just been finished. -/
lemma Turn.lookup_cache_cases {key : String} {shader : Shader} (h : Turn setting i shared t shared' t')
    (hkey : shared'.cache.lookup key = some shader) :
    shared.cache.lookup key = some shader ∨ ∃ answer frame frames, t' = t.goTo (.release answer) ∧
      t.phase = .publish ∧ t.frames = frame :: frames ∧ frame.claimed = true ∧ frame.path = key := by
  cases h with
  | @publishes frame frames hp hf hcl hc =>
    by_cases hk : frame.path = key
    · exact .inr ⟨_, frame, frames, rfl, hp, hf, hcl, hk⟩
    · have hne : (key == frame.path) = false := by simpa using Ne.symm hk
      exact .inl (by simpa [List.lookup_cons, hne] using hkey)
  | releases | unwinds =>
    unfold withoutFrame at hkey
    split at hkey <;> exact .inl hkey
  | _ => exact .inl hkey

lemma Turn.filed (h : t.Filed) (hturn : Turn setting i shared t shared' t') : t'.Filed := by
  cases hturn with
  | quiet hq => exact hq.filed
  | marks => exact h
  | @publishes frame frames hp hf hcl hc =>
    rintro answer g gs ha hg
    obtain rfl : _ = answer := by simpa using ha
    obtain ⟨rfl, -⟩ : frame = g ∧ frames = gs := by simpa [hf] using hg
    simp [hcl]
  | wakes _ hphase => rcases hphase with rfl | rfl <;> simp [Filed]
  | loads | begins => simp [Filed, enter]
  | _ => simp [Filed]

/-- An answer that a turn puts at hand was there before, or stands in the cache if it is kept. -/
lemma Turn.answer {answer : Answer} {key : String} (h : Turn setting i shared t shared' t')
    (ha : t'.answer? = some answer) (hkey : answer.cachedAs = some key) :
    t.answer? = some answer ∨ shared'.cache.lookup key = some answer.shader := by
  cases h with
  | quiet hq => exact (hq.answer answer ha).imp_right fun h => h key hkey
  | marks => exact .inl ha
  | publishes hp hf hcl hc =>
    obtain rfl : _ = answer := by simpa [answer?] using ha
    obtain rfl : _ = key := by simpa using hkey
    exact .inr (by simp)
  | releases hp hf => exact .inl (by simpa [answer?, hp] using ha)
  | wakes _ hphase => rcases hphase with rfl | rfl <;> simp [answer?] at ha
  | loads | begins => simp [answer?, enter] at ha
  | _ => simp [answer?] at ha

/-- Whether a task is about to open a file. -/
def isOpening (t : Task) (key : String) : Bool :=
  match t.phase, t.frames with
  | .openSource, frame :: _ => frame.path == key
  | _, _ => false

end Task

namespace Session

/-- Where cached files, claims and answers stand to each other. -/
structure Flight (s : Session) : Prop where
  balanced : s.Balanced
  /-- Files come from the cache or from builds. -/
  caching : ∃ skip, s.setting.resolver = .cache skip
  filed : ∀ (i : Nat) (t : Task), s.tasks[i]? = some t → t.Filed
  /-- A claimed file is in the cache only when its claim is about to be released. -/
  released : ∀ (i : Nat) (t : Task) (key : String) (shader : Shader), s.tasks[i]? = some t →
    key ∈ t.claims → s.shared.cache.lookup key = some shader →
    ∃ answer frame frames, t.phase = .release answer ∧ t.frames = frame :: frames ∧
      frame.claimed = true ∧ frame.path = key
  /-- A file that is about to be opened is claimed. -/
  opening : ∀ (i : Nat) (t : Task) (frame : Frame) (frames : List Frame), s.tasks[i]? = some t →
    t.phase = .openSource → t.frames = frame :: frames → frame.claimed = true
  /-- Every answer that is kept is the entry of the cache. -/
  answers : ∀ (i : Nat) (t : Task) (answer : Answer) (key : String), s.tasks[i]? = some t →
    t.answer? = some answer → answer.cachedAs = some key →
    s.shared.cache.lookup key = some answer.shader

variable {s s' : Session} {i : Nat} {t t' : Task}

/-- A file that is about to be opened is not in the cache. -/
lemma Flight.lookup_opening {frame : Frame} {frames : List Frame} (h : s.Flight)
    (ht : s.tasks[i]? = some t) (hp : t.phase = .openSource) (hf : t.frames = frame :: frames) :
    s.shared.cache.lookup frame.path = none := by
  have hcl := h.opening i t frame frames ht hp hf
  cases hc : s.shared.cache.lookup frame.path with
  | none => rfl
  | some shader =>
    have hmem : frame.path ∈ t.claims := Task.mem_claims.2 ⟨frame, by simp [hf], hcl, rfl⟩
    obtain ⟨answer, _, _, hp', -⟩ := h.released i t frame.path shader ht hmem hc
    rw [hp] at hp'
    cases hp'

/-- A cached file is claimed by nobody but a task that is about to release it. -/
lemma Flight.phase_ne {key : String} {shader : Shader} (h : s.Flight) (ht : s.tasks[i]? = some t)
    (hmem : key ∈ t.claims) (hr : ∀ answer, t.phase ≠ .release answer) :
    s.shared.cache.lookup key ≠ some shader := by
  intro hc
  obtain ⟨answer, _, _, hp, -⟩ := h.released i t key shader ht hmem hc
  exact hr answer hp

/-- What the task of a turn has claimed and finds in the cache, it is about to release. -/
lemma Flight.released_turn {shared' : Shared} {key : String} {shader : Shader} (h : s.Flight)
    (ht : s.tasks[i]? = some t) (hturn : Task.Turn s.setting i s.shared t shared' t')
    (hmem : key ∈ t'.claims) (hc : shared'.cache.lookup key = some shader) :
    ∃ answer frame frames, t'.phase = .release answer ∧ t'.frames = frame :: frames ∧
      frame.claimed = true ∧ frame.path = key := by
  rcases hturn.lookup_cache_cases hc with hold | ⟨answer, frame, frames, rfl, hp, hf, hcl, hkey⟩
  swap
  · exact ⟨answer, frame, frames, rfl, hf, hcl, hkey⟩
  have absurd_of : key ∈ t.claims → (∀ answer, t.phase ≠ .release answer) → False :=
    fun hmem hr => h.phase_ne ht hmem hr hold
  cases hturn with
  | quiet hq => exact (absurd_of (hq.claims ▸ hmem) hq.unreleased).elim
  | marks => exact h.released i t key shader ht hmem hold
  | loads hr hp =>
    obtain ⟨skip, hskip⟩ := h.caching
    rw [hr] at hskip
    cases hskip
  | begins hp hcache hb =>
    rw [Task.claims_enter, if_pos rfl] at hmem
    rcases List.mem_cons.1 hmem with rfl | hmem
    · rw [hcache] at hold
      cases hold
    · exact (absurd_of hmem (by simp [hp])).elim
  | waits hp | wakes hp | opens hp | publishes hp => exact (absurd_of hmem (by simp [hp])).elim
  | @releases answer frame frames hp hf =>
    have hcons := Task.claims_cons hf
    have hnodup : t.claims.Nodup := claims_eq ht ▸ h.balanced.nodup i
    split at hcons
    · obtain ⟨_, g, gs, -, hg, -, rfl⟩ := h.released i t key shader ht
        (by rw [hcons]; exact List.mem_cons_of_mem _ hmem) hold
      obtain ⟨rfl, -⟩ : frame = g ∧ frames = gs := by simpa [hf] using hg
      rw [hcons] at hnodup
      exact absurd hmem (List.nodup_cons.1 hnodup).1
    · next hcl =>
      obtain ⟨_, g, gs, -, hg, hgcl, -⟩ := h.released i t key shader ht (by rw [hcons]; exact hmem) hold
      obtain ⟨rfl, -⟩ : frame = g ∧ frames = gs := by simpa [hf] using hg
      exact absurd hgcl hcl
  | unwinds hp hf =>
    have hcons := Task.claims_cons hf
    refine (absurd_of ?_ (by simp [hp])).elim
    split at hcons
    · rw [hcons]
      exact List.mem_cons_of_mem _ hmem
    · rw [hcons]
      exact hmem
  | leaves => simp [Task.claims] at hmem

lemma Flight.opening_turn {shared' : Shared} {frame : Frame} {frames : List Frame} (h : s.Flight)
    (ht : s.tasks[i]? = some t) (hturn : Task.Turn s.setting i s.shared t shared' t')
    (hp : t'.phase = .openSource) (hf : t'.frames = frame :: frames) : frame.claimed = true := by
  cases hturn with
  | quiet hq => exact absurd hp hq.unopened
  | marks => exact h.opening i t frame frames ht hp hf
  | loads hr =>
    obtain ⟨skip, hskip⟩ := h.caching
    rw [hr] at hskip
    cases hskip
  | begins =>
    obtain ⟨rfl, -⟩ : _ = frame ∧ _ = frames := by simpa [Task.enter] using hf
    rfl
  | wakes _ hphase => rcases hphase with rfl | rfl <;> cases hp
  | _ => cases hp

/-- **One turn keeps claims, cache and answers in order.** -/
lemma Flight.turn {shared' : Shared} (h : s.Flight) (ht : s.tasks[i]? = some t)
    (hturn : Task.Turn s.setting i s.shared t shared' t') (hset : s'.setting = s.setting)
    (hshared : s'.shared = shared') (htasks : s'.tasks = s.tasks.set i t') : s'.Flight where
  balanced := h.balanced.turn ht hturn hshared htasks
  caching := hset ▸ h.caching
  filed j u hu := by
    rcases getElem?_set_cases ht htasks hu with ⟨-, rfl⟩ | ⟨-, hu⟩
    · exact hturn.filed (h.filed i t ht)
    · exact h.filed j u hu
  released j u key shader hu hmem hc := by
    rw [hshared] at hc
    rcases getElem?_set_cases ht htasks hu with ⟨-, rfl⟩ | ⟨hj, hu⟩
    · exact h.released_turn ht hturn hmem hc
    · rcases hturn.lookup_cache_cases hc with hold | ⟨_, frame, frames, -, -, hf, hcl, rfl⟩
      · exact h.released j u key shader hu hmem hold
      · have hmem' : frame.path ∈ t.claims := Task.mem_claims.2 ⟨frame, by simp [hf], hcl, rfl⟩
        exact absurd (h.balanced.unique (claims_eq hu ▸ hmem) (claims_eq ht ▸ hmem')) hj
  opening j u frame frames hu hp hf := by
    rcases getElem?_set_cases ht htasks hu with ⟨-, rfl⟩ | ⟨-, hu⟩
    · exact h.opening_turn ht hturn hp hf
    · exact h.opening j u frame frames hu hp hf
  answers j u answer key hu ha hkey := by
    rw [hshared]
    rcases getElem?_set_cases ht htasks hu with ⟨-, rfl⟩ | ⟨-, hu⟩
    · rcases hturn.answer ha hkey with hold | hnew
      · exact hturn.lookup_cache (h.answers i t answer key ht hold hkey)
      · exact hnew
    · exact hturn.lookup_cache (h.answers j u answer key hu ha hkey)

/-- A task that joins has nothing claimed, opened or answered. -/
lemma Flight.join (h : s.Flight) (hclaims : t.claims = []) (hawaits : t.awaited? = none)
    (hanswer : t.answer? = none) (hfiled : t.Filed) (hopen : t.phase ≠ .openSource) :
    ({ s with tasks := s.tasks ++ [t] } : Session).Flight where
  balanced := h.balanced.join hclaims hawaits
  caching := h.caching
  filed j u hu := by
    rcases getElem?_append_cases hu with ⟨-, rfl⟩ | hu
    · exact hfiled
    · exact h.filed j u hu
  released j u key shader hu hmem hc := by
    rcases getElem?_append_cases hu with ⟨-, rfl⟩ | hu
    · rw [hclaims] at hmem
      cases hmem
    · exact h.released j u key shader hu hmem hc
  opening j u frame frames hu hp hf := by
    rcases getElem?_append_cases hu with ⟨-, rfl⟩ | hu
    · exact absurd hp hopen
    · exact h.opening j u frame frames hu hp hf
  answers j u answer key hu ha hkey := by
    rcases getElem?_append_cases hu with ⟨-, rfl⟩ | hu
    · rw [hanswer] at ha
      cases ha
    · exact h.answers j u answer key hu ha hkey

lemma Flight.change {e : Event} (h : s.Flight) (hc : s.Change e s') : s'.Flight := by
  cases hc with
  | acts _ ht hacts hset hshared htasks => exact h.turn ht hacts.turn hset hshared htasks
  | still => exact h
  | start => exact h.join rfl rfl rfl (by simp [Task.Filed, Task.ofPath]) (by simp [Task.ofPath])
  | startText => exact h.join rfl rfl rfl (by simp [Task.Filed, Task.ofText]) (by simp [Task.ofText])
  | release => exact ⟨h.balanced, h.caching, h.filed, h.released, h.opening, h.answers⟩
  | replace => exact ⟨h.balanced, h.caching, h.filed, h.released, h.opening, h.answers⟩

theorem Flight.after (h : s.Flight) (es : List Event) : (s.after es).Flight :=
  after_induction es h fun _ _ _ _ h hc => h.change hc

lemma flight_start {setting : Setting} (h : ∃ skip, setting.resolver = .cache skip) :
    ({ setting } : Session).Flight :=
  ⟨Ledger.empty, h, by simp, by simp, by simp, by simp⟩

/-! ### Entries of the cache -/

/-- **An entry of the cache stays as it is.** -/
theorem lookup_after {key : String} {shader : Shader} (h : s.shared.cache.lookup key = some shader)
    (es : List Event) : (s.after es).shared.cache.lookup key = some shader := by
  refine after_induction (P := fun s => s.shared.cache.lookup key = some shader) es h ?_
  intro e _ s s' h hc
  cases hc with
  | acts _ ht hacts _ hshared _ =>
    rw [hshared]
    exact hacts.turn.lookup_cache h
  | _ => exact h

lemma Flight.opened_change {e : Event} {key : String} {shader : Shader} (h : s.Flight)
    (hkey : s.shared.cache.lookup key = some shader) (hc : s.Change e s') :
    s'.shared.opened.count key = s.shared.opened.count key := by
  cases hc with
  | acts _ ht hacts _ hshared _ =>
    rw [hshared]
    cases hacts.turn with
    | @opens frame frames hp hf =>
      have hne : frame.path ≠ key := by
        rintro rfl
        rw [h.lookup_opening ht hp hf] at hkey
        cases hkey
      simp [hne]
    | releases | unwinds =>
      unfold Task.withoutFrame
      split <;> rfl
    | _ => rfl
  | _ => rfl

/-- **A cached file is not opened again.** -/
theorem Flight.opened_after {key : String} {shader : Shader} (h : s.Flight)
    (hkey : s.shared.cache.lookup key = some shader) (es : List Event) :
    (s.after es).shared.opened.count key = s.shared.opened.count key := by
  have main : ((s.after es).Flight ∧ (s.after es).shared.cache.lookup key = some shader) ∧
      (s.after es).shared.opened.count key = s.shared.opened.count key := by
    refine after_induction (P := fun s' => (s'.Flight ∧ s'.shared.cache.lookup key = some shader) ∧
      s'.shared.opened.count key = s.shared.opened.count key) es ⟨⟨h, hkey⟩, rfl⟩ ?_
    rintro e - s₁ s₂ ⟨⟨h₁, hkey₁⟩, hcount⟩ hc
    refine ⟨⟨h₁.change hc, ?_⟩, (h₁.opened_change hkey₁ hc).trans hcount⟩
    cases hc with
    | acts _ ht hacts _ hshared _ =>
      rw [hshared]
      exact hacts.turn.lookup_cache hkey₁
    | _ => exact hkey₁
  exact main.2

/-! ### How often a file is opened -/

/-- Whether a file is in the cache. -/
def isCached (s : Session) (key : String) : Bool := (s.shared.cache.lookup key).isSome

/-- Whether a build of a file is in progress. -/
def isBuilding (s : Session) (key : String) : Bool := s.tasks.any (·.claims.contains key)

/-- Whether an event ends a build of a file and leaves no entry in the cache: the build ended in an
error, or it was told to stop or dropped. -/
def loses (s : Session) (key : String) (e : Event) : Bool :=
  s.isBuilding key && !(s.happen e).isBuilding key && !(s.happen e).isCached key

/-- The number of builds of a file that are lost in a run. -/
def lost (s : Session) (key : String) : List Event → Nat
  | [] => 0
  | e :: es => (s.loses key e).toNat + (s.happen e).lost key es

/-- Whether a build of a file has opened it, or needs to no more. -/
def isSpent (s : Session) (key : String) : Bool :=
  s.isCached key || s.tasks.any fun t => t.claims.contains key && !t.isOpening key

lemma isBuilding_iff {key : String} : s.isBuilding key = true ↔
    ∃ (i : Nat) (t : Task), s.tasks[i]? = some t ∧ key ∈ t.claims := by
  unfold isBuilding
  rw [List.any_eq_true]
  constructor
  · rintro ⟨t, ht, hkey⟩
    obtain ⟨i, hi⟩ := List.mem_iff_getElem?.1 ht
    exact ⟨i, t, hi, by simpa using hkey⟩
  · rintro ⟨i, t, hi, hkey⟩
    exact ⟨t, List.mem_iff_getElem?.2 ⟨i, hi⟩, by simpa using hkey⟩

lemma isSpent_iff {key : String} : s.isSpent key = true ↔ s.isCached key = true ∨
    ∃ (i : Nat) (t : Task), s.tasks[i]? = some t ∧ key ∈ t.claims ∧ t.isOpening key = false := by
  unfold isSpent
  rw [Bool.or_eq_true, List.any_eq_true]
  refine or_congr_right ?_
  constructor
  · rintro ⟨t, ht, hkey⟩
    obtain ⟨i, hi⟩ := List.mem_iff_getElem?.1 ht
    exact ⟨i, t, hi, by simpa using hkey⟩
  · rintro ⟨i, t, hi, hkey⟩
    exact ⟨t, List.mem_iff_getElem?.2 ⟨i, hi⟩, by simpa using hkey⟩

lemma isCached_turn {shared' : Shared} {key : String} (h : s.isCached key = true)
    (hturn : Task.Turn s.setting i s.shared t shared' t') (hshared : s'.shared = shared') :
    s'.isCached key = true := by
  obtain ⟨shader, hkey⟩ := Option.isSome_iff_exists.1 h
  unfold isCached
  rw [hshared, hturn.lookup_cache hkey]
  rfl

/-- A claim that its task gives up is nobody's. -/
lemma Flight.not_isBuilding {key : String} (h : s.Flight) (ht : s.tasks[i]? = some t)
    (htasks : s'.tasks = s.tasks.set i t') (hmem : key ∈ t.claims) (hnot : key ∉ t'.claims) :
    s'.isBuilding key = false := by
  by_contra hb
  obtain ⟨j, u, hu, hkey⟩ := isBuilding_iff.1 (by simpa using hb)
  rcases getElem?_set_cases ht htasks hu with ⟨-, rfl⟩ | ⟨hj, hu⟩
  · exact hnot hkey
  · exact hj (h.balanced.unique (claims_eq hu ▸ hkey) (claims_eq ht ▸ hmem))

/-- **A file counts as opened until its build is lost.** -/
lemma Flight.spent_turn {shared' : Shared} {key : String} (h : s.Flight) (ht : s.tasks[i]? = some t)
    (hturn : Task.Turn s.setting i s.shared t shared' t') (hshared : s'.shared = shared')
    (htasks : s'.tasks = s.tasks.set i t') (hs : s.isSpent key = true) : s'.isSpent key = true ∨
      s.isBuilding key = true ∧ s'.isBuilding key = false ∧ s'.isCached key = false := by
  rw [isSpent_iff]
  by_cases hcached : s'.isCached key = true
  · exact .inl (.inl hcached)
  have hcached' : s'.isCached key = false := by simpa using hcached
  obtain hc | ⟨j, u, hu, hmem, hopen⟩ := isSpent_iff.1 hs
  · exact absurd (isCached_turn hc hturn hshared) hcached
  by_cases hj : j = i
  swap
  · exact .inl (.inr ⟨j, u, by rwa [getElem?_set_of_ne htasks hj], hmem, hopen⟩)
  subst hj
  obtain rfl : t = u := Option.some.inj (ht.symm.trans hu)
  -- either the task still holds the claim, and is past opening the file, or it has given it up
  by_cases hmem' : key ∈ t'.claims
  swap
  · exact .inr ⟨isBuilding_iff.2 ⟨j, t, ht, hmem⟩, h.not_isBuilding ht htasks hmem hmem', hcached'⟩
  refine .inl (.inr ⟨j, t', getElem?_set_self ht htasks, hmem', ?_⟩)
  cases hturn with
  | quiet hq =>
    unfold Task.isOpening
    split
    · next hp _ => exact absurd hp hq.unopened
    · rfl
  | marks => exact hopen
  | loads hr =>
    obtain ⟨skip, hskip⟩ := h.caching
    rw [hr] at hskip
    cases hskip
  | @begins key' stack hp hc hb =>
    have hne : key' ≠ key := by
      rintro rfl
      obtain ⟨b, hb', -⟩ := BuildTable.builder?_eq_some.1
        ((h.balanced.builder_iff key' j).2 (claims_eq ht ▸ hmem))
      rw [hb] at hb'
      cases hb'
    simpa [Task.isOpening, Task.enter] using hne
  | wakes _ hphase => rcases hphase with rfl | rfl <;> rfl
  | _ => rfl

/-- A task that joins spends nothing. -/
lemma isSpent_join {key : String} (hs : s.isSpent key = true) :
    ({ s with tasks := s.tasks ++ [t] } : Session).isSpent key = true := by
  rw [isSpent_iff] at hs ⊢
  refine hs.imp_right ?_
  rintro ⟨j, u, hu, hkey⟩
  refine ⟨j, u, ?_, hkey⟩
  rw [List.getElem?_append_left (lt_length_of_getElem? hu)]
  exact hu

lemma Flight.spent_change {e : Event} {key : String} (h : s.Flight) (hc : s.Change e s')
    (hs : s.isSpent key = true) : s'.isSpent key = true ∨
      s.isBuilding key = true ∧ s'.isBuilding key = false ∧ s'.isCached key = false := by
  cases hc with
  | acts _ ht hacts _ hshared htasks => exact h.spent_turn ht hacts.turn hshared htasks hs
  | start => exact .inl (isSpent_join hs)
  | startText => exact .inl (isSpent_join hs)
  | _ => exact .inl hs

/-- A file is opened only while the opening is not spent, and that spends it. -/
lemma Flight.opened_cases {e : Event} {key : String} (h : s.Flight) (hc : s.Change e s') :
    s'.shared.opened.count key = s.shared.opened.count key ∨
      s.isSpent key = false ∧ s'.isSpent key = true ∧
        s'.shared.opened.count key = s.shared.opened.count key + 1 := by
  cases hc with
  | @acts _ i t _ _ _ _ ht hacts _ hshared htasks =>
    rw [hshared]
    cases hacts.turn with
    | @opens frame frames hp hf =>
      by_cases hk : frame.path = key
      swap
      · exact .inl (by simp [hk])
      have hcl := h.opening i t frame frames ht hp hf
      have hmem : key ∈ t.claims := Task.mem_claims.2 ⟨frame, by simp [hf], hcl, hk⟩
      refine .inr ⟨?_, isSpent_iff.2 (.inr ⟨i, _, getElem?_set_self ht htasks, hmem, rfl⟩), ?_⟩
      · by_contra hs
        rcases isSpent_iff.1 (by simpa using hs) with hcached | ⟨j, u, hu, hmem', hopen⟩
        · have hnone := h.lookup_opening ht hp hf
          rw [hk] at hnone
          simp [isCached, hnone] at hcached
        · obtain rfl : i = j := h.balanced.unique (claims_eq ht ▸ hmem) (claims_eq hu ▸ hmem')
          obtain rfl : t = u := Option.some.inj (ht.symm.trans hu)
          simp [Task.isOpening, hp, hf, hk] at hopen
      · simp [hk]
    | releases | unwinds =>
      unfold Task.withoutFrame
      split <;> exact .inl rfl
    | _ => exact .inl rfl
  | _ => exact .inl rfl

/-- **The balance of openings.**  Every opening is paid for by a lost build, but for the last one. -/
theorem Flight.opened_add_le (h : s.Flight) (key : String) (es : List Event) :
    (s.after es).shared.opened.count key + (!(s.after es).isSpent key).toNat ≤
      s.shared.opened.count key + (!s.isSpent key).toNat + s.lost key es := by
  induction es generalizing s with
  | nil => simp [lost]
  | cons e es ih =>
    have hc := s.happen_change e
    have hrest := ih (h.change hc)
    have hone : (s.happen e).shared.opened.count key + (!(s.happen e).isSpent key).toNat ≤
        s.shared.opened.count key + (!s.isSpent key).toNat + (s.loses key e).toNat := by
      rcases h.opened_cases hc with hsame | ⟨h1, h2, h3⟩
      · rw [hsame]
        cases hs : s.isSpent key with
        | false =>
          have hle : (!(s.happen e).isSpent key).toNat ≤ 1 := Bool.toNat_le _
          simp only [Bool.not_false, Bool.toNat_true]
          omega
        | true =>
          rcases h.spent_change hc hs with hs' | ⟨h1, h2, h3⟩
          · simp [hs']
          · cases (s.happen e).isSpent key <;> simp [loses, h1, h2, h3]
      · simp [h1, h2, h3]
    rw [after_cons, lost]
    omega

/-- **How often a file is opened**: at most once more often than builds of it are lost. -/
theorem opened_le {setting : Setting} (hr : ∃ skip, setting.resolver = .cache skip) (key : String)
    (es : List Event) : (({ setting } : Session).after es).shared.opened.count key ≤
      1 + ({ setting } : Session).lost key es := by
  have h := (flight_start hr).opened_add_le key es
  have h0 : (({ setting } : Session).shared.opened.count key) = 0 := rfl
  have h1 : (!({ setting } : Session).isSpent key).toNat ≤ 1 := Bool.toNat_le _
  omega

end Session

end Shading
