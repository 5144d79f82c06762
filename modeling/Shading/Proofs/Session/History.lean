import Shading.Proofs.Session.Inside
import Shading.Proofs.Session.Programs
import Shading.Proofs.Session.Schedule

/-!
# Independence of the history

A cache may hold files that were built on behalf of others.  A file from which no walk along includes
comes into a loop is the same in every cache: whatever was requested before, over whatever other files,
a request for it gets what it would have got from an empty cache.  Where a loop can be reached this is
not so: a file that was built inside the loop is kept without the files that were being read further
out.

* `Task.Inside` — what a task does in a part of the files is faithful there;
* `Session.FollowsInside`, `followsInside_after` — it holds throughout every run;
* `Setting.LoopFreeFrom` — no walk from a file comes into a loop;
* `Session.result_independent_of_history` — two runs give a request one result;
* `Session.not_independent_around_loop` — a loop of two files.
-/

namespace Shading

open Relation

/-! ### What every task keeps -/

namespace Task

variable {S : String → Prop} [DecidablePred S] {setting : Setting} {hl : (setting.within S).LoopFree}
  {t t' : Task} {shared shared' : Shared} {i : Nat} {gates : List String}

/-- **What a task does inside the part is faithful there.**  A task that was asked for a file of the
part never leaves it; any other may come into it, on behalf of a file outside, and then gives that file
what it would have got by itself. -/
inductive Inside (hl : (setting.within S).LoopFree) (t : Task) : Prop
  | apart (h : t.Apart S) (origin : ¬ S (Path.normalize t.path))
  | within {root : String} {inner outer : List Frame} (hroot : S root)
    (frames : t.frames = inner ++ outer) (apart : ∀ f ∈ outer, f.Apart S)
    (faithful : (t.within S root inner).Faithful hl)
    (origin : outer = [] ∧ root = Path.normalize t.path ∨ outer ≠ [] ∧ ¬ S (Path.normalize t.path))

/-- A task that asks for a file of the part has nothing to show there yet. -/
lemma faithful_ask (hS : setting.Enclosed S) {path : String} {stack : IncludeStack}
    (hp : t.phase = .ask path stack) (hpath : S (Path.normalize path))
    (hstack : ∀ p ∈ stack.paths, S p → p = Path.normalize path) :
    (t.within S (Path.normalize path) []).Faithful hl := by
  have hsettled := hS.settled _ hpath
  unfold Faithful Task.within
  rw [hp]
  refine ⟨hsettled, ?_, fun outer houter => ?_⟩
  · have hlead : Lead hl (Path.normalize path) [] (Path.normalize path) := .root
    simpa [hsettled] using hlead
  · obtain ⟨hmem, hin⟩ := List.mem_filter.1 houter
    rw [hstack outer hmem (by simpa using hin)]

lemma Outside.inside (hS : setting.Enclosed S) (h : t.Outside S) (ho : ¬ S (Path.normalize t.path)) :
    t.Inside hl := by
  rcases h with h | ⟨hframes, hne, path, stack, hp, hpath, hstack⟩
  · exact .apart h ho
  · exact .within hpath rfl hframes (faithful_ask hS hp hpath hstack) (.inr ⟨hne, ho⟩)

/-- **Every step keeps it**, when the cache holds expansions only for the files of the part and no wait
for one is refused. -/
theorem Inside.step (hr : setting.resolver = .cache []) (hS : setting.Enclosed S)
    (hcache : (shared.within S).Expanded hl)
    (hcycle : ∀ key stack, S key → t.phase = .claim key stack → shared.table.closesCycle i key = false)
    (h : t.Inside hl) (hstep : t.step { setting with gates } shared i = some (shared', t')) :
    t'.Inside hl := by
  have hpath : t'.path = t.path := (Acts.step hstep).turn.path
  cases h with
  | apart h ho =>
    rw [← hpath] at ho
    exact (h.step hr hstep).inside hS ho
  | @within root inner outer hroot hf hapart hfaithful ho =>
    rcases step_within hr hS hroot hf hfaithful hstep with ⟨u', shared'', hstep', inner', hf', rfl⟩ |
      ⟨rfl, hne, hphase, hframes⟩
    · refine .within hroot hf' hapart ?_ (hpath ▸ ho)
      refine hfaithful.step hr hcache (fun key stack hp => ?_) hstep'
      obtain ⟨stack', hp'⟩ := Phase.eq_claim_of_within hp
      refine hcycle key stack' ?_ hp'
      unfold Faithful at hfaithful
      rw [hp] at hfaithful
      exact inside_of_lead hS ((hS.settled root hroot).symm ▸ hroot) hfaithful.lead
    · -- the file inside has been given to a file outside
      obtain ⟨-, ho⟩ := ho.resolve_left fun ho => hne ho.1
      refine .apart ⟨fun f hf => ?_, ?_⟩ (hpath ▸ ho)
      · obtain ⟨g, hg, hpath, hstack⟩ := hframes f hf
        unfold Frame.Apart
        rw [hpath, hstack]
        exact hapart g hg
      · rcases hphase with hphase | ⟨error, hphase⟩ <;> rw [hphase] <;> trivial

/-- **Every act keeps it.** -/
theorem Inside.acts (hr : setting.resolver = .cache []) (hS : setting.Enclosed S)
    (hcache : (shared.within S).Expanded hl)
    (hcycle : ∀ key stack, S key → t.phase = .claim key stack → shared.table.closesCycle i key = false)
    (h : t.Inside hl) (hacts : Acts { setting with gates } i shared t shared' t') : t'.Inside hl := by
  cases hacts with
  | step hstep => exact h.step hr hS hcache hcycle hstep
  | abort habort =>
    obtain ⟨hcancelled, rfl, -⟩ := abort_eq_some habort
    cases h with
    | apart h ho => exact .apart ⟨h.frames, trivial⟩ ho
    | within hroot hf hapart _ ho => exact .within hroot hf hapart (.inl ⟨rfl, hcancelled⟩) ho
  | cancel =>
    cases h with
    | apart h ho => exact .apart ⟨h.frames, h.phase⟩ ho
    | within hroot hf hapart hfaithful ho => exact .within hroot hf hapart hfaithful.cancel ho
  | drop =>
    cases h with
    | apart h ho => exact .apart ⟨by simp, trivial⟩ ho
    | within hroot _ _ _ ho =>
      rcases ho with ⟨-, rfl⟩ | ⟨-, ho⟩
      · exact .within hroot (show _ = [] ++ [] from rfl) (by simp) trivial (.inl ⟨rfl, rfl⟩)
      · exact .apart ⟨by simp, trivial⟩ ho

/-- A task that has claimed a file of the part works inside. -/
lemma Inside.exists_within {key : String} (h : t.Inside hl) (hkey : S key) (hclaim : key ∈ t.claims) :
    ∃ root inner outer, S root ∧ t.frames = inner ++ outer ∧ (t.within S root inner).Faithful hl ∧
      key ∈ (t.within S root inner).claims := by
  obtain ⟨f, hf, hclaimed, rfl⟩ := mem_claims.1 hclaim
  cases h with
  | apart h _ => exact absurd hkey (h.frames f hf).1
  | @within root inner outer hroot hframes hapart hfaithful _ =>
    refine ⟨root, inner, outer, hroot, hframes, hfaithful, mem_claims.2 ⟨f.within S, ?_, hclaimed, rfl⟩⟩
    rw [hframes] at hf
    rcases List.mem_append.1 hf with hf | hf
    · exact List.mem_map_of_mem hf
    · exact absurd hkey (hapart f hf).1

/-- What a task puts into the cache under a file of the part is its expansion. -/
lemma Turn.expandedInside {setting' : Setting} (h : t.Inside hl)
    (hturn : Turn setting' i shared t shared' t') (hcache : (shared.within S).Expanded hl) :
    (shared'.within S).Expanded hl := by
  rw [Shared.expanded_within] at hcache ⊢
  intro key shader hS hkey
  cases hturn with
  | @publishes frame frames hp hf =>
    by_cases hk : key = frame.path
    · subst hk
      obtain rfl : _ = shader := by simpa using hkey
      cases h with
      | apart h _ => exact absurd hS (h.frames frame (by simp [hf])).1
      | within _ hframes _ hfaithful _ =>
        obtain ⟨path, cancelled, frames', phase⟩ := t
        obtain rfl : phase = .publish := hp
        obtain ⟨f, fs, hw, hprogram⟩ := hfaithful
        obtain ⟨gs, -, -, rfl, -⟩ := hw.inside hframes hf
        exact hprogram
    · have hne : (key == frame.path) = false := by simpa using hk
      exact hcache key shader hS (by simpa [List.lookup_cons, hne] using hkey)
  | releases | unwinds =>
    unfold withoutFrame at hkey
    split at hkey <;> exact hcache key shader hS hkey
  | _ => exact hcache key shader hS hkey

end Task

namespace Session

variable {S : String → Prop} [DecidablePred S] {setting : Setting} {hl : (setting.within S).LoopFree}
  {s s' : Session} {i : Nat} {t : Task}

/-- Every task, and every entry of the cache under a file of the part, follows the expansion there. -/
structure FollowsInside (hl : (setting.within S).LoopFree) (s : Session) : Prop where
  balanced : s.Balanced
  gated : ∃ gates, s.setting = { setting with gates }
  cache : (s.shared.within S).Expanded hl
  tasks : ∀ (i : Nat) (t : Task), s.tasks[i]? = some t → t.Inside hl

/-- A chain of waits that ends in a task leads from each build of the part along it to the file of the
part that the task asks for. -/
lemma FollowsInside.reaches (hS : setting.Enclosed S) {key : String} {stack : IncludeStack} {d : Nat}
    (h : s.FollowsInside hl) (ht : s.tasks[i]? = some t) (hp : t.phase = .claim key stack)
    (hd : ReflTransGen s.shared.table.WaitsOn d i) :
    ∀ k, S k → s.shared.table.builder? k = some d →
      TransGen (setting.within S).Includes k key := by
  -- a file of the part that is waited for is built by a task that, inside, waits for one further on
  induction hd using ReflTransGen.head_induction_on with
  | refl =>
    intro k hk hbuilder
    have hmem : k ∈ s.claims i := (h.balanced.builder_iff k i).1 hbuilder
    rw [claims_eq ht] at hmem
    obtain ⟨root, inner, outer, -, -, hfaithful, hclaim⟩ := (h.tasks i t ht).exists_within hk hmem
    unfold Task.Faithful at hfaithful
    simp only [Task.within, hp, Phase.within] at hfaithful
    exact hfaithful.reaches hclaim
  | @head d e hde _ ih =>
    intro k hk hbuilder
    obtain ⟨awaited, hwaits, hbuilder'⟩ := hde
    obtain ⟨u, hu, hmem⟩ := exists_of_mem_claims ((h.balanced.builder_iff k d).1 hbuilder)
    rw [h.balanced.waits_eq, awaits_eq hu] at hwaits
    obtain ⟨ticket, stack', hp'⟩ := Task.awaited?_eq_some hwaits
    obtain ⟨root, inner, outer, hroot, -, hfaithful, hclaim⟩ := (h.tasks d u hu).exists_within hk hmem
    unfold Task.Faithful at hfaithful
    simp only [Task.within, hp', Phase.within] at hfaithful
    have hawaited : S awaited :=
      Task.inside_of_lead hS ((hS.settled root hroot).symm ▸ hroot) hfaithful.lead
    exact (hfaithful.reaches hclaim).trans (ih awaited hawaited hbuilder')

/-- **No wait for a file of the part is refused.** -/
lemma FollowsInside.closesCycle (hS : setting.Enclosed S) {key : String} {stack : IncludeStack}
    (h : s.FollowsInside hl) (ht : s.tasks[i]? = some t) (hkey : S key)
    (hp : t.phase = .claim key stack) : s.shared.table.closesCycle i key = false := by
  by_contra hclose
  obtain ⟨d, hd, hwaits⟩ := BuildTable.closesCycle_iff.1 (by simpa using hclose)
  exact hl.acyclic key (h.reaches hS ht hp hwaits key hkey hd)

end Session

/-- The event brings in neither a text nor other sources. -/
def Event.Requests : Event → Prop
  | .startText .. | .replace _ => False
  | _ => True

instance : DecidablePred Event.Requests
  | .startText .. | .replace _ => inferInstanceAs (Decidable False)
  | .start .. | .step _ | .abort _ | .cancel _ | .drop _ | .release _ => inferInstanceAs (Decidable True)

namespace Session

variable {S : String → Prop} [DecidablePred S] {setting : Setting} {hl : (setting.within S).LoopFree}
  {s s' : Session} {i : Nat} {t : Task}

/-- **Every change follows the expansion inside.** -/
lemma FollowsInside.change {e : Event} (hr : setting.resolver = .cache []) (hS : setting.Enclosed S)
    (he : e.Requests) (h : s.FollowsInside hl) (hc : s.Change e s') : s'.FollowsInside hl := by
  cases hc with
  | @acts _ i t t' shared' _ _ ht hacts hset hshared htasks =>
    have hturn := hacts.turn
    obtain ⟨gates, hgates⟩ := h.gated
    refine ⟨h.balanced.turn ht hturn hshared htasks, ⟨gates, hset.trans hgates⟩, ?_, ?_⟩
    · rw [hshared]
      exact hturn.expandedInside (h.tasks i t ht) h.cache
    · intro j u hu
      rcases getElem?_set_cases ht htasks hu with ⟨-, rfl⟩ | ⟨-, hu⟩
      · rw [hgates] at hacts
        exact (h.tasks i t ht).acts hr hS h.cache (fun key stack => h.closesCycle hS ht) hacts
      · exact h.tasks j u hu
  | still => exact h
  | @start path cancelled =>
    refine ⟨h.balanced.join rfl rfl, h.gated, h.cache, fun j u hu => ?_⟩
    rcases getElem?_append_cases hu with ⟨-, rfl⟩ | hu
    · by_cases hpath : S (Path.normalize path)
      · refine .within hpath (show _ = [] ++ [] from rfl) (by simp) ?_ (.inl ⟨rfl, rfl⟩)
        exact Task.faithful_ask hS rfl hpath fun p hp _ => List.mem_singleton.1 hp
      · refine .apart ⟨by simp [Task.ofPath], hpath, fun p hp => ?_⟩ hpath
        rwa [List.mem_singleton.1 hp]
    · exact h.tasks j u hu
  | startText => exact he.elim
  | release =>
    obtain ⟨gates, hgates⟩ := h.gated
    exact ⟨h.balanced, ⟨_, by rw [hgates]⟩, h.cache, h.tasks⟩
  | replace => exact he.elim

theorem followsInside_after (hr : setting.resolver = .cache []) (hS : setting.Enclosed S)
    (hl : (setting.within S).LoopFree) {es : List Event} (hes : ∀ e ∈ es, e.Requests) :
    (({ setting } : Session).after es).FollowsInside hl := by
  have hstart : ({ setting } : Session).FollowsInside hl :=
    ⟨Ledger.empty, ⟨setting.gates, rfl⟩, by simp [Shared.expanded_within], by simp⟩
  exact after_induction es hstart fun e he _ _ h hc => h.change hr hS (hes e he) hc

/-- A request for a file of the part gets its expansion there. -/
lemma result_eq_expand_inside (hr : setting.resolver = .cache []) (hS : setting.Enclosed S)
    (hl : (setting.within S).LoopFree) {es : List Event} (hes : ∀ e ∈ es, e.Requests) {path : String}
    {cancelled : Bool} {result : Except Error Answer} (hpath : S (Path.normalize path))
    (hi : (begun es)[i]? = some (.start path cancelled))
    (ht : (({ setting } : Session).after es).tasks[i]? = some t) (hcancel : t.cancelled = false)
    (hresult : t.result? = some result) :
    result.map (·.shader) = hl.expand (Path.normalize path) := by
  obtain ⟨e, he, htpath, -⟩ := rooted_after (show setting.resolver ≠ .load by simp [hr]) es i t ht
  obtain rfl : _ = e := Option.some.inj (hi.symm.trans he)
  obtain rfl : path = t.path := Option.some.inj htpath
  have hsettled := hS.settled _ hpath
  obtain ⟨path, cancelled, frames, phase⟩ := t
  obtain rfl : phase = .done result := Task.result?_eq_some.1 hresult
  cases (followsInside_after hr hS hl hes).tasks i _ ht with
  | apart _ ho => exact absurd hpath ho
  | within _ _ _ hfaithful ho =>
    obtain ⟨-, rfl⟩ := ho.resolve_right fun ho => ho.2 hpath
    rw [← hsettled]
    cases result with
    | ok answer => exact (show hl.expand _ = _ from hfaithful).symm
    | error error =>
      rcases (show Task.Fails hl _ error from hfaithful) with ⟨-, htold⟩ | hfails
      · exact absurd (hcancel.symm.trans htold) (by simp)
      · exact hfails.symm

end Session

/-! ### Two runs -/

/-- Finitely many files, of which none that is reached from the root includes a file under an unsettled
path or, in any number of steps, itself. -/
structure Setting.LoopFreeFrom (setting : Setting) (root : String) : Prop where
  finite : {key | Path.normalize key = key ∧ ∃ readings, setting.sources key = .ok readings}.Finite
  settled : ∀ key, ReflTransGen setting.Includes root key → Path.normalize key = key
  acyclic : ∀ key, ReflTransGen setting.Includes root key → ¬ TransGen setting.Includes key key

namespace Setting.LoopFreeFrom

variable {setting : Setting} {root : String}

lemma enclosed (h : setting.LoopFreeFrom root) :
    setting.Enclosed (ReflTransGen setting.Includes root) where
  settled := h.settled
  closed _ _ hkey hi := hkey.tail hi

/-- The files that are reached have no loop among them. -/
lemma loopFree [DecidablePred (ReflTransGen setting.Includes root)] (h : setting.LoopFreeFrom root) :
    (setting.within (ReflTransGen setting.Includes root)).LoopFree where
  finite := by
    refine h.finite.subset ?_
    rintro key ⟨hkey, readings, hreadings⟩
    refine ⟨hkey, readings, ?_⟩
    unfold Setting.within at hreadings
    simp only at hreadings
    split at hreadings
    · exact hreadings
    · cases hreadings
  settled key i hi := by
    obtain ⟨hkey, hi⟩ := Setting.includes_within.1 hi
    exact h.settled i (hkey.tail hi)
  acyclic key hloop := by
    obtain ⟨i, hi, -⟩ := TransGen.head'_iff.1 hloop
    refine h.acyclic key (Setting.includes_within.1 hi).1 (TransGen.mono ?_ _ _ hloop)
    exact fun _ _ hi => (Setting.includes_within.1 hi).2

end Setting.LoopFreeFrom

namespace Session

variable {setting : Setting} {i j : Nat} {t u : Task}

/-- **Independence of the history.**  Take finitely many files, whose includes may form loops, and a
path from whose file no loop is reached.  A request for the path that comes to its end without having
been told to stop has the same result, shader or error, in any two runs over the files: whatever was
requested before or is requested meanwhile, and whatever the cache holds. -/
theorem result_independent_of_history (hr : setting.resolver = .cache []) {path : String}
    (h : setting.LoopFreeFrom (Path.normalize path)) {es es' : List Event}
    (hes : ∀ e ∈ es, e.Requests) (hes' : ∀ e ∈ es', e.Requests) {c d : Bool}
    {result result' : Except Error Answer}
    (hi : (begun es)[i]? = some (.start path c)) (hj : (begun es')[j]? = some (.start path d))
    (ht : (({ setting } : Session).after es).tasks[i]? = some t)
    (hu : (({ setting } : Session).after es').tasks[j]? = some u)
    (htc : t.cancelled = false) (huc : u.cancelled = false)
    (htr : t.result? = some result) (hur : u.result? = some result') :
    result.map (·.shader) = result'.map (·.shader) := by
  classical
  have hfirst := result_eq_expand_inside hr h.enclosed h.loopFree hes .refl hi ht htc htr
  have hsecond := result_eq_expand_inside hr h.enclosed h.loopFree hes' .refl hj hu huc hur
  exact hfirst.trans hsecond.symm

end Session

/-! ### Around a loop -/

/-- The files `a` and `b` include each other, `b` includes `c`, and `c` includes `d`. -/
def Setting.ring : Setting where
  sources key :=
    if key = "a" then .ok (Reading.ofText "#include \"b\"\nuniform float a;")
    else if key = "b" then .ok (Reading.ofText "#include \"a\"\n#include \"c\"\nuniform float b;")
    else if key = "c" then .ok (Reading.ofText "#include \"d\"\nuniform float c;")
    else if key = "d" then .ok (Reading.ofText "uniform float d;")
    else .error (.inclusion .notFound key)

namespace Setting

/-- The files that a file includes. -/
def links (setting : Setting) (key : String) : List String :=
  match setting.fileProgram key with
  | .ok p => p.links
  | .error _ => []

lemma Includes.mem_links {setting : Setting} {key i : String} (h : setting.Includes key i) :
    i ∈ setting.links key := by
  obtain ⟨-, program, hprogram, hi⟩ := h
  unfold links
  rw [hprogram]
  exact hi

lemma reached_ring {key : String} (h : ReflTransGen ring.Includes "c" key) : key = "c" ∨ key = "d" := by
  have hc : ring.links "c" = ["d"] := by decide +kernel
  have hd : ring.links "d" = [] := by decide +kernel
  induction h with
  | refl => exact .inl rfl
  | tail _ hi ih =>
    have hmem := hi.mem_links
    rcases ih with rfl | rfl
    · rw [hc] at hmem
      exact .inr (List.mem_singleton.1 hmem)
    · simp [hd] at hmem

lemma loopFreeFrom_ring : ring.LoopFreeFrom "c" where
  finite := by
    refine Set.Finite.subset (Set.toFinite {"a", "b", "c", "d"}) ?_
    rintro key ⟨-, readings, hreadings⟩
    by_contra hno
    simp only [Set.mem_insert_iff, Set.mem_singleton_iff, not_or] at hno
    obtain ⟨ha, hb, hc, hd⟩ := hno
    simp [ring, ha, hb, hc, hd] at hreadings
  settled key h := by rcases reached_ring h with rfl | rfl <;> decide +kernel
  acyclic key h hloop := by
    obtain ⟨i, hi, hback⟩ := TransGen.head'_iff.1 hloop
    have hmem := hi.mem_links
    have hd : ring.links "d" = [] := by decide +kernel
    rcases reached_ring h with rfl | rfl
    · have hc : ring.links "c" = ["d"] := by decide +kernel
      rw [hc] at hmem
      obtain rfl := List.mem_singleton.1 hmem
      rcases hback.cases_head with heq | ⟨j, hj, -⟩
      · exact absurd heq (by decide)
      · simpa [hd] using hj.mem_links
    · simp [hd] at hmem

end Setting

namespace Session

/-- A request that goes on by itself for some steps. -/
def request (path : String) (i n : Nat) : List Event := .start path false :: .replicate n (.step i)

lemma request_add (path : String) (i m n : Nat) :
    request path i (m + n) = request path i m ++ .replicate n (.step i) := by
  unfold request
  rw [List.replicate_add, List.cons_append]

/-- The request for `c` gets the same after one for `a`, which has gone round the loop, as by itself. -/
theorem result_ring : ∃ t u result result',
    (({ setting := .ring } : Session).after (request "a" 0 52 ++ request "c" 1 3)).tasks[1]? = some t ∧
    (({ setting := .ring } : Session).after (request "c" 0 24)).tasks[0]? = some u ∧
    t.result? = some result ∧ u.result? = some result' ∧ result.isOk = true ∧
    result.map (·.shader) = result'.map (·.shader) := by
  have hlater : ((({ setting := .ring } : Session).after
      (request "a" 0 52 ++ request "c" 1 3)).tasks[1]?).any (fun t =>
        !t.cancelled && t.result?.any Except.isOk) = true := by
    decide +kernel
  have hfresh : ((({ setting := .ring } : Session).after (request "c" 0 24)).tasks[0]?).any (fun t =>
      !t.cancelled && t.result?.any Except.isOk) = true := by
    decide +kernel
  obtain ⟨t, ht, htboth⟩ := (Option.any_eq_true _ _).1 hlater
  obtain ⟨u, hu, huboth⟩ := (Option.any_eq_true _ _).1 hfresh
  obtain ⟨htc, htr⟩ := Bool.and_eq_true_iff.1 htboth
  obtain ⟨huc, hur⟩ := Bool.and_eq_true_iff.1 huboth
  obtain ⟨result, htr, hok⟩ := (Option.any_eq_true _ _).1 htr
  obtain ⟨result', hur, -⟩ := (Option.any_eq_true _ _).1 hur
  have hc : Path.normalize "c" = "c" := by decide +kernel
  have hcone : Setting.ring.LoopFreeFrom (Path.normalize "c") := hc.symm ▸ Setting.loopFreeFrom_ring
  exact ⟨t, u, result, result', ht, hu, htr, hur, hok, result_independent_of_history rfl hcone
    (by decide) (by decide) (c := false) (d := false) rfl rfl ht hu
    (by simpa using htc) (by simpa using huc) htr hur⟩

/-- The names of the uniforms of a shader that was got. -/
def uniformNames : Except Error Answer → Option (List String)
  | .ok answer => some (answer.shader.program.uniforms.map (·.name))
  | .error _ => none

lemma exists_uniformNames {result? : Option (Except Error Answer)} {names : List String}
    (h : result?.bind uniformNames = some names) :
    ∃ answer, result? = some (.ok answer) ∧ answer.shader.program.uniforms.map (·.name) = names := by
  obtain ⟨result, hresult, hnames⟩ := Option.bind_eq_some_iff.1 h
  cases result with
  | error error => cases hnames
  | ok answer => exact ⟨answer, hresult, Option.some.inj hnames⟩

/-- **Around a loop the history matters.**  A request for `b` gets `a` when the cache is empty, and does
not get it after a request for `a`, which has built `b` while `a` was being read further out. -/
theorem not_independent_around_loop : ∃ answer answer',
    (({ setting := .ring } : Session).after (request "a" 0 52 ++ request "b" 1 3)).result? 1 =
      some (.ok answer) ∧
    (({ setting := .ring } : Session).after (request "b" 0 52)).result? 0 = some (.ok answer') ∧
    answer.shader.program.uniforms.map (·.name) = ["b", "c", "d"] ∧
    answer'.shader.program.uniforms.map (·.name) = ["b", "a", "c", "d"] ∧
    answer.shader.program ≠ answer'.shader.program := by
  have hlater : ((({ setting := .ring } : Session).after
      (request "a" 0 52 ++ request "b" 1 3)).result? 1).bind uniformNames = some ["b", "c", "d"] := by
    decide +kernel
  have hfresh : ((({ setting := .ring } : Session).after (request "b" 0 52)).result? 0).bind
      uniformNames = some ["b", "a", "c", "d"] := by
    decide +kernel
  obtain ⟨answer, hanswer, hnames⟩ := exists_uniformNames hlater
  obtain ⟨answer', hanswer', hnames'⟩ := exists_uniformNames hfresh
  refine ⟨answer, answer', hanswer, hanswer', hnames, hnames', fun heq => ?_⟩
  rw [heq, hnames'] at hnames
  exact absurd hnames (by decide)

end Session

end Shading
