import Mathlib.Data.Finset.Card
import Shading.Proofs.Declarations
import Shading.Proofs.Session.History

/-!
# One compilation over any graph of includes

A compilation by itself goes through the graph of includes depth first.  A file that is being read
further out is passed over, and a file that was built inside is kept without what was passed over
there; still nothing is lost, since every file that is built is merged, through the files that asked
for it, into the first.  The files outside are a measure of what is left: a file is asked for only when
it is none of them, and there are finitely many files.

* `Task.Next` — the steps of a task that is by itself;
* `Setting.Collects` — what a part of the traversal adds to the cache and to a program;
* `Task.merges` — a file goes through what it includes;
* `Task.resolves` — a file is got from the cache or built;
* `Session.request_collects_reached` — what a whole compilation gets.
-/

namespace Shading

open Relation

/-! ### Steps of one task -/

namespace Task

/-- A step of a task that is by itself. -/
def Next (setting : Setting) (st st' : Shared × Task) : Prop := st.2.step setting st.1 0 = some st'

variable {setting : Setting}

lemma exists_steps {st st' : Shared × Task} (h : ReflTransGen (Next setting) st st') :
    ∃ n, steps setting 0 n st = some st' := by
  induction h using ReflTransGen.head_induction_on with
  | refl => exact ⟨0, rfl⟩
  | head hnext _ ih =>
    obtain ⟨n, hn⟩ := ih
    refine ⟨n + 1, ?_⟩
    rw [steps, hnext]
    exact hn

section Next

variable {shared : Shared} {p key : String} {stack : IncludeStack} {f : Frame} {fs : List Frame}

lemma next_ask {path : String} (hr : setting.resolver = .cache []) :
    Next setting (shared, ⟨p, false, fs, .ask path stack⟩)
      (shared, ⟨p, false, fs, .look (Path.normalize path) stack⟩) := by
  simp [Next, step, askStep, hr, goTo]

lemma next_hit {shader : Shader} (hkey : Path.normalize key = key)
    (hc : shared.cache.lookup key = some shader) :
    Next setting (shared, ⟨p, false, fs, .look key stack⟩)
      (shared, ⟨p, false, fs, .deliver (some ⟨shader, some key⟩)⟩) := by
  simp [Next, step, lookStep, hkey, hc, goTo]

lemma next_miss (hkey : Path.normalize key = key) (hc : shared.cache.lookup key = none) :
    Next setting (shared, ⟨p, false, fs, .look key stack⟩)
      (shared, ⟨p, false, fs, .claim key stack⟩) := by
  simp [Next, step, lookStep, hkey, hc, goTo]

lemma next_claim (hc : shared.cache.lookup key = none) (hb : shared.table.build? key = none) :
    Next setting (shared, ⟨p, false, fs, .claim key stack⟩)
      ({ shared with table := shared.table.begin key ⟨0, shared.builds⟩, builds := shared.builds + 1 },
        ⟨p, false, { path := key, stack, claimed := true } :: fs, .openSource⟩) := by
  simp [Next, step, claimStep, hc, hb, enter]

lemma next_open : Next setting (shared, ⟨p, false, f :: fs, .openSource⟩)
    ({ shared with opened := shared.opened ++ [f.path] }, ⟨p, false, f :: fs, .gate⟩) := rfl

lemma next_missing {error : Error} (hg : setting.gates = [])
    (hs : setting.sources f.path = .error error) :
    Next setting (shared, ⟨p, false, f :: fs, .gate⟩) (shared, ⟨p, false, f :: fs, .unwind error⟩) := by
  simp [Next, step, hg, hs, goTo]

lemma next_found {readings : List Reading} (hg : setting.gates = [])
    (hs : setting.sources f.path = .ok readings) :
    Next setting (shared, ⟨p, false, f :: fs, .gate⟩)
      (shared, ⟨p, false, f :: fs, .read {} [] readings⟩) := by
  simp [Next, step, hg, hs, goTo]

lemma next_publish (hclaimed : f.claimed = true) (hc : shared.cache.lookup f.path = none) :
    Next setting (shared, ⟨p, false, f :: fs, .publish⟩)
      ({ shared with cache := (f.path, ⟨f.path, f.program⟩) :: shared.cache },
        ⟨p, false, f :: fs, .release ⟨⟨f.path, f.program⟩, some f.path⟩⟩) := by
  simp [Next, step, publishStep, hclaimed, hc, goTo]

lemma next_release {answer : Answer} (hclaimed : f.claimed = true) :
    Next setting (shared, ⟨p, false, f :: fs, .release answer⟩)
      ({ shared with table := shared.table.finish f.path }, ⟨p, false, fs, .deliver (some answer)⟩) := by
  simp [Next, step, withoutFrame, hclaimed]

lemma next_deliver {answer : Answer} :
    Next setting (shared, ⟨p, false, f :: fs, .deliver (some answer)⟩)
      (shared, ⟨p, false, { f with program := f.program.merge answer.shader.program } :: fs,
        .merge⟩) := rfl

end Next

/-! ### Failures and readings -/

/-- From here a task comes to its end in an error. -/
def EndsInError (setting : Setting) (p : String) (st : Shared × Task) : Prop :=
  ∃ shared' error, ReflTransGen (Next setting) st (shared', ⟨p, false, [], .done (.error error)⟩)

variable {shared : Shared} {p key : String} {f : Frame} {fs : List Frame}

lemma EndsInError.head {st st' : Shared × Task} (h : ReflTransGen (Next setting) st st')
    (hfails : EndsInError setting p st') : EndsInError setting p st := by
  obtain ⟨shared', error, hend⟩ := hfails
  exact ⟨shared', error, h.trans hend⟩

lemma endsInError_unwind (error : Error) (fs : List Frame) (shared : Shared) :
    EndsInError setting p (shared, ⟨p, false, fs, .unwind error⟩) := by
  induction fs generalizing shared with
  | nil => exact ⟨shared, error, .single rfl⟩
  | cons f fs ih => exact (ih (withoutFrame shared f)).head (.single rfl)

/-- A file that has been read has its program and is about to go through its includes, or the task
gives up. -/
def afterReading (p : String) (f : Frame) (fs : List Frame) : Except Error Program → Task
  | .ok program => ⟨p, false, { f with program, pending := program.includes.toList } :: fs, .merge⟩
  | .error error => ⟨p, false, f :: fs, .unwind error⟩

/-- **A file is read to its end.** -/
lemma reads (scanner : Scanner) (tokens : List Token) (later : List Reading) :
    ReflTransGen (Next setting) (shared, ⟨p, false, f :: fs, .read scanner tokens later⟩)
      (shared, afterReading p f fs (setting.programFrom f.path scanner tokens later)) := by
  induction later generalizing scanner tokens with
  | nil =>
    refine .single ?_
    rw [Setting.programFrom_nil]
    cases hprogram : Program.ofTokens tokens <;>
      simp [Next, step, readStep, hprogram, afterReading, goTo, Except.map, Except.mapError]
  | cons reading later ih =>
    cases hline : reading.line with
    | error fault =>
      rw [Setting.programFrom_broken hline]
      exact .single (by simp [Next, step, readStep, hline, afterReading, goTo])
    | ok text =>
      rcases hscan : scanner.line text with ⟨scanner', fault | ts⟩
      · rw [Setting.programFrom_fault hline hscan]
        exact .single (by simp [Next, step, readStep, hline, hscan, afterReading, goTo])
      · rw [Setting.programFrom_line hline hscan]
        refine (ih scanner' (tokens ++ ts)).head ?_
        simp [Next, step, readStep, hline, hscan, goTo]

end Task

/-! ### What the traversal adds -/

/-- What a part of the traversal does to what is shared: it opens the files `new`, in this order, and
puts just them into the cache; the build table is in the end as it was. -/
structure Shared.Gains (shared shared' : Shared) (new : List String) : Prop where
  opened : shared'.opened = shared.opened ++ new
  table : ∀ key, shared'.table.build? key = shared.table.build? key
  nodup : new.Nodup
  fresh : ∀ key ∈ new, shared.cache.lookup key = none
  cached : ∀ key, (shared'.cache.lookup key).isSome = true ↔
    (shared.cache.lookup key).isSome = true ∨ key ∈ new

lemma Shared.isSome_lookup_cons {k key : String} {shader : Shader} {cache : List (String × Shader)} :
    (List.lookup k ((key, shader) :: cache)).isSome = true ↔
      k = key ∨ (cache.lookup k).isSome = true := by
  by_cases hk : k = key
  · simp [hk]
  · have hne : (k == key) = false := by simpa using hk
    simp [List.lookup_cons, hne, hk]

namespace Shared.Gains

variable {shared shared' shared'' : Shared} {new new' : List String}

lemma rfl : shared.Gains shared [] := ⟨by simp, fun _ => .refl _, .nil, by simp, by simp⟩

lemma trans (h : shared.Gains shared' new) (h' : shared'.Gains shared'' new') :
    shared.Gains shared'' (new ++ new') where
  opened := by rw [h'.opened, h.opened, List.append_assoc]
  table key := (h'.table key).trans (h.table key)
  nodup := by
    refine List.nodup_append.2 ⟨h.nodup, h'.nodup, fun a ha b hb heq => ?_⟩
    -- what was added first is no longer fresh
    have hsome := (h.cached a).2 (.inr ha)
    rw [heq, h'.fresh b hb] at hsome
    cases hsome
  fresh key hkey := by
    rcases List.mem_append.1 hkey with hkey | hkey
    · exact h.fresh key hkey
    · by_contra hc
      have hsome := (h.cached key).2 (.inl (Option.isSome_iff_ne_none.2 hc))
      rw [h'.fresh key hkey] at hsome
      cases hsome
  cached key := by rw [h'.cached, h.cached, List.mem_append, or_assoc]

/-- A build, from its claim to its release, adds its file in front of what was added meanwhile. -/
lemma build {key : String} {shader : Shader} {build : Build} {builds : Nat}
    (hc : shared.cache.lookup key = none) (hb : shared.table.build? key = none) (hkey : key ∉ new)
    (h : Shared.Gains
      ⟨shared.cache, shared.table.begin key build, builds, shared.opened ++ [key]⟩ shared' new) :
    shared.Gains
      { shared' with
        cache := (key, shader) :: shared'.cache
        table := shared'.table.finish key } (key :: new) where
  opened := by simp [h.opened]
  table k := by
    by_cases hk : k = key
    · subst hk
      rw [BuildTable.build?_finish_self, hb]
    · rw [BuildTable.build?_finish_of_ne _ hk, h.table, BuildTable.build?_begin_of_ne _ _ hk]
  nodup := List.nodup_cons.2 ⟨hkey, h.nodup⟩
  fresh := List.forall_mem_cons.2 ⟨hc, h.fresh⟩
  cached k := by
    rw [isSome_lookup_cons, h.cached, List.mem_cons]
    exact or_left_comm

end Shared.Gains

namespace Setting

variable (setting : Setting) (root : String)

/-- The program is made for a file that is reached from the root: it begins with the file's own
declarations, and all that it declares comes from files that are reached. -/
structure Gives (key : String) (p : Program) : Prop where
  reached : ReflTransGen setting.Includes root key
  own : ∃ q, setting.fileProgram key = .ok q ∧ p.Begins q
  sound : ∀ d, p.Declares d → ∃ k q, ReflTransGen setting.Includes root k ∧
    setting.fileProgram k = .ok q ∧ q.Declares d

/-- Every entry of the cache is a program that is made for its key. -/
def Stocks (shared : Shared) : Prop :=
  ∀ key shader, shared.cache.lookup key = some shader → setting.Gives root key shader.program

/-- **What a part of the traversal adds**, to the cache and to a program, while the files `outer` are
being read: the new files include what is in the cache by then or being read, and the program declares
all that they do. -/
structure Collects (outer : List String) (shared shared' : Shared) (new : List String) (p : Program) :
    Prop where
  gains : shared.Gains shared' new
  apart : ∀ key ∈ new, key ∉ outer
  closed : ∀ key ∈ new, ∀ i, setting.Includes key i →
    (shared'.cache.lookup i).isSome = true ∨ i ∈ outer
  holds : ∀ key ∈ new, ∀ q d, setting.fileProgram key = .ok q → q.Declares d → p.Declares d
  stocks : setting.Stocks root shared'

variable {setting root} {key : String} {p q : Program} {outer new new' : List String}
  {shared shared' shared'' : Shared}

lemma Gives.of_fileProgram (hreached : ReflTransGen setting.Includes root key)
    (hq : setting.fileProgram key = .ok q) : setting.Gives root key q :=
  ⟨hreached, ⟨q, hq, .rfl⟩, fun _ hd => ⟨key, q, hreached, hq, hd⟩⟩

lemma Gives.merge {other : String} (h : setting.Gives root key p) (h' : setting.Gives root other q) :
    setting.Gives root key (p.merge q) where
  reached := h.reached
  own := by
    obtain ⟨r, hr, hbegins⟩ := h.own
    exact ⟨r, hr, (Program.begins_merge p q).trans hbegins⟩
  sound d hd := (Program.declares_merge.1 hd).elim (h.sound d) (h'.sound d)

lemma Collects.rfl (h : setting.Stocks root shared) :
    setting.Collects root outer shared shared [] p :=
  ⟨.rfl, by simp, by simp, by simp, h⟩

/-- Two parts, one after the other, when the second goes on with what the first has collected. -/
lemma Collects.trans (h : setting.Collects root outer shared shared' new p)
    (h' : setting.Collects root outer shared' shared'' new' q)
    (hd : ∀ d, p.Declares d → q.Declares d) :
    setting.Collects root outer shared shared'' (new ++ new') q where
  gains := h.gains.trans h'.gains
  apart key hkey := (List.mem_append.1 hkey).elim (h.apart key) (h'.apart key)
  closed key hkey i hi := by
    rcases List.mem_append.1 hkey with hkey | hkey
    · exact (h.closed key hkey i hi).imp_left fun hc => (h'.gains.cached i).2 (.inl hc)
    · exact h'.closed key hkey i hi
  holds key hkey r d hr hdecl := by
    rcases List.mem_append.1 hkey with hkey | hkey
    · exact hd d (h.holds key hkey r d hr hdecl)
    · exact h'.holds key hkey r d hr hdecl
  stocks := h'.stocks

/-- **A file that has been put together** comes into the cache: it and what was added meanwhile, while
it was being read itself, are added while the files outside are being read. -/
lemma Collects.publish {build : Build} {builds : Nat} {q : Program}
    (hc : shared.cache.lookup key = none) (hb : shared.table.build? key = none) (hkey : key ∉ outer)
    (hq : setting.fileProgram key = .ok q)
    (h : setting.Collects root (outer ++ [key])
      ⟨shared.cache, shared.table.begin key build, builds, shared.opened ++ [key]⟩ shared' new p)
    (hgives : setting.Gives root key p) (hdecl : ∀ d, q.Declares d → p.Declares d)
    (hlinks : ∀ i ∈ q.includes.toList, (shared'.cache.lookup (Path.normalize i)).isSome = true ∨
      Path.normalize i ∈ outer ++ [key]) :
    setting.Collects root outer shared
      { shared' with
        cache := (key, ⟨key, p⟩) :: shared'.cache
        table := shared'.table.finish key } (key :: new) p := by
  -- what was being read or in the cache inside, is in the cache or being read outside
  have houter : ∀ i, (shared'.cache.lookup i).isSome = true ∨ i ∈ outer ++ [key] →
      (List.lookup i ((key, ⟨key, p⟩) :: shared'.cache)).isSome = true ∨ i ∈ outer := by
    intro i hi
    rw [Shared.isSome_lookup_cons]
    rcases hi with hi | hi
    · exact .inl (.inr hi)
    · rcases List.mem_append.1 hi with hi | hi
      · exact .inr hi
      · exact .inl (.inl (List.mem_singleton.1 hi))
  constructor
  case gains => exact h.gains.build hc hb fun hmem => h.apart key hmem (by simp)
  case apart =>
    exact List.forall_mem_cons.2 ⟨hkey, fun k hk hout => h.apart k hk (List.mem_append_left _ hout)⟩
  case closed =>
    refine List.forall_mem_cons.2 ⟨fun i hi => houter i ?_, fun k hk i hi => houter i ?_⟩
    · obtain ⟨-, q', hq', hlink⟩ := hi
      obtain rfl := Except.ok.inj (hq.symm.trans hq')
      obtain ⟨j, hj, rfl⟩ := List.mem_map.1 (List.mem_eraseDups.1 hlink)
      exact hlinks j hj
    · exact h.closed k hk i hi
  case holds =>
    refine List.forall_mem_cons.2 ⟨fun q' d hq' => ?_, h.holds⟩
    obtain rfl := Except.ok.inj (hq.symm.trans hq')
    exact hdecl d
  case stocks =>
    intro k shader hshader
    by_cases hk : k = key
    · subst hk
      obtain rfl : _ = shader := by simpa using hshader
      exact hgives
    · have hne : (k == key) = false := by simpa using hk
      exact h.stocks k shader (by simpa [List.lookup_cons, hne] using hshader)

/-- Finitely many files, of which those that are reached from the root are under settled paths; they
are kept in a cache, and none is behind a gate. -/
structure Surveyed (setting : Setting) (root : String) (files : Finset String) : Prop where
  resolver : setting.resolver = .cache []
  gates : setting.gates = []
  settled : ∀ key, ReflTransGen setting.Includes root key → Path.normalize key = key
  finite : ∀ key readings, Path.normalize key = key → setting.sources key = .ok readings → key ∈ files

end Setting

/-! ### The traversal -/

/-- The file `f'` is `f` when it has gone past the next of its includes. -/
structure Frame.Past (f : Frame) (next : String) (f' : Frame) : Prop where
  path : f'.path = f.path
  claimed : f'.claimed = f.claimed
  stack : f'.stack = f.stack
  program : f'.program = f.program
  pending : f.pending = next :: f'.pending

namespace Task

variable {setting : Setting} {root p key : String} {files : Finset String} {outer : List String}
  {shared : Shared} {f : Frame} {fs : List Frame} {stack : IncludeStack}

/-- The task may ask for a file while the files `outer` are being read. -/
structure Ready (setting : Setting) (root : String) (outer : List String) (shared : Shared) :
    Prop where
  table : ∀ key build, shared.table.build? key = some build → key ∈ outer
  stocks : setting.Stocks root shared

/-- **A task that asks for a file** comes to its end in an error, or it gets an answer. -/
def Resolves (setting : Setting) (root p : String) (outer : List String) (shared : Shared)
    (fs : List Frame) (key : String) (stack : IncludeStack) : Prop :=
  EndsInError setting p (shared, ⟨p, false, fs, .look key stack⟩) ∨
  ∃ shared' new answer, ReflTransGen (Next setting) (shared, ⟨p, false, fs, .look key stack⟩)
      (shared', ⟨p, false, fs, .deliver (some answer)⟩) ∧
    setting.Collects root outer shared shared' new answer.shader.program ∧
    setting.Gives root key answer.shader.program ∧ (shared'.cache.lookup key).isSome = true

/-- **A task that goes through the includes of a file** comes to its end in an error, or to the end of
the includes: each of them is in the cache by then or being read. -/
def Merges (setting : Setting) (root p : String) (shared : Shared) (f : Frame) (fs : List Frame) :
    Prop :=
  EndsInError setting p (shared, ⟨p, false, f :: fs, .merge⟩) ∨
  ∃ shared' new f', ReflTransGen (Next setting) (shared, ⟨p, false, f :: fs, .merge⟩)
      (shared', ⟨p, false, f' :: fs, .publish⟩) ∧
    f'.path = f.path ∧ f'.claimed = f.claimed ∧
    setting.Collects root f.stack.paths shared shared' new f'.program ∧
    setting.Gives root f.path f'.program ∧
    (∀ d, f.program.Declares d → f'.program.Declares d) ∧
    ∀ i ∈ f.pending, (shared'.cache.lookup (Path.normalize i)).isSome = true ∨
      Path.normalize i ∈ f.stack.paths

lemma Ready.of_collects {shared' : Shared} {new : List String} {program : Program}
    (h : Ready setting root outer shared)
    (hcollects : setting.Collects root outer shared shared' new program) :
    Ready setting root outer shared' :=
  ⟨fun key build hb => h.table key build (hcollects.gains.table key ▸ hb), hcollects.stocks⟩

/-- An include that is passed over is in the cache already or being read. -/
lemma Merges.pass {next : String} {f' : Frame} (hpast : f.Past next f')
    (hnext : Next setting (shared, ⟨p, false, f :: fs, .merge⟩) (shared, ⟨p, false, f' :: fs, .merge⟩))
    (hpassed : (shared.cache.lookup (Path.normalize next)).isSome = true ∨
      Path.normalize next ∈ f.stack.paths)
    (h : Merges setting root p shared f' fs) : Merges setting root p shared f fs := by
  rcases h with hfails | ⟨shared', new, g, hrun, hg, hgc, hcollects, hgives, hdecl, hlinks⟩
  · exact .inl (hfails.head (.single hnext))
  · rw [hpast.path] at hg hgives
    rw [hpast.claimed] at hgc
    rw [hpast.stack] at hcollects hlinks
    rw [hpast.program] at hdecl
    refine .inr ⟨shared', new, g, hrun.head hnext, hg, hgc, hcollects, hgives, hdecl, ?_⟩
    rw [hpast.pending]
    exact List.forall_mem_cons.2
      ⟨hpassed.imp_left fun hc => (hcollects.gains.cached _).2 (.inl hc), hlinks⟩

/-- An include that is asked for is merged in when it is got, and then the rest is gone through. -/
lemma Merges.ask {next : String} {f' : Frame} (hpast : f.Past next f')
    (hask : ReflTransGen (Next setting) (shared, ⟨p, false, f :: fs, .merge⟩)
      (shared, ⟨p, false, f' :: fs, .look (Path.normalize next) stack⟩))
    (hcall : Resolves setting root p f.stack.paths shared (f' :: fs) (Path.normalize next) stack)
    (hrest : ∀ (shared' : Shared) (new : List String) (q : Program),
      setting.Collects root f.stack.paths shared shared' new q →
      setting.Gives root (Path.normalize next) q →
      (shared'.cache.lookup (Path.normalize next)).isSome = true →
      Merges setting root p shared' { f' with program := f.program.merge q } fs) :
    Merges setting root p shared f fs := by
  rcases hcall with hfails | ⟨shared', new, answer, hrun, hcollects, hanswer, hcached⟩
  · exact .inl (hfails.head hask)
  let f'' : Frame := { f' with program := f.program.merge answer.shader.program }
  have hmerge : ReflTransGen (Next setting) (shared, ⟨p, false, f :: fs, .merge⟩)
      (shared', ⟨p, false, f'' :: fs, .merge⟩) := by
    have hdeliver : Next setting (shared', ⟨p, false, f' :: fs, .deliver (some answer)⟩)
        (shared', ⟨p, false, { f' with program := f'.program.merge answer.shader.program } :: fs,
          .merge⟩) := next_deliver
    rw [hpast.program] at hdeliver
    exact (hask.trans hrun).tail hdeliver
  rcases hrest shared' new _ hcollects hanswer hcached with
    hfails | ⟨shared'', new', g, hrun', hg, hgc, hcollects', hgives, hdecl, hlinks⟩
  · exact .inl (hfails.head hmerge)
  rw [show f''.path = f.path from hpast.path] at hg hgives
  rw [show f''.stack = f.stack from hpast.stack] at hcollects' hlinks
  refine .inr ⟨shared'', new ++ new', g, hmerge.trans hrun', hg, hgc.trans hpast.claimed, ?_, hgives,
    ?_, ?_⟩
  · exact hcollects.trans hcollects' fun d hd => hdecl d (Program.declares_merge.2 (.inr hd))
  · exact fun d hd => hdecl d (Program.declares_merge.2 (.inl hd))
  · rw [hpast.pending]
    exact List.forall_mem_cons.2 ⟨.inl ((hcollects'.gains.cached _).2 (.inl hcached)), hlinks⟩

/-- **A file goes through what it includes**, if each file that it asks for can be got. -/
theorem merges (hs : setting.Surveyed root files)
    (hcall : ∀ (key : String) (shared : Shared) (fs : List Frame) (stack : IncludeStack),
      stack.paths = outer ++ [key] → key ∉ outer → ReflTransGen setting.Includes root key →
      Ready setting root outer shared → Resolves setting root p outer shared fs key stack)
    (pending : List String) (f : Frame) (shared : Shared) (hpending : f.pending = pending)
    (houter : f.stack.paths = outer) (hready : Ready setting root outer shared)
    (hgives : setting.Gives root f.path f.program)
    (hincludes : ∀ i ∈ pending, setting.Includes f.path (Path.normalize i))
    (hvisited : ∀ key ∈ f.visited, (shared.cache.lookup key).isSome = true ∨ key ∈ outer) :
    Merges setting root p shared f fs := by
  induction pending generalizing f shared with
  | nil =>
    refine .inr ⟨shared, [], f, .single ?_, rfl, rfl, .rfl hready.stocks, hgives, fun _ hd => hd, ?_⟩
    · simp [Next, step, mergeStep, hpending, goTo]
    · simp [hpending]
  | cons next pending ih =>
    obtain ⟨hnext, hrest⟩ := List.forall_mem_cons.1 hincludes
    have hreached := hgives.reached.tail hnext
    have hsettled := hs.settled _ hreached
    have hon : f.stack.contains (Path.normalize next) = true ↔ Path.normalize next ∈ outer := by
      unfold IncludeStack.contains
      rw [hsettled, houter]
      exact List.contains_iff_mem
    by_cases hv : f.visited.contains (Path.normalize next) = true
    · -- the file was met before
      have hpast : f.Past next { f with pending } := ⟨rfl, rfl, rfl, rfl, hpending⟩
      have hstep : Next setting (shared, ⟨p, false, f :: fs, .merge⟩)
          (shared, ⟨p, false, { f with pending } :: fs, .merge⟩) := by
        simp only [Next, step, mergeStep, hpending, hv, if_true]
      refine Merges.pass hpast hstep ?_
        (ih { f with pending } shared rfl houter hready hgives hrest hvisited)
      rw [houter]
      exact hvisited _ (by simpa using hv)
    let f' : Frame := { f with pending, visited := Path.normalize next :: f.visited }
    have hpast : f.Past next f' := ⟨rfl, rfl, rfl, rfl, hpending⟩
    by_cases hmem : Path.normalize next ∈ outer
    · -- the file is being read further out
      have hstep : Next setting (shared, ⟨p, false, f :: fs, .merge⟩)
          (shared, ⟨p, false, f' :: fs, .merge⟩) := by
        simp only [Next, step, mergeStep, hpending, hv, hon.2 hmem, if_true, if_false,
          Bool.false_eq_true, f']
      refine Merges.pass hpast hstep (houter ▸ .inr hmem)
        (ih f' shared rfl houter hready hgives hrest ?_)
      exact List.forall_mem_cons.2 ⟨.inr hmem, hvisited⟩
    · let stack := f.stack.push (Path.normalize next)
      have hstep : Next setting (shared, ⟨p, false, f :: fs, .merge⟩)
          (shared, ⟨p, false, f' :: fs, .ask (Path.normalize next) stack⟩) := by
        simp only [Next, step, mergeStep, hpending, hv, mt hon.1 hmem, if_false, Bool.false_eq_true,
          f', stack]
      have hlook : Next setting (shared, ⟨p, false, f' :: fs, .ask (Path.normalize next) stack⟩)
          (shared, ⟨p, false, f' :: fs, .look (Path.normalize (Path.normalize next)) stack⟩) :=
        next_ask hs.resolver
      rw [hsettled] at hlook
      have hstack : stack.paths = outer ++ [Path.normalize next] := by
        simp only [stack, IncludeStack.push, houter, hsettled]
      refine Merges.ask hpast ((ReflTransGen.single hstep).tail hlook)
        (houter ▸ hcall _ shared (f' :: fs) stack hstack hmem hreached hready) ?_
      intro shared' new q hcollects hq hcached
      rw [houter] at hcollects
      refine ih _ shared' rfl houter (hready.of_collects hcollects) (hgives.merge hq) hrest ?_
      refine List.forall_mem_cons.2 ⟨.inl hcached, fun key hkey => ?_⟩
      exact (hvisited key hkey).imp_left fun hc => (hcollects.gains.cached key).2 (.inl hc)

/-- There are fewer files left when one more is being read. -/
lemma card_left_lt (hkey : key ∈ files) (hnot : key ∉ outer) :
    (files.filter (· ∉ outer ++ [key])).card < (files.filter (· ∉ outer)).card := by
  refine Finset.card_lt_card ⟨fun k hk => ?_, fun hsubset => ?_⟩
  · simp only [Finset.mem_filter, List.mem_append, not_or] at hk ⊢
    exact ⟨hk.1, hk.2.1⟩
  · have hmem := hsubset (Finset.mem_filter.2 ⟨hkey, hnot⟩)
    simp at hmem

/-- **A file that is not in the cache is built**, if each file that it asks for can be got. -/
theorem builds (hs : setting.Surveyed root files)
    (hcall : ∀ readings, setting.sources key = .ok readings →
      ∀ (k : String) (shared : Shared) (fs : List Frame) (stack : IncludeStack),
        stack.paths = outer ++ [key] ++ [k] → k ∉ outer ++ [key] →
        ReflTransGen setting.Includes root k → Ready setting root (outer ++ [key]) shared →
        Resolves setting root p (outer ++ [key]) shared fs k stack)
    (hstack : stack.paths = outer ++ [key]) (hnot : key ∉ outer)
    (hreached : ReflTransGen setting.Includes root key) (hready : Ready setting root outer shared)
    (hc : shared.cache.lookup key = none) : Resolves setting root p outer shared fs key stack := by
  have hsettled := hs.settled key hreached
  have hb : shared.table.build? key = none := by
    by_contra hb
    obtain ⟨build, hb⟩ := Option.ne_none_iff_exists'.1 hb
    exact hnot (hready.table key build hb)
  let f : Frame := { path := key, stack, claimed := true }
  let shared₁ : Shared := ⟨shared.cache, shared.table.begin key ⟨0, shared.builds⟩,
    shared.builds + 1, shared.opened ++ [key]⟩
  have hopen : ReflTransGen (Next setting) (shared, ⟨p, false, fs, .look key stack⟩)
      (shared₁, ⟨p, false, f :: fs, .gate⟩) :=
    ((ReflTransGen.single (next_miss hsettled hc)).tail (next_claim hc hb)).tail next_open
  cases hsource : setting.sources key with
  | error error =>
    exact .inl ((endsInError_unwind error _ shared₁).head
      (hopen.tail (next_missing hs.gates hsource)))
  | ok readings =>
    have hread := (hopen.tail (next_found hs.gates hsource)).trans (reads {} [] readings)
    rw [show f.path = key from rfl, ← Setting.fileProgram_eq hsource] at hread
    cases hq : setting.fileProgram key with
    | error error =>
      rw [hq] at hread
      exact .inl ((endsInError_unwind error _ shared₁).head hread)
    | ok q =>
      rw [hq] at hread
      let f₁ : Frame := { f with program := q, pending := q.includes.toList }
      have hready₁ : Ready setting root (outer ++ [key]) shared₁ := by
        refine ⟨fun k build hbuild => ?_, hready.stocks⟩
        by_cases hk : k = key
        · simp [hk]
        · rw [BuildTable.build?_begin_of_ne _ _ hk] at hbuild
          exact List.mem_append_left _ (hready.table k build hbuild)
      have hincludes : ∀ i ∈ q.includes.toList, setting.Includes key (Path.normalize i) :=
        fun i hi => ⟨hsettled, q, hq, List.mem_eraseDups.2 (List.mem_map_of_mem hi)⟩
      have hmerges : Merges setting root p shared₁ f₁ fs :=
        merges hs (hcall readings hsource) q.includes.toList f₁ shared₁ rfl hstack hready₁
          (.of_fileProgram hreached hq) hincludes (by simp [f₁, f])
      rcases hmerges with hfails | ⟨shared₂, new, g, hrun, hg, hgc, hcollects, hgives, hdecl, hlinks⟩
      · exact .inl (hfails.head hread)
      -- the file is not yet in the cache, since it has been being read all the time
      have hc₂ : shared₂.cache.lookup g.path = none := by
        by_contra hne
        rw [show g.path = key from hg] at hne
        rcases (hcollects.gains.cached key).1 (Option.isSome_iff_ne_none.2 hne) with hold | hnew
        · rw [show shared₁.cache.lookup key = none from hc] at hold
          cases hold
        · exact hcollects.apart key hnew (by simp [f₁, f, hstack])
      have hend := (((hread.trans hrun).tail (next_publish hgc hc₂)).tail (next_release hgc))
      rw [show g.path = key from hg] at hend
      rw [show f₁.stack.paths = outer ++ [key] from hstack] at hcollects hlinks
      refine .inr ⟨_, key :: new, ⟨⟨key, g.program⟩, some key⟩, hend, ?_, hgives, by simp⟩
      exact hcollects.publish hc hb hnot hq hgives hdecl hlinks

/-- **A file is got from the cache or built.**  The induction is on the number of files that are not
being read yet. -/
theorem resolves (hs : setting.Surveyed root files) (n : Nat) (outer : List String) (key : String)
    (shared : Shared) (fs : List Frame) (stack : IncludeStack)
    (hn : (files.filter (· ∉ outer)).card < n) (hstack : stack.paths = outer ++ [key])
    (hnot : key ∉ outer) (hreached : ReflTransGen setting.Includes root key)
    (hready : Ready setting root outer shared) :
    Resolves setting root p outer shared fs key stack := by
  induction n generalizing outer key shared fs stack with
  | zero => exact absurd hn (Nat.not_lt_zero _)
  | succ n ih =>
    have hsettled := hs.settled key hreached
    cases hc : shared.cache.lookup key with
    | some shader =>
      exact .inr ⟨shared, [], ⟨shader, some key⟩, .single (next_hit hsettled hc), .rfl hready.stocks,
        hready.stocks key shader hc, by simp [hc]⟩
    | none =>
      refine builds hs (fun readings hsource k shared fs stack => ?_) hstack hnot hreached hready hc
      have hleft := card_left_lt (hs.finite key readings hsettled hsource) hnot
      exact ih (outer ++ [key]) k shared fs stack (by omega)

end Task

/-! ### A whole compilation -/

/-- **A file with all that is reached from it.**  Each file that is reached was opened once and is in
the cache, and no other; the program declares what these files declare, and nothing else, and each of
its lists begins with what the first file declares itself. -/
structure Setting.Whole (setting : Setting) (root : String) (shared : Shared) (p : Program) : Prop where
  opened_once : shared.opened.Nodup
  opened_iff : ∀ key, key ∈ shared.opened ↔ ReflTransGen setting.Includes root key
  cached_iff : ∀ key, (shared.cache.lookup key).isSome = true ↔ ReflTransGen setting.Includes root key
  readable : ∀ key, ReflTransGen setting.Includes root key → ∃ q, setting.fileProgram key = .ok q
  declares_iff : ∀ d, p.Declares d ↔ ∃ key q, ReflTransGen setting.Includes root key ∧
    setting.fileProgram key = .ok q ∧ q.Declares d
  own_first : ∃ q, setting.fileProgram root = .ok q ∧ p.Begins q

/-- What is collected from an empty cache, while no other file is being read, is everything. -/
lemma Setting.Collects.whole {setting : Setting} {root : String} {shared : Shared} {new : List String}
    {p : Program} (h : setting.Collects root [] {} shared new p) (hgives : setting.Gives root root p)
    (hcached : (shared.cache.lookup root).isSome = true) : setting.Whole root shared p := by
  have hnew : ∀ key, (shared.cache.lookup key).isSome = true ↔ key ∈ new := by
    intro key
    rw [h.gains.cached]
    simp
  -- the files in the cache are closed under includes
  have hreach : ∀ key, ReflTransGen setting.Includes root key →
      (shared.cache.lookup key).isSome = true := by
    intro key hkey
    induction hkey with
    | refl => exact hcached
    | @tail k i _ hi ih => exact (h.closed k ((hnew k).1 ih) i hi).resolve_right List.not_mem_nil
  have hgiven : ∀ key, (shared.cache.lookup key).isSome = true →
      ∃ shader : Shader, setting.Gives root key shader.program := by
    intro key hkey
    obtain ⟨shader, hshader⟩ := Option.isSome_iff_exists.1 hkey
    exact ⟨shader, h.stocks key shader hshader⟩
  have hiff : ∀ key, (shared.cache.lookup key).isSome = true ↔
      ReflTransGen setting.Includes root key := by
    intro key
    refine ⟨fun hkey => ?_, hreach key⟩
    obtain ⟨shader, hshader⟩ := hgiven key hkey
    exact hshader.reached
  have hopened : shared.opened = new := h.gains.opened
  constructor
  case opened_once => exact hopened ▸ h.gains.nodup
  case opened_iff =>
    intro key
    rw [hopened, ← hnew, hiff]
  case cached_iff => exact hiff
  case readable =>
    intro key hkey
    obtain ⟨shader, hshader⟩ := hgiven key (hreach key hkey)
    obtain ⟨q, hq, -⟩ := hshader.own
    exact ⟨q, hq⟩
  case declares_iff =>
    refine fun d => ⟨hgives.sound d, ?_⟩
    rintro ⟨key, q, hkey, hq, hd⟩
    exact h.holds key ((hnew key).1 (hreach key hkey)) q d hq hd
  case own_first => exact hgives.own

namespace Session

variable {setting : Setting} {path : String} {files : Finset String} {s : Session} {i : Nat}

/-- A task at its end takes no more steps. -/
lemma after_of_result {result : Except Error Answer} (h : s.result? i = some result) (n : Nat) :
    s.after (.replicate n (.step i)) = s := by
  obtain ⟨t, ht, hdone⟩ := Option.bind_eq_some_iff.1 h
  have hstill : s.happen (.step i) = s := by
    simp [happen, happen?, ht, Task.step, Task.result?_eq_some.1 hdone]
  induction n with
  | zero => rfl
  | succ n ih => rw [List.replicate_succ, after_cons, hstill, ih]

/-- A request that has come to its end is there for good. -/
lemma after_request_of_le {result : Except Error Answer} {m n : Nat}
    (h : (s.after (request path i m)).result? i = some result) (hmn : m ≤ n) :
    s.after (request path i n) = s.after (request path i m) := by
  obtain ⟨k, rfl⟩ := Nat.exists_eq_add_of_le hmn
  rw [request_add, after_append, after_of_result h]

/-- **A request by itself comes to its end**, in an error or with all that is reached. -/
lemma exists_result (hs : setting.Surveyed (Path.normalize path) files) :
    ∃ n result, (({ setting } : Session).after (request path 0 n)).result? 0 = some result ∧
      ∀ answer, result = .ok answer → setting.Whole (Path.normalize path)
        (({ setting } : Session).after (request path 0 n)).shared answer.shader.program := by
  have hstart : ({ setting } : Session).IsAt setting {} [] := ⟨rfl, rfl, rfl⟩
  have hask : ReflTransGen (Task.Next setting) ({}, Task.ofPath 0 path false)
      ({}, ⟨path, false, [], .look (Path.normalize path) (.root 0 path)⟩) :=
    .single (Task.next_ask hs.resolver)
  -- where the task comes to its end, the session does
  have ends : ∀ (shared : Shared) (result : Except Error Answer),
      ReflTransGen (Task.Next setting) ({}, Task.ofPath 0 path false)
        (shared, ⟨path, false, [], .done result⟩) →
      ∃ n, (({ setting } : Session).after (request path 0 n)).result? 0 = some result ∧
        (({ setting } : Session).after (request path 0 n)).shared = shared := by
    intro shared result hrun
    obtain ⟨n, hn⟩ := Task.exists_steps hrun
    have hend := (hstart.start path).steps (i := 0) (t := .ofPath 0 path false) rfl hn
    exact ⟨n, hend.result? rfl rfl, hend.shared⟩
  have hresolves : Task.Resolves setting (Path.normalize path) path [] {} [] (Path.normalize path)
      (.root 0 path) :=
    Task.resolves hs _ [] _ {} [] _ (Nat.lt_succ_self _) rfl List.not_mem_nil .refl
      ⟨by simp [BuildTable.build?], by simp [Setting.Stocks]⟩
  rcases hresolves with ⟨shared, error, hfails⟩ | ⟨shared, new, answer, hrun, hcollects, hgives, hcached⟩
  · obtain ⟨n, hresult, -⟩ := ends shared (.error error) (hask.trans hfails)
    refine ⟨n, _, hresult, fun answer heq => ?_⟩
    cases heq
  · obtain ⟨n, hresult, hshared⟩ := ends shared (.ok answer) ((hask.trans hrun).tail rfl)
    refine ⟨n, _, hresult, fun answer' heq => ?_⟩
    obtain rfl := Except.ok.inj heq
    rw [hshared]
    exact hcollects.whole hgives hcached

/-- **One compilation collects all that is reached.**  Take finitely many files that include each other
in any way, loops among them, and a path from which only files under settled paths are reached.  A
request for the path, by itself and from an empty cache, comes to its end.  If it ends with a shader,
then every file that is reached has been opened once and is in the cache, and no other file; the shader
declares what the files that are reached declare, uniforms, varyings, constants, functions, stages and
includes, and nothing else; and the declarations of the first file come first in each list. -/
theorem request_collects_reached (pipeline : Pipeline)
    (sources : String → Except Error (List Reading)) (path : String)
    (hfinite : {key | Path.normalize key = key ∧ ∃ readings, sources key = .ok readings}.Finite)
    (hsettled : ∀ key, ReflTransGen ({ pipeline, sources } : Setting).Includes (Path.normalize path) key →
      Path.normalize key = key) :
    let setting : Setting := { pipeline, sources }
    (∃ n, ((({ setting } : Session).after (request path 0 n)).result? 0).isSome = true) ∧
    ∀ n answer, (({ setting } : Session).after (request path 0 n)).result? 0 = some (.ok answer) →
      setting.Whole (Path.normalize path) (({ setting } : Session).after (request path 0 n)).shared
        answer.shader.program := by
  intro setting
  have hs : setting.Surveyed (Path.normalize path) hfinite.toFinset :=
    ⟨rfl, rfl, hsettled, fun key readings hkey hreadings =>
      hfinite.mem_toFinset.2 ⟨hkey, readings, hreadings⟩⟩
  obtain ⟨m, result, hresult, hwhole⟩ := exists_result hs
  refine ⟨⟨m, by rw [hresult]; rfl⟩, fun n answer hanswer => ?_⟩
  -- both numbers of steps lead to the end, and so to the same state
  have hsame : ({ setting } : Session).after (request path 0 n) =
      ({ setting } : Session).after (request path 0 m) := by
    rcases le_total m n with hmn | hnm
    · exact after_request_of_le hresult hmn
    · exact (after_request_of_le hanswer hnm).symm
  rw [hsame] at hanswer ⊢
  exact hwhole answer (Option.some.inj (hresult.symm.trans hanswer))

/-- Every file that is reached in the ring is under a settled path. -/
lemma settled_ring {key : String} (h : ReflTransGen Setting.ring.Includes "a" key) :
    Path.normalize key = key := by
  have hlinks : ∀ k ∈ ["a", "b", "c", "d"], ∀ i ∈ Setting.ring.links k, i ∈ ["a", "b", "c", "d"] := by
    decide +kernel
  have hmem : key ∈ ["a", "b", "c", "d"] := by
    induction h with
    | refl => exact List.mem_cons_self
    | @tail k i _ hi ih => exact hlinks k ih i hi.mem_links
  have hsettled : ∀ k ∈ ["a", "b", "c", "d"], Path.normalize k = k := by decide +kernel
  exact hsettled key hmem

/-- From `a` the whole ring is collected, although `b` is built while `a` is being read. -/
theorem request_collects_ring : ∃ answer,
    (({ setting := .ring } : Session).after (request "a" 0 52)).result? 0 = some (.ok answer) ∧
    Setting.ring.Whole (Path.normalize "a")
      (({ setting := .ring } : Session).after (request "a" 0 52)).shared answer.shader.program := by
  have hnames : ((({ setting := .ring } : Session).after (request "a" 0 52)).result? 0).bind
      uniformNames = some ["a", "b", "c", "d"] := by
    decide +kernel
  obtain ⟨answer, hanswer, -⟩ := exists_uniformNames hnames
  have ha : Path.normalize "a" = "a" := by decide +kernel
  have hwhole := (request_collects_reached [] Setting.ring.sources "a"
    Setting.loopFreeFrom_ring.finite fun key h => settled_ring (ha ▸ h)).2 52 answer hanswer
  exact ⟨answer, hanswer, hwhole⟩

end Session

end Shading
