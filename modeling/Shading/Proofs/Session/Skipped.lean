import Mathlib.Data.List.Chain
import Shading.Proofs.Session.History

/-!
# Skipped includes

The resolver leaves an include out when a wait for it would close a loop of compilations.  It sees
builds and waits only, of many compilations, some of which may have failed since.  Still a loop that it
finds there is a loop of the sources: the file that asks is reached, along includes, from the file that
is left out.  So no compilation is ever refused the file that it was asked for.

* `Setting.Requires` — the edges of the include graph, between the keys of the resolver;
* `Task.Tied` — the files being put together, each required by the one outside it;
* `Task.Tied.acts` — every act of a task keeps this;
* `Session.Tied.reaches` — a line of waits is a walk along includes;
* `Session.skips_only_around_loops` — what is left out, in every state of every run.
-/

namespace Shading

open Relation

namespace Setting

variable (setting : Setting)

/-- The file under a key includes a file for which the resolver looks under the key `next`.  A path is
brought into normal form by the file that includes it and once more by the resolver. -/
def Requires (key next : String) : Prop :=
  ∃ program, setting.fileProgram key = .ok program ∧
    ∃ i ∈ program.includes.toList, Path.normalize (Path.normalize i) = next

/-- An error that blames a loop at the top comes from the sources. -/
def Raises (error : Error) : Prop :=
  ∀ path, error = .inclusion .topLevelCycle path → ∃ key, setting.sources key = .error error

end Setting

/-! ### Files being put together -/

/-- The file `f` is claimed, and it is required by the file `g` outside it, unless that is a text. -/
def Frame.Serves (setting : Setting) (f g : Frame) : Prop :=
  f.claimed = true ∧ (g.claimed = true → setting.Requires g.path f.path)

/-- What a claimed file has yet to go through, it requires. -/
def Frame.Linked (setting : Setting) (f : Frame) : Prop :=
  f.claimed = true →
    ∀ next ∈ f.pending, setting.Requires f.path (Path.normalize (Path.normalize next))

/-- What a phase says of the innermost file, when that is claimed. -/
def Phase.Concerns (setting : Setting) (f : Frame) : Phase → Prop
  | .ask path _ => setting.Requires f.path (Path.normalize path)
  | .look key _ | .claim key _ | .wait key _ _ => setting.Requires f.path key
  | .read scanner tokens later =>
    setting.fileProgram f.path = setting.programFrom f.path scanner tokens later
  | _ => True

/-- The innermost of some files is reached from each claimed one, and it is claimed if any is. -/
lemma reaches_head {setting : Setting} {f g : Frame} {fs : List Frame}
    (h : (f :: fs).IsChain (Frame.Serves setting)) (hg : g ∈ f :: fs) (hclaimed : g.claimed = true) :
    f.claimed = true ∧ ReflTransGen setting.Requires g.path f.path := by
  induction fs generalizing f with
  | nil =>
    obtain rfl := List.mem_singleton.1 hg
    exact ⟨hclaimed, .refl⟩
  | cons outer fs ih =>
    rcases List.mem_cons.1 hg with rfl | hg
    · exact ⟨hclaimed, .refl⟩
    · obtain ⟨⟨hf, hrequires⟩, hrest⟩ := List.isChain_cons_cons.1 h
      obtain ⟨houter, hreach⟩ := ih hrest hg
      exact ⟨hf, hreach.tail (hrequires houter)⟩

namespace Task

variable (setting : Setting) (t : Task)

/-- A refusal is given to a file, and an error is one that may be raised. -/
def Explained : Prop :=
  match t.phase with
  | .deliver none => t.frames ≠ []
  | .unwind error | .done (.error error) => setting.Raises error
  | _ => True

/-- **The files being put together**, each required by the one outside it, and what the task does for
the innermost of them. -/
structure Tied : Prop where
  chain : t.frames.IsChain (Frame.Serves setting)
  linked : ∀ f ∈ t.frames, f.Linked setting
  top : ∀ f ∈ t.frames.head?, f.claimed = true → t.phase.Concerns setting f
  explained : t.Explained setting

variable {setting t} {t' : Task} {shared shared' : Shared} {f : Frame} {fs : List Frame} {i : Nat}
  {gates : List String} {phase : Phase}

/-! ### Steps -/

lemma Tied.goTo (h : t.Tied setting)
    (htop : ∀ f, t.phase.Concerns setting f → phase.Concerns setting f)
    (hexplained : (t.goTo phase).Explained setting) : (t.goTo phase).Tied setting :=
  ⟨h.chain, h.linked, fun f hf hclaimed => htop f (h.top f hf hclaimed), hexplained⟩

lemma Tied.fail {error : Error} (h : t.Tied setting) (he : setting.Raises error) :
    (t.goTo (.unwind error)).Tied setting :=
  h.goTo (fun _ _ => trivial) he

/-- What happens to the innermost file does not move it. -/
lemma Tied.replace {f' : Frame} (h : t.Tied setting) (hf : t.frames = f :: fs)
    (hpath : f'.path = f.path) (hclaimed : f'.claimed = f.claimed) (hlinked : f'.Linked setting)
    (htop : f'.claimed = true → phase.Concerns setting f')
    (hexplained : ({ t with frames := f' :: fs, phase } : Task).Explained setting) :
    ({ t with frames := f' :: fs, phase } : Task).Tied setting := by
  have hchain := h.chain
  rw [hf, List.isChain_cons] at hchain
  have hlinks := h.linked
  rw [hf] at hlinks
  refine ⟨List.isChain_cons.2 ⟨fun g hg => ?_, hchain.2⟩, ?_, ?_, hexplained⟩
  · unfold Frame.Serves
    rw [hclaimed, hpath]
    exact hchain.1 g hg
  · exact List.forall_mem_cons.2 ⟨hlinked, (List.forall_mem_cons.1 hlinks).2⟩
  · intro g hg
    obtain rfl : f' = g := Option.some.inj hg
    exact htop

/-- The innermost file is taken away. -/
lemma Tied.pop (h : t.Tied setting) (hf : t.frames = f :: fs)
    (htop : ∀ g, phase.Concerns setting g)
    (hexplained : ({ t with frames := fs, phase } : Task).Explained setting) :
    ({ t with frames := fs, phase } : Task).Tied setting := by
  have hchain := h.chain
  rw [hf] at hchain
  refine ⟨hchain.tail, fun g hg => h.linked g ?_, fun g _ _ => htop g, hexplained⟩
  rw [hf]
  exact List.mem_cons_of_mem _ hg

/-- A file that the task begins to put together is the one that it asked for. -/
lemma Tied.enter {key : String} {stack : IncludeStack} (h : t.Tied setting)
    (hp : t.phase = .claim key stack) : (t.enter key stack true).Tied setting := by
  refine ⟨List.isChain_cons.2 ⟨fun g hg => ⟨rfl, fun hclaimed => ?_⟩, h.chain⟩, ?_, ?_, trivial⟩
  · have htop := h.top g hg hclaimed
    rwa [hp] at htop
  · refine List.forall_mem_cons.2 ⟨fun _ next hnext => ?_, h.linked⟩
    cases hnext
  · exact fun _ _ _ => trivial

lemma raises_cancelled : setting.Raises .cancelled := nofun

lemma Tied.askStep {path : String} {stack : IncludeStack} (hr : setting.resolver = .cache [])
    (h : t.Tied setting) (hp : t.phase = .ask path stack) :
    (t.askStep { setting with gates } path stack).Tied setting := by
  have hstep : t.askStep { setting with gates } path stack =
      t.goTo (.look (Path.normalize path) stack) := by
    simp [Task.askStep, hr]
  rw [hstep]
  exact h.goTo (fun f hf => by rwa [hp] at hf) trivial

lemma Tied.lookStep {key : String} {stack : IncludeStack} (h : t.Tied setting)
    (hp : t.phase = .look key stack) : (t.lookStep shared key stack).Tied setting := by
  unfold Task.lookStep
  simp only
  split
  · exact h.goTo (fun _ _ => trivial) trivial
  · split
    · exact h.fail raises_cancelled
    · exact h.goTo (fun f hf => by rwa [hp] at hf) trivial

lemma Tied.claimStep {key : String} {stack : IncludeStack} (h : t.Tied setting)
    (hp : t.phase = .claim key stack)
    (hcycle : shared.table.closesCycle i key = true → t.frames ≠ []) :
    (t.claimStep shared i key stack).2.Tied setting := by
  unfold Task.claimStep
  split
  · exact h.goTo (fun f hf => by rwa [hp] at hf) trivial
  · split
    · exact h.enter hp
    · split
      · next hclose => exact h.goTo (fun _ _ => trivial) (hcycle hclose)
      · exact h.goTo (fun f hf => by rwa [hp] at hf) trivial

lemma Tied.readStep {scanner : Scanner} {tokens : List Token} {later : List Reading}
    (h : t.Tied setting) (hp : t.phase = .read scanner tokens later) (hf : t.frames = f :: fs) :
    (t.readStep { setting with gates } f fs scanner tokens later).Tied setting := by
  have hread : ∀ g, t.phase.Concerns setting g →
      setting.fileProgram g.path = setting.programFrom g.path scanner tokens later := by
    intro g hg
    rwa [hp] at hg
  unfold Task.readStep
  split
  · exact h.fail raises_cancelled
  · split
    · split
      · exact h.fail nofun
      · next program hok =>
        refine h.replace hf rfl rfl (fun hclaimed next hnext => ?_) (fun _ => trivial) trivial
        have hprogram := hread f (h.top f (by simp [hf]) hclaimed)
        rw [Setting.programFrom_nil, hok] at hprogram
        exact ⟨_, hprogram, next, hnext, rfl⟩
    · split
      · exact h.fail nofun
      · next text htext =>
        split
        · exact h.fail nofun
        · next scanner' ts hline =>
          refine h.goTo (fun g hg => ?_) trivial
          exact (hread g hg).trans (Setting.programFrom_line htext hline)

lemma Tied.mergeStep (h : t.Tied setting) (hp : t.phase = .merge) (hf : t.frames = f :: fs) :
    (t.mergeStep f fs).Tied setting := by
  have hlinked : f.Linked setting := h.linked f (by simp [hf])
  unfold Task.mergeStep
  split
  · exact h.goTo (fun _ _ => trivial) trivial
  · next next pending hpending =>
    have hrest : ∀ visited, ({ f with pending, visited } : Frame).Linked setting :=
      fun _ hclaimed i hi => hlinked hclaimed i (hpending ▸ List.mem_cons_of_mem _ hi)
    simp only
    split
    · exact h.replace hf rfl rfl (hrest _) (fun _ => by rw [hp]; trivial) (by simp [Explained, hp])
    · split
      · exact h.replace hf rfl rfl (hrest _) (fun _ => by rw [hp]; trivial) (by simp [Explained, hp])
      · split
        · exact h.replace hf rfl rfl (hrest _) (fun _ => trivial) raises_cancelled
        · exact h.replace hf rfl rfl (hrest _)
            (fun hclaimed => hlinked hclaimed next (hpending ▸ List.mem_cons_self)) trivial

lemma Tied.publishStep (h : t.Tied setting) : (t.publishStep shared f).2.Tied setting := by
  unfold Task.publishStep
  simp only
  split
  · split <;> exact h.goTo (fun _ _ => trivial) trivial
  · exact h.goTo (fun _ _ => trivial) trivial

lemma Tied.deliverStep {answer : Option Answer} (h : t.Tied setting)
    (hp : t.phase = .deliver answer) : (t.deliverStep answer).Tied setting := by
  unfold Task.deliverStep
  split
  · next hf =>
    cases answer with
    | some answer => exact h.goTo (fun _ _ => trivial) trivial
    | none =>
      -- nobody is refused the file that it was asked for
      have hne := h.explained
      rw [Explained, hp] at hne
      exact absurd hf hne
  · next frame frames hf =>
    exact h.replace hf rfl rfl (h.linked frame (by simp [hf])) (fun _ => trivial) trivial

/-- **Every step keeps the files tied**, when no file is left out for want of a file that asks. -/
theorem Tied.step (hr : setting.resolver = .cache [])
    (hcycle : ∀ key stack, t.phase = .claim key stack → shared.table.closesCycle i key = true →
      t.frames ≠ [])
    (h : t.Tied setting) (hstep : t.step { setting with gates } shared i = some (shared', t')) :
    t'.Tied setting := by
  cases step_iff.1 hstep with
  | asks hp => exact h.askStep hr hp
  | looks hp => exact h.lookStep hp
  | claims hp => exact h.claimStep hp (hcycle _ _ hp)
  | wakes hp => exact h.goTo (fun f hf => by rwa [hp] at hf) trivial
  | opens => exact h.goTo (fun _ _ => trivial) trivial
  | @misses frame _ _ _ _ _ hs => exact h.fail fun _ _ => ⟨frame.path, hs⟩
  | finds _ hf _ hs =>
    refine ⟨h.chain, h.linked, fun g hg _ => ?_, trivial⟩
    obtain rfl := Option.some.inj ((congrArg List.head? hf).symm.trans hg)
    exact Setting.fileProgram_eq hs
  | reads hp hf => exact h.readStep hp hf
  | merges hp hf => exact h.mergeStep hp hf
  | publishes => exact h.publishStep
  | releases _ hf => exact h.pop hf (fun _ => trivial) trivial
  | delivers hp => exact h.deliverStep hp
  | fails hp =>
    have hraises := h.explained
    rw [Explained, hp] at hraises
    exact h.goTo (fun _ _ => trivial) hraises
  | unwinds hp hf =>
    have hraises := h.explained
    rw [Explained, hp] at hraises
    exact h.pop hf (fun _ => trivial) hraises

/-- **Every act keeps the files tied.** -/
theorem Tied.acts (hr : setting.resolver = .cache [])
    (hcycle : ∀ key stack, t.phase = .claim key stack → shared.table.closesCycle i key = true →
      t.frames ≠ [])
    (h : t.Tied setting) (hacts : Acts { setting with gates } i shared t shared' t') :
    t'.Tied setting := by
  cases hacts with
  | step hstep => exact h.step hr hcycle hstep
  | abort habort =>
    obtain ⟨-, rfl, -⟩ := abort_eq_some habort
    exact h.fail raises_cancelled
  | cancel => exact ⟨h.chain, h.linked, h.top, h.explained⟩
  | drop => exact ⟨.nil, by simp, by simp, trivial⟩

/-- What a task has claimed leads to the innermost file, which is claimed too. -/
lemma Tied.reaches_top {key : String} (h : t.Tied setting) (hkey : key ∈ t.claims) :
    ∃ f fs, t.frames = f :: fs ∧ f.claimed = true ∧ ReflTransGen setting.Requires key f.path := by
  obtain ⟨g, hg, hclaimed, rfl⟩ := mem_claims.1 hkey
  have hchain := h.chain
  cases hf : t.frames with
  | nil => simp [hf] at hg
  | cons f fs =>
    rw [hf] at hg hchain
    exact ⟨f, fs, rfl, reaches_head hchain hg hclaimed⟩

end Task

/-! ### Lines of waits -/

namespace Session

variable {setting : Setting} {s s' : Session} {i : Nat} {t : Task}

/-- The files of every task are tied, and the build table agrees with the tasks. -/
structure Tied (setting : Setting) (s : Session) : Prop where
  balanced : s.Balanced
  gated : ∃ gates, s.setting = { setting with gates }
  tasks : ∀ (i : Nat) (t : Task), s.tasks[i]? = some t → t.Tied setting

/-- **A line of waits is a walk along includes**: from each build of the first task to a file that the
last one has claimed. -/
lemma Tied.reaches {d : Nat} (h : s.Tied setting) (hd : ReflTransGen s.shared.table.WaitsOn d i) :
    ∀ k, s.shared.table.builder? k = some d →
      ∃ k', s.shared.table.builder? k' = some i ∧ ReflTransGen setting.Requires k k' := by
  induction hd using ReflTransGen.head_induction_on with
  | refl => exact fun k hk => ⟨k, hk, .refl⟩
  | @head d e hde _ ih =>
    intro k hk
    obtain ⟨awaited, hwaits, hbuilder⟩ := hde
    obtain ⟨u, hu, hmem⟩ := exists_of_mem_claims ((h.balanced.builder_iff k d).1 hk)
    rw [h.balanced.waits_eq, awaits_eq hu] at hwaits
    obtain ⟨ticket, stack, hp⟩ := Task.awaited?_eq_some hwaits
    obtain ⟨f, fs, hf, hclaimed, hreach⟩ := (h.tasks d u hu).reaches_top hmem
    -- the innermost file of the task that waits requires the file that it waits for
    have hrequires := (h.tasks d u hu).top f (by simp [hf]) hclaimed
    rw [hp] at hrequires
    obtain ⟨k', hk', hback⟩ := ih awaited hbuilder
    exact ⟨k', hk', (hreach.tail hrequires).trans hback⟩

/-- **A loop in the tables is a loop in the sources.** -/
lemma Tied.loop {key : String} {stack : IncludeStack} (h : s.Tied setting)
    (ht : s.tasks[i]? = some t) (hp : t.phase = .claim key stack)
    (hclose : s.shared.table.closesCycle i key = true) :
    ∃ f fs, t.frames = f :: fs ∧ f.claimed = true ∧ setting.Requires f.path key ∧
      ReflTransGen setting.Requires key f.path := by
  obtain ⟨d, hd, hwaits⟩ := BuildTable.closesCycle_iff.1 hclose
  obtain ⟨k, hk, hreach⟩ := h.reaches hwaits key hd
  have hmem : k ∈ t.claims := claims_eq ht ▸ (h.balanced.builder_iff k i).1 hk
  obtain ⟨f, fs, hf, hclaimed, hlast⟩ := (h.tasks i t ht).reaches_top hmem
  have hrequires := (h.tasks i t ht).top f (by simp [hf]) hclaimed
  rw [hp] at hrequires
  exact ⟨f, fs, hf, hclaimed, hrequires, hreach.trans hlast⟩

lemma Tied.join (h : s.Tied setting) (hclaims : t.claims = []) (hawaits : t.awaited? = none)
    (ht : t.Tied setting) : ({ s with tasks := s.tasks ++ [t] } : Session).Tied setting where
  balanced := h.balanced.join hclaims hawaits
  gated := h.gated
  tasks j u hu := by
    rcases getElem?_append_cases hu with ⟨-, rfl⟩ | hu
    · exact ht
    · exact h.tasks j u hu

end Session

/-- The event leaves the sources as they are. -/
def Event.KeepsSources : Event → Prop
  | .replace _ => False
  | _ => True

instance : DecidablePred Event.KeepsSources
  | .replace _ => inferInstanceAs (Decidable False)
  | .start .. | .startText .. | .step _ | .abort _ | .cancel _ | .drop _ | .release _ =>
    inferInstanceAs (Decidable True)

namespace Session

variable {setting : Setting} {s s' : Session} {i : Nat} {t : Task}

/-- **Every change keeps the files tied.** -/
lemma Tied.change {e : Event} (hr : setting.resolver = .cache []) (he : e.KeepsSources)
    (h : s.Tied setting) (hc : s.Change e s') : s'.Tied setting := by
  cases hc with
  | @acts _ i t t' shared' _ _ ht hacts hset hshared htasks =>
    obtain ⟨gates, hgates⟩ := h.gated
    refine ⟨h.balanced.turn ht hacts.turn hshared htasks, ⟨gates, hset.trans hgates⟩, ?_⟩
    intro j u hu
    rcases getElem?_set_cases ht htasks hu with ⟨-, rfl⟩ | ⟨-, hu⟩
    · rw [hgates] at hacts
      refine (h.tasks i t ht).acts hr (fun key stack hp hclose => ?_) hacts
      obtain ⟨f, fs, hf, -⟩ := h.loop ht hp hclose
      rw [hf]
      exact List.cons_ne_nil f fs
    · exact h.tasks j u hu
  | still => exact h
  | start => exact h.join rfl rfl ⟨.nil, by simp [Task.ofPath], by simp [Task.ofPath], trivial⟩
  | startText =>
    refine h.join rfl rfl ⟨.singleton _, ?_, ?_, trivial⟩
    · simp [Task.ofText, Frame.Linked]
    · simp [Task.ofText]
  | release =>
    obtain ⟨gates, hgates⟩ := h.gated
    exact ⟨h.balanced, ⟨_, by rw [hgates]⟩, h.tasks⟩
  | replace => exact he.elim

theorem tied_after (hr : setting.resolver = .cache []) {es : List Event}
    (hes : ∀ e ∈ es, e.KeepsSources) : (({ setting } : Session).after es).Tied setting := by
  have hstart : ({ setting } : Session).Tied setting :=
    ⟨Ledger.empty, ⟨setting.gates, rfl⟩, by simp⟩
  exact after_induction es hstart fun e he _ _ h hc => h.change hr (hes e he) hc

end Session

/-- Only a claim is answered by a refusal. -/
lemma Task.step_refused {setting : Setting} {shared shared' : Shared} {t t' : Task} {i : Nat}
    {gates : List String} (hr : setting.resolver = .cache [])
    (hstep : t.step { setting with gates } shared i = some (shared', t'))
    (hp' : t'.phase = .deliver none) :
    ∃ key stack, t.phase = .claim key stack ∧ shared.table.closesCycle i key = true := by
  cases step_iff.1 hstep with
  | asks => simp [askStep, hr] at hp'
  | looks => grind [lookStep, goTo]
  | @claims key stack hp =>
    refine ⟨key, stack, hp, ?_⟩
    grind [claimStep, goTo, enter]
  | wakes | opens | misses | finds | releases | fails | unwinds => cases hp'
  | @reads _ _ _ _ later => cases later <;> grind [readStep, goTo]
  | merges => grind [mergeStep, goTo]
  | publishes => grind [publishStep, goTo]
  | @delivers answer => cases answer <;> grind [deliverStep, goTo]

namespace Session

variable {setting : Setting}

/-- **Only around loops is a file left out.**  Take any sources, and any run over them of any number of
compilations, of paths and of texts, that share a cache.  When a step of a task answers a request with
a refusal, then the request is for a key that a claimed file requires, and that file is reached from
the key along includes, so that both are on a loop.  The file that a task was asked for is therefore
never refused, and no task ends in the error that says so, unless the sources gave this error. -/
theorem skips_only_around_loops (hr : setting.resolver = .cache []) {es : List Event}
    (hes : ∀ e ∈ es, e.KeepsSources) :
    let s := ({ setting } : Session).after es
    (∀ (i : Nat) (t : Task) (shared' : Shared) (t' : Task), s.tasks[i]? = some t →
      t.step s.setting s.shared i = some (shared', t') → t'.phase = .deliver none →
      ∃ key stack f fs, t.phase = .claim key stack ∧ t.frames = f :: fs ∧ f.claimed = true ∧
        setting.Requires f.path key ∧ ReflTransGen setting.Requires key f.path) ∧
    (∀ i path, s.result? i = some (.error (.inclusion .topLevelCycle path)) →
      ∃ key, setting.sources key = .error (.inclusion .topLevelCycle path)) := by
  intro s
  have h : s.Tied setting := tied_after hr hes
  refine ⟨fun i t shared' t' ht hstep hp' => ?_, fun i path hresult => ?_⟩
  · obtain ⟨gates, hgates⟩ := h.gated
    rw [hgates] at hstep
    obtain ⟨key, stack, hp, hclose⟩ := Task.step_refused hr hstep hp'
    obtain ⟨f, fs, hf, hclaimed, hrequires, hreach⟩ := h.loop ht hp hclose
    exact ⟨key, stack, f, fs, hp, hf, hclaimed, hrequires, hreach⟩
  · obtain ⟨t, ht, hdone⟩ := Option.bind_eq_some_iff.1 hresult
    have hraises := (h.tasks i t ht).explained
    rw [Task.Explained, Task.result?_eq_some.1 hdone] at hraises
    exact hraises path rfl

/-- A run in which the request for `a` is about to ask for `b`, while the request for `b` waits for `a`. -/
def crossed : List Event := request "a" 0 9 ++ request "b" 1 13 ++ .replicate 2 (.step 0)

theorem skips_crossed : ∃ t shared' t' key stack f fs,
    let s := ({ setting := .ring } : Session).after crossed
    s.tasks[0]? = some t ∧ t.step s.setting s.shared 0 = some (shared', t') ∧
    t'.phase = .deliver none ∧ t.phase = .claim key stack ∧ t.frames = f :: fs ∧
    f.claimed = true ∧ Setting.ring.Requires f.path key ∧
    ReflTransGen Setting.ring.Requires key f.path := by
  let s := ({ setting := .ring } : Session).after crossed
  have hend : (s.tasks[0]?.any fun t => (t.step s.setting s.shared 0).any fun p =>
      match p.2.phase with
      | .deliver none => true
      | _ => false) = true := by
    decide +kernel
  obtain ⟨t, ht, hstep⟩ := (Option.any_eq_true _ _).1 hend
  obtain ⟨⟨shared', t'⟩, hstep, hrefused⟩ := (Option.any_eq_true _ _).1 hstep
  have hp' : t'.phase = .deliver none := by
    split at hrefused
    · assumption
    · cases hrefused
  obtain ⟨key, stack, f, fs, hloop⟩ :=
    (skips_only_around_loops rfl (by decide)).1 0 t shared' t' ht hstep hp'
  exact ⟨t, shared', t', key, stack, f, fs, ht, hstep, hp', hloop⟩

end Session

end Shading
