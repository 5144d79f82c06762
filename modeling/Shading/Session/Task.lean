import Shading.Archetype
import Shading.Error
import Shading.Include.BuildTable
import Shading.Include.Stack
import Shading.Grammar.Program

/-!
# Tasks

A task is one compilation.  It reads a file, asks the resolver for each file that it includes, and
merges what it gets; a file that is not in the cache is built by the task that first claims it, and
the other tasks wait for it.  A task goes on in steps, between which other tasks may go on.

* `Frame` — a file whose declarations are being put together;
* `Phase` — what a task does next;
* `Task.step` — one step of a task, unless it is blocked;
* `Task.abort` — a task that is told to stop while it is blocked.
-/

namespace Shading

/-- Who answers for an included file. -/
inductive Resolver
  /-- Nobody. -/
  | refuse
  /-- The sources, anew each time. -/
  | load
  /-- The cache, or the task that builds the file; the paths in `skip` are left out. -/
  | cache (skip : List String)

/-- What tasks read and do not change.  A source behind a gate cannot be opened. -/
structure Setting where
  pipeline : Pipeline := []
  resolver : Resolver := .cache []
  sources : String → Except Error (List Reading)
  gates : List String := []

/-- What tasks share: the shaders built, the builds and waits in progress, the number of builds begun,
and the sources opened. -/
structure Shared where
  cache : List (String × Shader) := []
  table : BuildTable := {}
  builds : Nat := 0
  opened : List String := []

/-- A shader, and the key under which the cache keeps it if it comes from there. -/
structure Answer where
  shader : Shader
  cachedAs : Option String

/-- A file whose declarations are being put together.  A claimed file stands in the build table. -/
structure Frame where
  path : String
  stack : IncludeStack
  claimed : Bool
  program : Program := {}
  pending : List String := []
  visited : List String := []

/-- What a task does next. -/
inductive Phase
  /-- Asks the resolver for a file. -/
  | ask (path : String) (stack : IncludeStack)
  /-- Looks for a file in the cache. -/
  | look (key : String) (stack : IncludeStack)
  /-- Claims a file that was not in the cache. -/
  | claim (key : String) (stack : IncludeStack)
  /-- Waits for the end of a build. -/
  | wait (key : String) (ticket : Nat) (stack : IncludeStack)
  /-- Asks the sources for the innermost file. -/
  | openSource
  /-- Goes through the gate of the innermost file. -/
  | gate
  /-- Reads the innermost file line by line. -/
  | read (scanner : Scanner) (tokens : List Token) (later : List Reading)
  /-- Goes through the files that the innermost file includes. -/
  | merge
  /-- Puts the innermost file into the cache. -/
  | publish
  /-- Ends the build of the innermost file. -/
  | release (answer : Answer)
  /-- Gives the resolver's answer to the file that asked. -/
  | deliver (answer : Option Answer)
  /-- Gives up the files that are being put together. -/
  | unwind (error : Error)
  /-- Has come to its end. -/
  | done (result : Except Error Answer)
  /-- Was dropped before its end. -/
  | dropped

/-- A compilation: the path it was asked for, whether it has been told to stop, and the files being
put together, the innermost first. -/
structure Task where
  path : String
  cancelled : Bool := false
  frames : List Frame := []
  phase : Phase

namespace Task

/-- The compilation of a file that the resolver gives. -/
def ofPath (chain : Nat) (path : String) (cancelled : Bool) : Task where
  path := path
  cancelled := cancelled
  phase := .ask path (.root chain path)

/-- The compilation of a text. -/
def ofText (chain : Nat) (path text : String) (cancelled : Bool) : Task where
  path := path
  cancelled := cancelled
  frames := [{ path, stack := .root chain path, claimed := false }]
  phase := .read {} [] (Reading.ofText text)

/-- The result, once there is one. -/
def result? (t : Task) : Option (Except Error Answer) :=
  match t.phase with
  | .done result => some result
  | _ => none

/-- Neither at its end nor dropped. -/
def isPending (t : Task) : Bool :=
  match t.phase with
  | .done _ => false
  | .dropped => false
  | _ => true

/-- The task with another phase. -/
def goTo (t : Task) (phase : Phase) : Task := { t with phase }

/-- Begins to put a file together. -/
def enter (t : Task) (path : String) (stack : IncludeStack) (claimed : Bool) : Task :=
  { t with frames := { path, stack, claimed } :: t.frames, phase := .openSource }

/-! ## Steps -/

variable (setting : Setting) (shared : Shared) (t : Task)

/-- Asks the resolver for a file. -/
def askStep (path : String) (stack : IncludeStack) : Task :=
  match setting.resolver with
  | .refuse => t.goTo (.unwind (.inclusion .noResolver path))
  | .load =>
    if t.cancelled then t.goTo (.unwind .cancelled) else t.enter (Path.normalize path) stack false
  | .cache skip =>
    if skip.contains path then t.goTo (.deliver none) else t.goTo (.look (Path.normalize path) stack)

/-- The cache is asked for the normal form of the key. -/
def lookStep (key : String) (stack : IncludeStack) : Task :=
  let found := Path.normalize key
  match shared.cache.lookup found with
  | some shader => t.goTo (.deliver (some ⟨shader, some found⟩))
  | none => if t.cancelled then t.goTo (.unwind .cancelled) else t.goTo (.claim key stack)

/-- A file that is in the cache by now is looked for again.  One that nobody builds is built by the
task.  Otherwise the task waits, unless that would close a loop: then the file is left out. -/
def claimStep (chain : Nat) (key : String) (stack : IncludeStack) : Shared × Task :=
  if (shared.cache.lookup key).isSome then (shared, t.goTo (.look key stack))
  else match shared.table.build? key with
    | none =>
      let table := shared.table.begin key ⟨chain, shared.builds⟩
      ({ shared with table, builds := shared.builds + 1 }, t.enter key stack true)
    | some build =>
      if shared.table.closesCycle chain key then (shared, t.goTo (.deliver none))
      else
        ({ shared with table := shared.table.wait chain key }, t.goTo (.wait key build.ticket stack))

/-- Whether the build that a task waits for is still going on. -/
def isBuilding (key : String) (ticket : Nat) : Bool :=
  (shared.table.build? key).any (·.ticket == ticket)

/-- One line of the innermost file; at its end the program of the file. -/
def readStep (frame : Frame) (frames : List Frame) (scanner : Scanner) (tokens : List Token)
    (later : List Reading) : Task :=
  if t.cancelled then t.goTo (.unwind .cancelled)
  else match later with
    | [] =>
      match Program.ofTokens tokens with
      | .error fault => t.goTo (.unwind (.parse frame.path fault))
      | .ok program =>
        let program := setting.pipeline.apply program
        let frame := { frame with program, pending := program.includes.toList }
        { t with frames := frame :: frames, phase := .merge }
    | reading :: later =>
      match reading.line with
      | .error fault => t.goTo (.unwind (.io fault))
      | .ok text =>
        match scanner.line text with
        | (_, .error fault) => t.goTo (.unwind (.lex frame.path fault))
        | (scanner, .ok ts) => t.goTo (.read scanner (tokens ++ ts) later)

/-- One included file.  A file that was already met, and one that is being read further out, are
passed over. -/
def mergeStep (frame : Frame) (frames : List Frame) : Task :=
  match frame.pending with
  | [] => t.goTo .publish
  | next :: pending =>
    let path := Path.normalize next
    if frame.visited.contains path then
      { t with frames := { frame with pending } :: frames }
    else
      let frame := { frame with pending, visited := path :: frame.visited }
      if frame.stack.contains path then { t with frames := frame :: frames }
      else if t.cancelled then { t with frames := frame :: frames, phase := .unwind .cancelled }
      else { t with frames := frame :: frames, phase := .ask path (frame.stack.push path) }

/-- A claimed file goes into the cache, unless its key is there. -/
def publishStep (frame : Frame) : Shared × Task :=
  let shader : Shader := ⟨frame.path, frame.program⟩
  if frame.claimed then
    match shared.cache.lookup frame.path with
    | some kept => (shared, t.goTo (.release ⟨kept, some frame.path⟩))
    | none =>
      ({ shared with cache := (frame.path, shader) :: shared.cache },
        t.goTo (.release ⟨shader, some frame.path⟩))
  else (shared, t.goTo (.release ⟨shader, none⟩))

/-- What is shared after a file has been given up or finished. -/
def withoutFrame (frame : Frame) : Shared :=
  if frame.claimed then { shared with table := shared.table.finish frame.path } else shared

/-- The file that asked takes over the declarations of the answer. -/
def deliverStep (answer : Option Answer) : Task :=
  match t.frames with
  | [] =>
    t.goTo (.done (match answer with
      | some answer => .ok answer
      | none => .error (.inclusion .topLevelCycle t.path)))
  | frame :: frames =>
    let program := match answer with
      | some answer => frame.program.merge answer.shader.program
      | none => frame.program
    { t with frames := { frame with program } :: frames, phase := .merge }

/-- One step of a task, which is number `chain`.  There is none at its end and while it is blocked: at
a gate, or by the build it waits for. -/
def step (chain : Nat) : Option (Shared × Task) :=
  match t.phase, t.frames with
  | .ask path stack, _ => some (shared, t.askStep setting path stack)
  | .look key stack, _ => some (shared, t.lookStep shared key stack)
  | .claim key stack, _ => some (t.claimStep shared chain key stack)
  | .wait key ticket stack, _ =>
    if isBuilding shared key ticket then none
    else some ({ shared with table := shared.table.wake chain }, t.goTo (.look key stack))
  | .openSource, frame :: _ =>
    some ({ shared with opened := shared.opened ++ [frame.path] }, t.goTo .gate)
  | .gate, frame :: _ =>
    if setting.gates.contains frame.path then none
    else match setting.sources frame.path with
      | .error error => some (shared, t.goTo (.unwind error))
      | .ok readings => some (shared, t.goTo (.read {} [] readings))
  | .read scanner tokens later, frame :: frames =>
    some (shared, t.readStep setting frame frames scanner tokens later)
  | .merge, frame :: frames => some (shared, t.mergeStep frame frames)
  | .publish, frame :: _ => some (t.publishStep shared frame)
  | .release answer, frame :: frames =>
    some (withoutFrame shared frame, { t with frames, phase := .deliver (some answer) })
  | .deliver answer, _ => some (shared, t.deliverStep answer)
  | .unwind error, [] => some (shared, t.goTo (.done (.error error)))
  | .unwind error, frame :: frames =>
    some (withoutFrame shared frame, { t with frames, phase := .unwind error })
  | _, _ => none

/-- A task that has been told to stop gives up while it waits for a build, and while it opens a file
that it has claimed. -/
def abort (chain : Nat) : Option (Shared × Task) :=
  if t.cancelled then
    match t.phase, t.frames with
    | .wait .., _ =>
      some ({ shared with table := shared.table.wake chain }, t.goTo (.unwind .cancelled))
    | .openSource, frame :: _ => if frame.claimed then some (shared, t.goTo (.unwind .cancelled)) else none
    | .gate, frame :: _ => if frame.claimed then some (shared, t.goTo (.unwind .cancelled)) else none
    | _, _ => none
  else none

end Task

end Shading
