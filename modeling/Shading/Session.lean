import Shading.Session.Task

/-!
# Sessions

Many compilations that share one resolver.  A session goes on by events: a step of one of its tasks,
or something from outside.  Every order of the steps is a run of the session; `settle` is the order in
which tasks take turns by their numbers, each going on as long as it can.

* `Event`, `Session.happen?` — what may happen, and what it leads to;
* `Session.settle` — goes on until every task is blocked or at its end.
-/

namespace Shading

/-- The tasks of a session by number, and those that came to their ends in order. -/
structure Session where
  setting : Setting
  shared : Shared := {}
  tasks : List Task := []
  finished : List Nat := []

/-- What may happen in a session. -/
inductive Event
  /-- A task goes on. -/
  | step (task : Nat)
  /-- A blocked task finds that it has been told to stop. -/
  | abort (task : Nat)
  /-- A task is told to stop. -/
  | cancel (task : Nat)
  /-- A task is dropped. -/
  | drop (task : Nat)
  /-- A task begins for a path. -/
  | start (path : String) (cancelled : Bool)
  /-- A task begins for a text. -/
  | startText (path text : String) (cancelled : Bool)
  /-- A gate opens for good. -/
  | release (path : String)
  /-- The sources change. -/
  | replace (sources : String → Except Error (List Reading))

namespace Session

variable (s : Session)

/-- Puts a task and what it shares back in place. -/
def put (i : Nat) (shared : Shared) (t : Task) : Session :=
  { s with
    shared
    tasks := s.tasks.set i t
    finished := if t.result?.isSome then s.finished ++ [i] else s.finished }

/-- The session after an event, if the event can happen. -/
def happen? : Event → Option Session
  | .step i => do
    let t ← s.tasks[i]?
    let (shared, t) ← t.step s.setting s.shared i
    return s.put i shared t
  | .abort i => do
    let t ← s.tasks[i]?
    let (shared, t) ← t.abort s.shared i
    return s.put i shared t
  | .cancel i => do
    let t ← s.tasks[i]?
    return { s with tasks := s.tasks.set i { t with cancelled := true } }
  | .drop i => do
    let t ← s.tasks[i]?
    if t.isPending then
      let shared := { s.shared with table := s.shared.table.leave i }
      return { s with shared, tasks := s.tasks.set i { t with frames := [], phase := .dropped } }
    else return s
  | .start path cancelled =>
    some { s with tasks := s.tasks ++ [Task.ofPath s.tasks.length path cancelled] }
  | .startText path text cancelled =>
    some { s with tasks := s.tasks ++ [Task.ofText s.tasks.length path text cancelled] }
  | .release path =>
    some { s with setting := { s.setting with gates := s.setting.gates.filter (· != path) } }
  | .replace sources => some { s with setting := { s.setting with sources } }

/-- The session after an event, or as it is when the event cannot happen. -/
def happen (e : Event) : Session := (s.happen? e).getD s

/-- A task goes on, or stops when it is blocked and told to. -/
def advance? (i : Nat) : Option Session := (s.happen? (.abort i)).or (s.happen? (.step i))

/-- A task goes on as long as it can, for at most `n` steps. -/
def run (i : Nat) : Nat → Session → Session
  | 0, s => s
  | n + 1, s =>
    match s.advance? i with
    | none => s
    | some s => run i n s

/-- Each task goes on as long as it can, in the order of their numbers. -/
def pass (limit : Nat) : Session := (List.range s.tasks.length).foldl (fun s i => run i limit s) s

/-- Whether every task is blocked or at its end. -/
def isSettled : Bool := (List.range s.tasks.length).all fun i => (s.advance? i).isNone

/-- Passes until every task is blocked or at its end, at most `n` passes. -/
def settleWithin (limit : Nat) : Nat → Session → Session
  | 0, s => s
  | n + 1, s => if s.isSettled then s else settleWithin limit n (s.pass limit)

/-- The steps after which a run is given up. -/
def stepLimit : Nat := 1000000000

/-- Goes on until every task is blocked or at its end. -/
def settle : Session := settleWithin stepLimit stepLimit s

/-- Begins a new record of what is opened and finished. -/
def fresh : Session := { s with finished := [], shared := { s.shared with opened := [] } }

/-! ## Views -/

/-- The result of a task, once there is one. -/
def result? (i : Nat) : Option (Except Error Answer) := s.tasks[i]?.bind Task.result?

/-- The tasks that are neither at their ends nor dropped. -/
def pending : List Nat :=
  (List.range s.tasks.length).filter fun i => s.tasks[i]?.any Task.isPending

/-- The key in the cache of the shader that a task has got. -/
def cacheKey? (i : Nat) : Option String :=
  match s.result? i with
  | some (.ok answer) => answer.cachedAs
  | _ => none

/-- The first of the tasks before this one that has got the same shader from the cache. -/
def sameAs? (i : Nat) : Option Nat :=
  (s.cacheKey? i).bind fun key => (List.range i).find? fun j => s.cacheKey? j == some key

/-- The shader in the cache under a path. -/
def cached? (path : String) : Option Shader := s.shared.cache.lookup (Path.normalize path)

end Session

end Shading
