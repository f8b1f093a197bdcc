import Teleprompter.SessionStore

/-!
# Runner processes of the daemon

A session is served by a runner process. The daemon spawns runners itself, or
a runner that was started elsewhere introduces itself; both are registered
under their session. A watcher per spawned child waits for its exit. Handlers
take the locks of the registration map and of the store one after the other,
so the steps of several handlers interleave; each event below is one lock
section. Signals only make a child exit sooner, and a child may exit at any
time, so they are not tracked.
-/

namespace Teleprompter.RunnerProcesses

open FiniteDictionary SessionStore

/-- Spawned children are told apart by their handle, not by their pid. -/
abbrev ChildId := ℕ

/-- How far the exit watcher of a child has come. -/
inductive Watch where
  /-- It polls for the exit. -/
  | polling
  /-- It removed the registration, and has still to report the exit. -/
  | notifying
  | done
  deriving DecidableEq

/-- A child process the daemon spawned. -/
structure Child where
  sid : String
  pid : ℕ
  alive : Bool
  watch : Watch
  deriving DecidableEq

/-- The registration of a runner. -/
structure RunnerInfo where
  pid : ℕ
  /-- The child that is signalled and awaited for this session, if any. -/
  process : Option ChildId
  deriving DecidableEq

/-- What a restart does next. -/
inductive RestartStage where
  | checking
  | awaiting
  | waiting (process : Option ChildId)
  | unregistering
  | spawning
  deriving DecidableEq

/-- What a forced removal of a worktree does next for a session in it. -/
inductive StopStage where
  | awaiting
  | waiting (process : Option ChildId)
  | unregistering
  | marking
  deriving DecidableEq

/-- What a deletion does next. -/
inductive DeleteStage where
  | unregistering
  | deleting
  deriving DecidableEq

/-- A handler between two of its lock sections. -/
inductive Handler where
  /-- The row is written, the registration is not. -/
  | hello (sid : String) (pid : ℕ)
  /-- The goodbye of a runner passed the pid check. -/
  | bye (sid : String) (pid : ℕ) (state : RunState) (marked : Bool)
  | restart (sid : String) (stage : RestartStage)
  | delete (sid : String) (stage : DeleteStage)
  | forceStop (sid : String) (stage : StopStage)
  | finished
  deriving DecidableEq

/-- Children, registrations, state column of the rows, and handlers under way. -/
structure RunnerSystem where
  /-- Every child ever spawned; its place is its handle. -/
  children : List Child
  /-- Registrations by session. -/
  runners : Dict String RunnerInfo
  /-- State of the sessions that have a row. -/
  rows : Dict String RunState
  /-- Handlers in the order they started. -/
  handlers : List Handler

/-- Nothing was spawned or registered. -/
def RunnerSystem.initial : RunnerSystem := ⟨[], ∅, ∅, []⟩

/-- One lock section, one exit, or the start of a handler. -/
inductive RunnerEvent where
  /-- A frontend creates a session; the child gets a pid. -/
  | create (sid : String) (pid : ℕ)
  /-- A runner introduces itself. -/
  | hello (sid : String) (pid : ℕ)
  /-- A runner says goodbye; older ones do not name their pid. -/
  | bye (sid : String) (pid : ℕ) (named : Bool) (state : RunState)
  /-- A frontend stops a session. -/
  | stop (sid : String)
  | restart (sid : String)
  /-- A session is deleted or pruned. -/
  | delete (sid : String)
  /-- A worktree with a running session is removed by force. -/
  | forceStop (sid : String)
  /-- A child exits. -/
  | dies (child : ChildId)
  /-- The watcher of an exited child looks at the registration. -/
  | exitRemove (child : ChildId)
  /-- The watcher reports the exit. -/
  | exitNotify (child : ChildId)
  /-- A handler takes its next lock section. A spawn may fail. -/
  | advance (handler : ℕ) (spawned : Option ℕ)

/-- The child that a kill of the session signals. -/
def killTarget (sys : RunnerSystem) (sid : String) : Option ChildId :=
  (sys.runners.lookup sid).bind RunnerInfo.process

/-- Spawn a child and register it in place of whatever was registered. -/
def spawnRunner (sys : RunnerSystem) (sid : String) (pid : ℕ) : RunnerSystem :=
  { sys with
    children := sys.children ++ [⟨sid, pid, true, .polling⟩]
    runners := sys.runners.insert sid ⟨pid, some sys.children.length⟩ }

/-- Register a runner that introduced itself. A tracked child is kept. -/
def registerRunner (sys : RunnerSystem) (sid : String) (pid : ℕ) : RunnerSystem :=
  { sys with runners := sys.runners.insert sid ⟨pid, killTarget sys sid⟩ }

/-- Remove the registration of a session. -/
def unregisterRunner (sys : RunnerSystem) (sid : String) : RunnerSystem :=
  { sys with runners := sys.runners.erase sid }

/-- Show a state of a session that has a row. -/
def markSession (sys : RunnerSystem) (sid : String) (state : RunState) : RunnerSystem :=
  { sys with rows := alterKey sid (fun _ => state) sys.rows }

/-- Start a handler. -/
def startHandler (sys : RunnerSystem) (handler : Handler) : RunnerSystem :=
  { sys with handlers := sys.handlers ++ [handler] }

/-- Put a handler in its next stage. -/
def setHandler (sys : RunnerSystem) (i : ℕ) (handler : Handler) : RunnerSystem :=
  { sys with handlers := sys.handlers.set i handler }

/-- Change a child. -/
def setChild (sys : RunnerSystem) (c : ChildId) (child : Child) : RunnerSystem :=
  { sys with children := sys.children.set c child }

/-- A goodbye is taken unless it names a pid other than the registered one. -/
def byeAccepted (sys : RunnerSystem) (sid : String) (pid : ℕ) (named : Bool) : Bool :=
  match sys.runners.lookup sid with
  | some info => !named || info.pid == pid
  | none => true

/-- The exit of a child removes the registration it finds, unless that tracks
another child. -/
def exitOwns (sys : RunnerSystem) (c : ChildId) (sid : String) : Bool :=
  match sys.runners.lookup sid with
  | some info => info.process == none || info.process == some c
  | none => false

/-- Waiting for a child ends when it exited, or when there is none. -/
def hasExited (sys : RunnerSystem) : Option ChildId → Bool
  | none => true
  | some c =>
    match sys.children[c]? with
    | some child => !child.alive
    | none => true

/-- The next lock section of a handler. -/
def advanceHandler (sys : RunnerSystem) (i : ℕ) (spawned : Option ℕ) : Handler → RunnerSystem
  | .hello sid pid => setHandler (registerRunner sys sid pid) i .finished
  | .bye sid pid state false => setHandler (markSession sys sid state) i (.bye sid pid state true)
  | .bye sid _ _ true => setHandler (unregisterRunner sys sid) i .finished
  | .restart sid .checking =>
    if ∃ info ∈ sys.runners.lookup sid, info.process = none then setHandler sys i .finished
    else setHandler sys i (.restart sid .awaiting)
  | .restart sid .awaiting => setHandler sys i (.restart sid (.waiting (killTarget sys sid)))
  | .restart sid (.waiting process) =>
    if hasExited sys process then setHandler sys i (.restart sid .unregistering) else sys
  | .restart sid .unregistering =>
    setHandler (unregisterRunner sys sid) i (.restart sid .spawning)
  | .restart sid .spawning =>
    match spawned with
    | some pid => setHandler (spawnRunner sys sid pid) i .finished
    | none => setHandler sys i .finished
  | .delete sid .unregistering => setHandler (unregisterRunner sys sid) i (.delete sid .deleting)
  | .delete sid .deleting => setHandler { sys with rows := sys.rows.erase sid } i .finished
  | .forceStop sid .awaiting => setHandler sys i (.forceStop sid (.waiting (killTarget sys sid)))
  | .forceStop sid (.waiting process) =>
    if hasExited sys process then setHandler sys i (.forceStop sid .unregistering) else sys
  | .forceStop sid .unregistering =>
    setHandler (unregisterRunner sys sid) i (.forceStop sid .marking)
  | .forceStop sid .marking => setHandler (markSession sys sid .stopped) i .finished
  | .finished => sys

/-- The watcher of an exited child looks at the registration. -/
def exitRemove (sys : RunnerSystem) (c : ChildId) (child : Child) : RunnerSystem :=
  if child.alive = false ∧ child.watch = .polling then
    if exitOwns sys c child.sid then
      setChild (unregisterRunner sys child.sid) c { child with watch := .notifying }
    else setChild sys c { child with watch := .done }
  else sys

/-- The watcher reports an exit: a session shown as running is stopped. -/
def exitNotify (sys : RunnerSystem) (c : ChildId) (child : Child) : RunnerSystem :=
  if child.watch = .notifying then
    let reported := setChild sys c { child with watch := .done }
    if sys.rows.lookup child.sid = some .running then markSession reported child.sid .stopped
    else reported
  else sys

/-- One event. -/
def runnerStep (sys : RunnerSystem) : RunnerEvent → RunnerSystem
  | .create sid pid => spawnRunner sys sid pid
  | .hello sid pid =>
    startHandler { sys with rows := sys.rows.insert sid .running } (.hello sid pid)
  | .bye sid pid named state =>
    if byeAccepted sys sid pid named then startHandler sys (.bye sid pid state false) else sys
  | .stop _ => sys
  | .restart sid => if sid ∈ sys.rows then startHandler sys (.restart sid .checking) else sys
  | .delete sid =>
    match sys.rows.lookup sid with
    | none => sys
    | some .running => startHandler sys (.delete sid .unregistering)
    | some _ => startHandler sys (.delete sid .deleting)
  | .forceStop sid =>
    if (killTarget sys sid).isSome then startHandler sys (.forceStop sid .awaiting) else sys
  | .dies c =>
    match sys.children[c]? with
    | some child => setChild sys c { child with alive := false }
    | none => sys
  | .exitRemove c =>
    match sys.children[c]? with
    | some child => exitRemove sys c child
    | none => sys
  | .exitNotify c =>
    match sys.children[c]? with
    | some child => exitNotify sys c child
    | none => sys
  | .advance i spawned =>
    match sys.handlers[i]? with
    | some handler => advanceHandler sys i spawned handler
    | none => sys

/-- The session whose registration a handler removes next. -/
def unregisteredBy : Handler → Option String
  | .bye sid _ _ true => some sid
  | .restart sid .unregistering => some sid
  | .delete sid .unregistering => some sid
  | .forceStop sid .unregistering => some sid
  | _ => none

/-- The session that a handler spawns a child for next. -/
def spawnedBy : Handler → Option String
  | .restart sid .spawning => some sid
  | _ => none

/-- After a spawn, a kill reaches the new child. -/
theorem killTarget_spawnRunner (sys : RunnerSystem) (sid other : String) (pid : ℕ) :
    killTarget (spawnRunner sys sid pid) other =
      if other = sid then some sys.children.length else killTarget sys other := by
  unfold killTarget spawnRunner
  dsimp only
  rw [lookup_insert_eq]
  by_cases h : other = sid
  · rw [if_pos h, if_pos h]
    rfl
  · rw [if_neg h, if_neg h]

/-- A runner that introduces itself changes nothing for a kill. -/
theorem killTarget_registerRunner (sys : RunnerSystem) (sid other : String) (pid : ℕ) :
    killTarget (registerRunner sys sid pid) other = killTarget sys other := by
  have hlookup : (registerRunner sys sid pid).runners.lookup other =
      if other = sid then some ⟨pid, killTarget sys sid⟩ else sys.runners.lookup other :=
    lookup_insert_eq _ _ _ _
  by_cases h : other = sid
  · rw [killTarget, hlookup, if_pos h, h]
    rfl
  · rw [killTarget, hlookup, if_neg h, killTarget]

/-- Without a registration a kill reaches nothing. -/
theorem killTarget_unregisterRunner (sys : RunnerSystem) (sid other : String) :
    killTarget (unregisterRunner sys sid) other =
      if other = sid then none else killTarget sys other := by
  have hlookup : (unregisterRunner sys sid).runners.lookup other =
      if other = sid then none else sys.runners.lookup other := lookup_erase_eq _ _ _
  by_cases h : other = sid
  · rw [killTarget, hlookup, if_pos h, if_pos h]
    rfl
  · rw [killTarget, hlookup, if_neg h, if_neg h, killTarget]

end Teleprompter.RunnerProcesses
