import Teleprompter.RunnerProcesses
import Teleprompter.StepRuns
import Teleprompter.WorktreePaths

/-!
# Removal of a worktree with sessions in it

A request to remove a worktree lists the registered runners, compares the
worktree of each with its target, refuses or stops the ones it found, and then
runs git. Sessions are created, restarted and introduced meanwhile, and the
files change. The list is not looked at again, so a session registered in the
worktree behind it is not seen. A creation whose session cannot be started
removes its worktree again. Each event is one lock section, one look at the file
tree or one git command.
-/

namespace Teleprompter.WorktreeRemoval

open FiniteDictionary SessionStore RunnerProcesses LinkedPaths WorktreePaths StepRuns

/-- What a removal keeps of a listed runner. -/
structure Listed where
  /-- Its session. -/
  sid : String
  /-- Its worktree, when it is known. -/
  worktreePath : Option (List Char)
  /-- The daemon started it. -/
  hasProcess : Bool
  deriving DecidableEq

/-- What a removal does next. -/
inductive RemovalStage where
  | requested (target : List Char)
  /-- Runners still to compare, and the blockers found. -/
  | collecting (target : List Char) (runners blockers : List Listed)
  /-- The first blocker is being stopped. -/
  | stopping (stage : StopStage) (blockers : List Listed)
  | removing
  /-- A creation added the worktree and removes it again if its session cannot be started. -/
  | creating
  | answered (error : Option String)
  deriving DecidableEq

/-- A request to remove a worktree, or a creation that may have to. -/
structure Removal where
  /-- The path as it was requested. -/
  path : List Char
  /-- Runners in it are stopped. -/
  force : Bool
  /-- What is done next. -/
  stage : RemovalStage
  deriving DecidableEq

/-- The runner processes with their worktree paths, the files and the removals. -/
structure RemovalSystem where
  /-- The runner processes. -/
  runners : RunnerSystem
  /-- Worktree paths of the registrations. -/
  worktreePaths : Dict String (Option (List Char))
  /-- Worktree paths of the rows. -/
  stored : Dict String (Option (List Char))
  /-- Worktree paths that handlers carry to a registration. -/
  carried : Dict ℕ (Option (List Char))
  /-- The files. -/
  tree : FileTree
  /-- Removals in the order of their requests. -/
  removals : List Removal

/-- One lock section, one look at the files or one git command. -/
inductive RemovalEvent where
  /-- An event of the runners; a creation and an introduction name a worktree path. -/
  | runner (event : RunnerEvent) (worktreePath : Option (List Char))
  /-- The files change otherwise. -/
  | files (tree : FileTree)
  | remove (path : List Char) (force : Bool)
  /-- A removal lists the runners in some order. -/
  | list (removal : ℕ) (sids : List String)
  /-- A removal compares its next runner; the store may fail to read the row. -/
  | examine (removal : ℕ) (readable : Bool)
  | advance (removal : ℕ)
  /-- A removal runs git, which leaves new files. -/
  | git (removal : ℕ) (tree : FileTree) (error : Option String)
  /-- A creation adds its worktree, which leaves new files. -/
  | add (path : List Char) (tree : FileTree)
  /-- The session of a creation can be started and is registered next. -/
  | started (removal : ℕ)

section System

variable (manager : WorktreeManager) (maxLinks : ℕ)

/-- Worktree path of the registration. -/
def ownPath (sys : RemovalSystem) (sid : String) : Option (List Char) :=
  (sys.worktreePaths.lookup sid).join

/-- Worktree path of the row. -/
def storedPath (sys : RemovalSystem) (sid : String) : Option (List Char) :=
  if sid ∈ sys.runners.rows then (sys.stored.lookup sid).join else none

/-- A worktree path names the same directory as another path. -/
def occupies (tree : FileTree) (path : List Char) (worktreePath : Option (List Char)) : Bool :=
  match worktreePath with
  | some text => manager.canonicalize tree maxLinks text == manager.canonicalize tree maxLinks path
  | none => false

/-- A runner is registered whose worktree path, its own or the stored one, names
the directory. -/
def InWorktree (sys : RemovalSystem) (path : List Char) (sid : String) : Prop :=
  sid ∈ sys.runners.runners ∧
    occupies manager maxLinks sys.tree path ((ownPath sys sid).or (storedPath sys sid)) = true

/-- The session that a runner event registers a runner for. -/
def registeredBy (sys : RunnerSystem) : RunnerEvent → Option String
  | .create sid _ => some sid
  | .advance i spawned =>
    match sys.handlers[i]? with
    | some (.hello sid _) => some sid
    | some (.restart sid .spawning) => spawned.map fun _ => sid
    | _ => none
  | _ => none

/-- The worktree path that comes with a registration. -/
def carriedPath (sys : RemovalSystem) (worktreePath : Option (List Char)) :
    RunnerEvent → Option (List Char)
  | .advance i _ => (sys.carried.lookup i).join
  | _ => worktreePath

/-- What a handler that starts keeps: an introduction its path, a restart that
of the row. -/
def carry (sys : RemovalSystem) (worktreePath : Option (List Char)) :
    RunnerEvent → Dict ℕ (Option (List Char))
  | .hello _ _ => sys.carried.insert sys.runners.handlers.length worktreePath
  | .restart sid => sys.carried.insert sys.runners.handlers.length (storedPath sys sid)
  | _ => sys.carried

/-- A runner event. Forced stops are made by the removals. -/
def runnerEvent (sys : RemovalSystem) (worktreePath : Option (List Char)) :
    RunnerEvent → RemovalSystem
  | .forceStop _ => sys
  | event =>
    { sys with
      runners := runnerStep sys.runners event
      worktreePaths :=
        match registeredBy sys.runners event with
        | some sid => sys.worktreePaths.insert sid (carriedPath sys worktreePath event)
        | none => sys.worktreePaths
      stored :=
        match event with
        | .hello sid _ => sys.stored.insert sid worktreePath
        | _ => sys.stored
      carried := carry sys worktreePath event }

/-- Put a removal in its next stage. -/
def setStage (sys : RemovalSystem) (i : ℕ) (removal : Removal) (stage : RemovalStage) :
    RemovalSystem :=
  { sys with removals := sys.removals.set i { removal with stage } }

/-- What a removal keeps of a runner when it lists it. -/
def listRunner (sys : RemovalSystem) (sid : String) : Listed :=
  ⟨sid, ownPath sys sid, (killTarget sys.runners sid).isSome⟩

/-- Sessions of a list, separated by commas. -/
def joinSids (blockers : List Listed) : String := ", ".intercalate (blockers.map Listed.sid)

/-- Remove at once, refuse, or stop the blockers first. -/
def afterListing (force : Bool) (blockers : List Listed) : RemovalStage :=
  if blockers = [] then .removing
  else if force = false then
    .answered (some ("Cannot remove worktree: " ++ toString blockers.length ++
      " running session(s) (" ++ joinSids blockers ++ "). Use force to kill and remove."))
  else if blockers.filter (fun blocker => !blocker.hasProcess) ≠ [] then
    .answered (some ("Cannot force-remove worktree: session(s) (" ++
      joinSids (blockers.filter fun blocker => !blocker.hasProcess) ++
      ") are not managed by this daemon and cannot be killed."))
  else .stopping .awaiting blockers

/-- Compare one runner with the target. -/
def isBlocker (sys : RemovalSystem) (target : List Char) (readable : Bool) (runner : Listed) :
    Bool :=
  match runner.worktreePath.or (if readable then storedPath sys runner.sid else none) with
  | some text => manager.canonicalize sys.tree maxLinks text == target
  | none => false

/-- The next step of stopping the first blocker. -/
def stopBlocker (sys : RemovalSystem) (i : ℕ) (removal : Removal) (blocker : Listed)
    (rest : List Listed) : StopStage → RemovalSystem
  | .awaiting =>
    setStage sys i removal
      (.stopping (.waiting (killTarget sys.runners blocker.sid)) (blocker :: rest))
  | .waiting process =>
    if hasExited sys.runners process then
      setStage sys i removal (.stopping .unregistering (blocker :: rest))
    else sys
  | .unregistering =>
    setStage { sys with runners := unregisterRunner sys.runners blocker.sid } i removal
      (.stopping .marking (blocker :: rest))
  | .marking =>
    setStage { sys with runners := markSession sys.runners blocker.sid .stopped } i removal
      (if rest = [] then .removing else .stopping .awaiting rest)

/-- The next step runs git. -/
def RemovalStage.reachedGit : RemovalStage → Bool
  | .removing => true
  | .creating => true
  | _ => false

/-- A removal that reached its git command may run it. -/
def runsGit (sys : RemovalSystem) (path : List Char) : Bool :=
  match manager.validatePathContainment sys.tree maxLinks path with
  | .ok _ => true
  | .error _ => false

/-- One event. -/
def removalStep (sys : RemovalSystem) : RemovalEvent → RemovalSystem
  | .runner event worktreePath => runnerEvent sys worktreePath event
  | .files tree => { sys with tree }
  | .remove path force =>
    { sys with
      removals := sys.removals ++
        [⟨path, force, .requested (manager.canonicalize sys.tree maxLinks path)⟩] }
  | .list i sids =>
    match sys.removals[i]? with
    | some ⟨path, force, .requested target⟩ =>
      if sids.Perm sys.runners.runners.keys then
        setStage sys i ⟨path, force, .requested target⟩
          (.collecting target (sids.map (listRunner sys)) [])
      else sys
    | _ => sys
  | .examine i readable =>
    match sys.removals[i]? with
    | some ⟨path, force, .collecting target (runner :: rest) blockers⟩ =>
      setStage sys i ⟨path, force, .collecting target (runner :: rest) blockers⟩
        (.collecting target rest
          (if isBlocker manager maxLinks sys target readable runner then blockers ++ [runner]
          else blockers))
    | some ⟨path, force, .collecting target [] blockers⟩ =>
      setStage sys i ⟨path, force, .collecting target [] blockers⟩ (afterListing force blockers)
    | _ => sys
  | .advance i =>
    match sys.removals[i]? with
    | some ⟨path, force, .stopping stage (blocker :: rest)⟩ =>
      stopBlocker sys i ⟨path, force, .stopping stage (blocker :: rest)⟩ blocker rest stage
    | _ => sys
  | .git i tree error =>
    match sys.removals[i]? with
    | some removal =>
      if removal.stage.reachedGit then
        match manager.validatePathContainment sys.tree maxLinks removal.path with
        | .ok _ => setStage { sys with tree } i removal (.answered error)
        | .error message => setStage sys i removal (.answered (some (String.ofList message)))
      else sys
    | none => sys
  | .add path tree => { sys with tree, removals := sys.removals ++ [⟨path, true, .creating⟩] }
  | .started i =>
    match sys.removals[i]? with
    | some ⟨path, force, .creating⟩ => setStage sys i ⟨path, force, .creating⟩ (.answered none)
    | _ => sys

/-- The path for which an event runs `git worktree remove`. -/
def removedPath (sys : RemovalSystem) : RemovalEvent → Option (List Char)
  | .git i _ _ =>
    (sys.removals[i]?).bind fun removal =>
      if removal.stage.reachedGit && runsGit manager maxLinks sys removal.path then
        some removal.path
      else none
  | _ => none

/-- No worktree is removed under a registered runner. -/
def RemovesUnused (sys : RemovalSystem) (event : RemovalEvent) : Prop :=
  ∀ path, removedPath manager maxLinks sys event = some path →
    ∀ sid, ¬InWorktree manager maxLinks sys path sid

end System

section Registrations

variable {sys : RunnerSystem}

/-- Registrations and rows that are new are among the given ones. -/
structure Adds (sys : RunnerSystem) (runners : Dict String RunnerInfo) (rows : Dict String RunState)
    (registered introduced : String → Prop) : Prop where
  /-- New registrations. -/
  runners : ∀ sid ∈ runners, sid ∈ sys.runners ∨ registered sid
  /-- New rows. -/
  rows : ∀ sid ∈ rows, sid ∈ sys.rows ∨ introduced sid

variable {runners : Dict String RunnerInfo} {rows : Dict String RunState}
  {registered registered' introduced introduced' : String → Prop}

/-- Neither is new. -/
theorem Adds.of_subset (hrunners : ∀ sid ∈ runners, sid ∈ sys.runners)
    (hrows : ∀ sid ∈ rows, sid ∈ sys.rows) : Adds sys runners rows registered introduced :=
  ⟨fun sid h => .inl (hrunners sid h), fun sid h => .inl (hrows sid h)⟩

/-- Neither has changed. -/
theorem Adds.same : Adds sys sys.runners sys.rows registered introduced :=
  .of_subset (fun _ h => h) (fun _ h => h)

/-- A registration is removed. -/
theorem adds_erase (sid : String) :
    Adds sys (sys.runners.erase sid) sys.rows registered introduced :=
  .of_subset (fun _ h => (AList.mem_erase.mp h).2) (fun _ h => h)

/-- A state is shown. -/
theorem adds_alterKey (sid : String) (state : RunState) :
    Adds sys sys.runners (alterKey sid (fun _ => state) sys.rows) registered introduced :=
  .of_subset (fun _ h => h) (fun _ h => mem_alterKey.mp h)

/-- A runner is registered. -/
theorem adds_insert {sid : String} (info : RunnerInfo) (hsid : registered sid) :
    Adds sys (sys.runners.insert sid info) sys.rows registered introduced := by
  refine ⟨?_, fun _ h => .inl h⟩
  intro other h
  rcases (AList.mem_insert _).mp h with rfl | h
  · exact .inr hsid
  · exact .inl h

/-- More may be new. -/
theorem Adds.mono (h : Adds sys runners rows registered introduced)
    (hregistered : ∀ sid, registered sid → registered' sid)
    (hintroduced : ∀ sid, introduced sid → introduced' sid) :
    Adds sys runners rows registered' introduced' :=
  ⟨fun sid hsid => (h.runners sid hsid).imp_right (hregistered sid),
    fun sid hsid => (h.rows sid hsid).imp_right (hintroduced sid)⟩

/-- A handler registers when an introduction or a restart ends. -/
theorem adds_advanceHandler (i : ℕ) (spawned : Option ℕ) (handler : Handler) :
    Adds sys (advanceHandler sys i spawned handler).runners
      (advanceHandler sys i spawned handler).rows
      (fun sid => (∃ pid, handler = .hello sid pid) ∨
        handler = .restart sid .spawning ∧ spawned.isSome)
      (fun _ => False) := by
  cases handler with
  | hello sid pid =>
    exact adds_insert _ (.inl ⟨pid, rfl⟩)
  | bye sid pid state marked =>
    cases marked with
    | false => exact adds_alterKey sid state
    | true => exact adds_erase sid
  | restart sid stage =>
    cases stage with
    | checking =>
      rw [advanceHandler]
      split
      · exact .same
      · exact .same
    | awaiting => exact .same
    | waiting process =>
      rw [advanceHandler]
      split
      · exact .same
      · exact .same
    | unregistering => exact adds_erase sid
    | spawning =>
      cases spawned with
      | none => exact .same
      | some pid =>
        exact adds_insert _ (.inr ⟨rfl, rfl⟩)
  | delete sid stage =>
    cases stage with
    | unregistering => exact adds_erase sid
    | deleting => exact .of_subset (fun _ h => h) (fun _ h => (AList.mem_erase.mp h).2)
  | forceStop sid stage =>
    cases stage with
    | awaiting => exact .same
    | waiting process =>
      rw [advanceHandler]
      split
      · exact .same
      · exact .same
    | unregistering => exact adds_erase sid
    | marking => exact adds_alterKey sid .stopped
  | finished => exact .same

/-- A runner event registers at most the session it is said to register, and
only an introduction makes a row. -/
theorem adds_runnerStep (event : RunnerEvent) :
    Adds sys (runnerStep sys event).runners (runnerStep sys event).rows
      (fun sid => registeredBy sys event = some sid) (fun sid => ∃ pid, event = .hello sid pid) := by
  cases event with
  | create sid pid =>
    exact adds_insert _ rfl
  | hello sid pid =>
    refine ⟨fun _ h => .inl h, ?_⟩
    intro other h
    rcases (AList.mem_insert _).mp h with rfl | h
    · exact .inr ⟨pid, rfl⟩
    · exact .inl h
  | bye sid pid named state =>
    rw [runnerStep]
    split
    · exact .same
    · exact .same
  | stop sid => exact .same
  | restart sid =>
    rw [runnerStep]
    split
    · exact .same
    · exact .same
  | delete sid =>
    rw [runnerStep]
    split
    · exact .same
    · exact .same
    · exact .same
  | forceStop sid =>
    rw [runnerStep]
    split
    · exact .same
    · exact .same
  | dies c =>
    rw [runnerStep]
    split
    · exact .same
    · exact .same
  | exitRemove c =>
    rw [runnerStep]
    split
    · rw [exitRemove]
      split
      · split
        · exact adds_erase _
        · exact .same
      · exact .same
    · exact .same
  | exitNotify c =>
    rw [runnerStep]
    split
    · rw [exitNotify]
      split
      · dsimp only
        split
        · exact adds_alterKey _ .stopped
        · exact .same
      · exact .same
    · exact .same
  | advance i spawned =>
    rw [runnerStep]
    split
    · rename_i handler hhandler
      refine (adds_advanceHandler i spawned handler).mono ?_ (fun _ h => h.elim)
      rintro sid (⟨pid, rfl⟩ | ⟨rfl, hspawned⟩)
      · simp [registeredBy, hhandler]
      · obtain ⟨pid, rfl⟩ := Option.isSome_iff_exists.mp hspawned
        simp [registeredBy, hhandler]
    · exact .same

end Registrations

section Condition

variable (manager : WorktreeManager) (maxLinks : ℕ)

/-- Blockers that are still to be unregistered. -/
def RemovalStage.awaited : RemovalStage → List String
  | .collecting _ _ blockers => blockers.map Listed.sid
  | .stopping .marking blockers => blockers.tail.map Listed.sid
  | .stopping _ blockers => blockers.map Listed.sid
  | _ => []

/-- The removal has a target. -/
def RemovalStage.underWay : RemovalStage → Bool
  | .answered _ => false
  | _ => true

/-- The removal does not look for runners again. -/
def RemovalStage.hasListed : RemovalStage → Bool
  | .requested _ => false
  | .answered _ => false
  | _ => true

/-- The worktree path that an event gives to a registered runner: by registering
it, or by writing the row of one without a path of its own. -/
def pathSet (sys : RemovalSystem) : RemovalEvent → Option (String × Option (List Char))
  | .runner (.hello sid _) worktreePath =>
    if sid ∈ sys.runners.runners ∧ ownPath sys sid = none then some (sid, worktreePath) else none
  | .runner event worktreePath =>
    (registeredBy sys.runners event).map fun sid =>
      (sid, (carriedPath sys worktreePath event).or (storedPath sys sid))
  | _ => none

/-- The files that an event leaves while a removal is under way; its own git
command ends it. -/
def treeSet (sys : RemovalSystem) (i : ℕ) : RemovalEvent → Option FileTree
  | .files tree => some tree
  | .git j tree error =>
    if j ≠ i ∧ (removedPath manager maxLinks sys (.git j tree error)).isSome then some tree else none
  | .add _ tree => some tree
  | _ => none

/-- The runner whose row a removal fails to read when it compares the runner. -/
def unread (removal : Removal) (i : ℕ) : RemovalEvent → Option Listed
  | .examine j false =>
    match removal.stage with
    | .collecting _ (runner :: _) _ =>
      if j = i ∧ runner.worktreePath = none then some runner else none
    | _ => none
  | _ => none

/-- While the removal is under way, its path keeps naming the same directory; and
from its listing on, no runner that it does not stop gets a worktree path that
names this directory, no change of the files makes one do so, and it reads the
rows of those that do. -/
def CalmFor (sys : RemovalSystem) (i : ℕ) (removal : Removal) (event : RemovalEvent) : Prop :=
  (removal.stage.hasListed = true → ∀ set ∈ pathSet sys event,
    occupies manager maxLinks sys.tree removal.path set.2 = true →
      set.1 ∈ removal.stage.awaited) ∧
  (removal.stage.underWay = true → ∀ tree ∈ treeSet manager maxLinks sys i event,
    manager.canonicalize tree maxLinks removal.path =
        manager.canonicalize sys.tree maxLinks removal.path ∧
      (removal.stage.hasListed = true → ∀ sid ∈ sys.runners.runners.keys,
        occupies manager maxLinks tree removal.path ((ownPath sys sid).or (storedPath sys sid)) =
            true →
          occupies manager maxLinks sys.tree removal.path
              ((ownPath sys sid).or (storedPath sys sid)) = true ∨
            sid ∈ removal.stage.awaited)) ∧
  ∀ runner ∈ unread removal i event,
    occupies manager maxLinks sys.tree removal.path (storedPath sys runner.sid) = false

instance (sys : RemovalSystem) (i : ℕ) (removal : Removal) (event : RemovalEvent) :
    Decidable (CalmFor manager maxLinks sys i removal event) :=
  inferInstanceAs (Decidable (_ ∧ _ ∧ _))

/-- Every removal under way is left in peace, and no registered runner has the worktree
that a creation has just added. -/
def Calm (sys : RemovalSystem) (event : RemovalEvent) : Prop :=
  (∀ i < sys.removals.length, ∀ removal ∈ sys.removals[i]?,
    CalmFor manager maxLinks sys i removal event) ∧
  match event with
  | .add path tree =>
    ∀ sid ∈ sys.runners.runners.keys,
      occupies manager maxLinks tree path ((ownPath sys sid).or (storedPath sys sid)) = false
  | _ => True

instance (sys : RemovalSystem) (event : RemovalEvent) :
    Decidable (Calm manager maxLinks sys event) :=
  match event with
  | .add _ _ => inferInstanceAs (Decidable (_ ∧ _))
  | .started _ => inferInstanceAs (Decidable (_ ∧ True))
  | .runner _ _ => inferInstanceAs (Decidable (_ ∧ True))
  | .files _ => inferInstanceAs (Decidable (_ ∧ True))
  | .remove _ _ => inferInstanceAs (Decidable (_ ∧ True))
  | .list _ _ => inferInstanceAs (Decidable (_ ∧ True))
  | .examine _ _ => inferInstanceAs (Decidable (_ ∧ True))
  | .advance _ => inferInstanceAs (Decidable (_ ∧ True))
  | .git _ _ _ => inferInstanceAs (Decidable (_ ∧ True))

end Condition

section Coverage

variable {manager : WorktreeManager} {maxLinks : ℕ} {sys sys' : RemovalSystem}
  {removal : Removal}

/-- Every runner in the worktree is still to be compared or to be stopped. -/
def Covered (manager : WorktreeManager) (maxLinks : ℕ) (sys : RemovalSystem) (removal : Removal) :
    Prop :=
  match removal.stage with
  | .requested target => target = manager.canonicalize sys.tree maxLinks removal.path
  | .collecting target runners _ =>
    target = manager.canonicalize sys.tree maxLinks removal.path ∧
      ∀ sid, InWorktree manager maxLinks sys removal.path sid →
        (∃ runner ∈ runners, runner.sid = sid ∧ runner.worktreePath = ownPath sys sid) ∨
          sid ∈ removal.stage.awaited
  | .stopping _ _ =>
    ∀ sid, InWorktree manager maxLinks sys removal.path sid → sid ∈ removal.stage.awaited
  | .removing => ∀ sid, ¬InWorktree manager maxLinks sys removal.path sid
  | .creating => ∀ sid, ¬InWorktree manager maxLinks sys removal.path sid
  | .answered _ => True

/-- No runner is in a worktree that is removed next. -/
theorem Covered.unused (h : Covered manager maxLinks sys removal)
    (hstage : removal.stage.reachedGit = true) (sid : String) :
    ¬InWorktree manager maxLinks sys removal.path sid := by
  obtain ⟨path, force, stage⟩ := removal
  cases stage with
  | removing => exact h sid
  | creating => exact h sid
  | _ => cases hstage

/-- Coverage is kept where the directory stays the same and every runner in it
was in it before, with the same path, or is going to be stopped. -/
theorem Covered.frame (h : Covered manager maxLinks sys removal)
    (htarget : removal.stage.underWay = true →
      manager.canonicalize sys'.tree maxLinks removal.path =
        manager.canonicalize sys.tree maxLinks removal.path)
    (hrunners : removal.stage.hasListed = true → ∀ sid,
      InWorktree manager maxLinks sys' removal.path sid →
        InWorktree manager maxLinks sys removal.path sid ∧ ownPath sys' sid = ownPath sys sid ∨
          sid ∈ removal.stage.awaited) : Covered manager maxLinks sys' removal := by
  obtain ⟨path, force, stage⟩ := removal
  cases stage with
  | requested target => exact h.trans (htarget rfl).symm
  | collecting target runners blockers =>
    refine ⟨h.1.trans (htarget rfl).symm, ?_⟩
    intro sid hsid
    rcases hrunners rfl sid hsid with ⟨hbefore, hown⟩ | hawaited
    · rw [hown]
      exact h.2 sid hbefore
    · exact .inr hawaited
  | stopping stage blockers =>
    intro sid hsid
    rcases hrunners rfl sid hsid with ⟨hbefore, -⟩ | hawaited
    · exact h sid hbefore
    · exact hawaited
  | removing | creating =>
    intro sid hsid
    rcases hrunners rfl sid hsid with ⟨hbefore, -⟩ | hawaited
    · exact h sid hbefore
    · exact absurd hawaited (List.not_mem_nil)
  | answered error => trivial

/-- A path that is looked up behind another matters only when the other is
missing. -/
theorem occupies_or {tree : FileTree} {path : List Char} {own stored stored' : Option (List Char)}
    (hstored : stored = stored' ∨ stored = none)
    (h : occupies manager maxLinks tree path (own.or stored) = true) :
    occupies manager maxLinks tree path (own.or stored') = true := by
  cases own with
  | some text => exact h
  | none =>
    rcases hstored with rfl | rfl
    · exact h
    · simp [occupies] at h

/-- What a runner event adds to the registrations and rows. -/
theorem adds_runnerEvent (event : RunnerEvent) (worktreePath : Option (List Char)) :
    Adds sys.runners (runnerEvent sys worktreePath event).runners.runners
      (runnerEvent sys worktreePath event).runners.rows
      (fun sid => registeredBy sys.runners event = some sid)
      (fun sid => ∃ pid, event = .hello sid pid) := by
  cases event with
  | forceStop sid => exact .same
  | _ => exact adds_runnerStep _

/-- A runner event changes the own path of the session it registers. -/
theorem ownPath_runnerEvent (sys : RemovalSystem) (event : RunnerEvent)
    (worktreePath : Option (List Char)) (sid : String) :
    ownPath (runnerEvent sys worktreePath event) sid =
      if registeredBy sys.runners event = some sid then carriedPath sys worktreePath event
      else ownPath sys sid := by
  have hpaths : (runnerEvent sys worktreePath event).worktreePaths =
      match registeredBy sys.runners event with
      | some sid => sys.worktreePaths.insert sid (carriedPath sys worktreePath event)
      | none => sys.worktreePaths := by
    cases event with
    | _ => rfl
  rw [ownPath, hpaths]
  cases hregistered : registeredBy sys.runners event with
  | none => rfl
  | some other =>
    simp only [lookup_insert_eq, Option.some.injEq]
    by_cases heq : sid = other
    · rw [if_pos heq, if_pos heq.symm]
      rfl
    · rw [if_neg heq, if_neg (fun h => heq h.symm)]
      rfl

/-- Without an introduction the stored path of a session stays or is gone. -/
theorem storedPath_runnerEvent {event : RunnerEvent} (worktreePath : Option (List Char))
    {sid : String} (hevent : ∀ pid, event ≠ .hello sid pid) :
    storedPath (runnerEvent sys worktreePath event) sid = storedPath sys sid ∨
      storedPath (runnerEvent sys worktreePath event) sid = none := by
  have hstored : (runnerEvent sys worktreePath event).stored.lookup sid = sys.stored.lookup sid := by
    cases event with
    | hello other pid =>
      have hne : sid ≠ other := by
        rintro rfl
        exact hevent pid rfl
      exact (lookup_insert_eq _ _ _ _).trans (if_neg hne)
    | _ => rfl
  by_cases hrow : sid ∈ (runnerEvent sys worktreePath event).runners.rows
  · left
    rcases (adds_runnerEvent event worktreePath).rows sid hrow with hbefore | ⟨pid, hpid⟩
    · rw [storedPath, if_pos hrow, storedPath, if_pos hbefore, hstored]
    · exact absurd hpid (hevent pid)
  · right
    rw [storedPath, if_neg hrow]

/-- A runner event leaves the files. -/
theorem tree_runnerEvent (event : RunnerEvent) (worktreePath : Option (List Char)) :
    (runnerEvent sys worktreePath event).tree = sys.tree := by
  cases event with
  | _ => rfl

/-- An event that registers a session gives it the path it carries. -/
theorem pathSet_of_registeredBy {event : RunnerEvent} {worktreePath : Option (List Char)}
    {sid : String} (h : registeredBy sys.runners event = some sid) :
    pathSet sys (.runner event worktreePath) =
      some (sid, (carriedPath sys worktreePath event).or (storedPath sys sid)) := by
  cases event with
  | create other pid =>
    obtain rfl := Option.some.inj h
    rfl
  | advance i spawned =>
    rw [pathSet, h]
    · rfl
    · simp
  | _ => simp [registeredBy] at h

/-- A runner in a worktree after a runner event got its path by the event, or was
in it before with the same path of its own. -/
theorem inWorktree_runnerEvent {event : RunnerEvent} {worktreePath : Option (List Char)}
    {path : List Char} {sid : String}
    (h : InWorktree manager maxLinks (runnerEvent sys worktreePath event) path sid) :
    (∃ set ∈ pathSet sys (.runner event worktreePath), set.1 = sid ∧
        occupies manager maxLinks sys.tree path set.2 = true) ∨
      InWorktree manager maxLinks sys path sid ∧
        ownPath (runnerEvent sys worktreePath event) sid = ownPath sys sid := by
  obtain ⟨hmem, hoccupies⟩ := h
  rw [tree_runnerEvent] at hoccupies
  have hown := ownPath_runnerEvent sys event worktreePath sid
  by_cases hregistered : registeredBy sys.runners event = some sid
  · left
    have hevent : ∀ pid, event ≠ .hello sid pid := by
      rintro pid rfl
      simp [registeredBy] at hregistered
    rw [hown, if_pos hregistered] at hoccupies
    exact ⟨_, pathSet_of_registeredBy hregistered, rfl,
      occupies_or (storedPath_runnerEvent worktreePath hevent) hoccupies⟩
  · rw [if_neg hregistered] at hown
    rw [hown] at hoccupies
    have hbefore : sid ∈ sys.runners.runners := by
      rcases (adds_runnerEvent event worktreePath).runners sid hmem with hbefore | hnew
      · exact hbefore
      · exact absurd hnew hregistered
    by_cases hevent : ∃ pid, event = .hello sid pid
    · obtain ⟨pid, rfl⟩ := hevent
      cases hnone : ownPath sys sid with
      | some text =>
        rw [hnone] at hoccupies
        exact .inr ⟨⟨hbefore, by rw [hnone]; exact hoccupies⟩, hown.trans hnone⟩
      | none =>
        left
        refine ⟨(sid, worktreePath), ?_, rfl, ?_⟩
        · rw [pathSet, if_pos ⟨hbefore, hnone⟩]
          rfl
        · have hnew : storedPath (runnerEvent sys worktreePath (.hello sid pid)) sid =
              worktreePath := by
            have hrow : sid ∈ (runnerEvent sys worktreePath (.hello sid pid)).runners.rows :=
              (AList.mem_insert _).mpr (.inl rfl)
            have hlookup : (runnerEvent sys worktreePath (.hello sid pid)).stored.lookup sid =
                some worktreePath := (lookup_insert_eq _ _ _ _).trans (if_pos rfl)
            rw [storedPath, if_pos hrow, hlookup]
            rfl
          rw [hnone, hnew] at hoccupies
          exact hoccupies
    · right
      have hother : ∀ pid, event ≠ .hello sid pid := fun pid heq => hevent ⟨pid, heq⟩
      exact ⟨⟨hbefore, occupies_or (storedPath_runnerEvent worktreePath hother) hoccupies⟩, hown⟩

/-- Every removal is covered. -/
def AllCovered (manager : WorktreeManager) (maxLinks : ℕ) (sys : RemovalSystem) : Prop :=
  ∀ (i : ℕ) (removal : Removal), sys.removals[i]? = some removal →
    Covered manager maxLinks sys removal

/-- A removal is covered whatever the other removals are. -/
theorem covered_removals {removals : List Removal} :
    Covered manager maxLinks { sys with removals } removal ↔
      Covered manager maxLinks sys removal := Iff.rfl

/-- All are covered after a step of one when it is and the others still are. -/
theorem allCovered_setStage {i : ℕ} {stage : RemovalStage}
    (hremoval : Covered manager maxLinks sys { removal with stage })
    (hothers : ∀ j other, j ≠ i → sys.removals[j]? = some other →
      Covered manager maxLinks sys other) :
    AllCovered manager maxLinks (setStage sys i removal stage) := by
  intro j other hother
  have hset : (sys.removals.set i { removal with stage })[j]? = some other := hother
  rw [List.getElem?_set] at hset
  by_cases hj : i = j
  · rw [if_pos hj] at hset
    split at hset
    · rw [← Option.some.inj hset]
      exact covered_removals.mpr hremoval
    · cases hset
  · rw [if_neg hj] at hset
    exact covered_removals.mpr (hothers j other (fun heq => hj heq.symm) hset)

/-- Other registrations and rows in a system without new ones keep coverage. -/
theorem Covered.shrink {runners : RunnerSystem} (h : Covered manager maxLinks sys removal)
    (hadds : Adds sys.runners runners.runners runners.rows (fun _ => False) (fun _ => False)) :
    Covered manager maxLinks { sys with runners } removal := by
  refine h.frame (fun _ => rfl) ?_
  rintro - sid ⟨hmem, hoccupies⟩
  have hstored : storedPath { sys with runners } sid = storedPath sys sid ∨
      storedPath { sys with runners } sid = none := by
    by_cases hrow : sid ∈ runners.rows
    · have hbefore : sid ∈ sys.runners.rows := (hadds.rows sid hrow).resolve_right (fun h => h)
      left
      rw [storedPath, storedPath, if_pos hbefore]
      exact if_pos hrow
    · exact .inr (if_neg hrow)
  exact .inl ⟨⟨(hadds.runners sid hmem).resolve_right (fun h => h),
    occupies_or hstored hoccupies⟩, rfl⟩

/-- A change of the files under which the removal is calm keeps coverage. -/
theorem Covered.files {tree : FileTree} (h : Covered manager maxLinks sys removal)
    (hcalm : removal.stage.underWay = true →
      manager.canonicalize tree maxLinks removal.path =
          manager.canonicalize sys.tree maxLinks removal.path ∧
        (removal.stage.hasListed = true → ∀ sid ∈ sys.runners.runners.keys,
          occupies manager maxLinks tree removal.path ((ownPath sys sid).or (storedPath sys sid)) =
              true →
            occupies manager maxLinks sys.tree removal.path
                ((ownPath sys sid).or (storedPath sys sid)) = true ∨
              sid ∈ removal.stage.awaited)) :
    Covered manager maxLinks { sys with tree } removal := by
  refine h.frame (fun hway => (hcalm hway).1) ?_
  rintro hlisted sid ⟨hmem, hoccupies⟩
  have hway : removal.stage.underWay = true := by
    cases hstage : removal.stage with
    | answered error => simp [RemovalStage.hasListed, hstage] at hlisted
    | _ => rfl
  rcases (hcalm hway).2 hlisted sid (AList.mem_keys.mp hmem) hoccupies with hbefore | hawaited
  · exact .inl ⟨⟨hmem, hbefore⟩, rfl⟩
  · exact .inr hawaited

/-- A runner event under which the removal is calm keeps coverage. -/
theorem Covered.runnerEvent {event : RunnerEvent} {worktreePath : Option (List Char)} {i : ℕ}
    (h : Covered manager maxLinks sys removal)
    (hcalm : CalmFor manager maxLinks sys i removal (.runner event worktreePath)) :
    Covered manager maxLinks (runnerEvent sys worktreePath event) removal := by
  refine h.frame (fun _ => by rw [tree_runnerEvent]) ?_
  intro hlisted sid hsid
  rcases inWorktree_runnerEvent hsid with ⟨set, hset, rfl, hoccupies⟩ | hbefore
  · exact .inr (hcalm.1 hlisted set hset hoccupies)
  · exact .inl hbefore

/-- A list of all registered runners covers the worktree. -/
theorem covered_listed {path target : List Char} {force : Bool} {sids : List String}
    (h : Covered manager maxLinks sys ⟨path, force, .requested target⟩)
    (hsids : sids.Perm sys.runners.runners.keys) :
    Covered manager maxLinks sys
      ⟨path, force, .collecting target (sids.map (listRunner sys)) []⟩ := by
  refine ⟨h, ?_⟩
  rintro sid ⟨hmem, -⟩
  have hlisted : sid ∈ sids := hsids.mem_iff.mpr (AList.mem_keys.mp hmem)
  exact .inl ⟨listRunner sys sid, List.mem_map_of_mem hlisted, rfl, rfl⟩

/-- A runner in the worktree is found to be a blocker. -/
theorem isBlocker_of_inWorktree {path target : List Char} {readable : Bool} {runner : Listed}
    (htarget : target = manager.canonicalize sys.tree maxLinks path)
    (hrunner : runner.worktreePath = ownPath sys runner.sid)
    (hread : readable = false → runner.worktreePath = none →
      occupies manager maxLinks sys.tree path (storedPath sys runner.sid) = false)
    (h : InWorktree manager maxLinks sys path runner.sid) :
    isBlocker manager maxLinks sys target readable runner = true := by
  obtain ⟨-, hoccupies⟩ := h
  rw [← hrunner] at hoccupies
  rw [isBlocker, htarget]
  cases hown : runner.worktreePath with
  | some text =>
    rw [hown] at hoccupies
    exact hoccupies
  | none =>
    rw [hown] at hoccupies
    cases readable with
    | true => exact hoccupies
    | false =>
      have hnot := hread rfl hown
      rw [Option.none_or, hnot] at hoccupies
      cases hoccupies

/-- Comparing a runner keeps the worktree covered. -/
theorem covered_examined {path target : List Char} {force readable : Bool} {runner : Listed}
    {rest blockers : List Listed} {i : ℕ}
    (h : Covered manager maxLinks sys ⟨path, force, .collecting target (runner :: rest) blockers⟩)
    (hcalm : CalmFor manager maxLinks sys i
      ⟨path, force, .collecting target (runner :: rest) blockers⟩ (.examine i readable)) :
    Covered manager maxLinks sys ⟨path, force, .collecting target rest
      (if isBlocker manager maxLinks sys target readable runner then blockers ++ [runner]
      else blockers)⟩ := by
  refine ⟨h.1, ?_⟩
  intro sid hsid
  have hread : readable = false → runner.worktreePath = none →
      occupies manager maxLinks sys.tree path (storedPath sys runner.sid) = false := by
    rintro rfl hnone
    exact hcalm.2.2 runner (by simp [unread, hnone])
  rcases h.2 sid hsid with ⟨found, hfound, rfl, hpath⟩ | hawaited
  · rcases List.mem_cons.mp hfound with rfl | hrest
    · right
      rw [if_pos (isBlocker_of_inWorktree h.1 hpath hread hsid)]
      simp [RemovalStage.awaited]
    · exact .inl ⟨found, hrest, rfl, hpath⟩
  · right
    split
    · exact List.mem_map.mpr
        ((List.mem_map.mp hawaited).imp fun b hb => ⟨List.mem_append_left _ hb.1, hb.2⟩)
    · exact hawaited

/-- What follows the comparison covers the worktree. -/
theorem covered_afterListing {path target : List Char} {force : Bool} {blockers : List Listed}
    (h : Covered manager maxLinks sys ⟨path, force, .collecting target [] blockers⟩) :
    Covered manager maxLinks sys ⟨path, force, afterListing force blockers⟩ := by
  have hawaited : ∀ sid, InWorktree manager maxLinks sys path sid →
      sid ∈ blockers.map Listed.sid := by
    intro sid hsid
    rcases h.2 sid hsid with ⟨found, hfound, -⟩ | hawaited
    · exact absurd hfound List.not_mem_nil
    · exact hawaited
  rw [afterListing]
  split
  · rename_i hnil
    intro sid hsid
    have hmem := hawaited sid hsid
    rw [hnil] at hmem
    exact absurd hmem List.not_mem_nil
  · split
    · trivial
    · split
      · trivial
      · exact hawaited

/-- Stopping a blocker keeps every removal covered. -/
theorem allCovered_stopBlocker {path : List Char} {force : Bool} {stage : StopStage}
    {blocker : Listed} {rest : List Listed} {i : ℕ} (h : AllCovered manager maxLinks sys)
    (hremoval : Covered manager maxLinks sys ⟨path, force, .stopping stage (blocker :: rest)⟩) :
    AllCovered manager maxLinks
      (stopBlocker sys i ⟨path, force, .stopping stage (blocker :: rest)⟩ blocker rest stage) := by
  cases stage with
  | awaiting => exact allCovered_setStage hremoval (fun j other _ => h j other)
  | waiting process =>
    rw [stopBlocker]
    split
    · exact allCovered_setStage hremoval (fun j other _ => h j other)
    · exact h
  | unregistering =>
    have hadds : Adds sys.runners (unregisterRunner sys.runners blocker.sid).runners
        (unregisterRunner sys.runners blocker.sid).rows (fun _ => False) (fun _ => False) :=
      adds_erase blocker.sid
    refine allCovered_setStage ?_ (fun j other _ hother => (h j other hother).shrink hadds)
    intro sid hsid
    have hne : sid ≠ blocker.sid := (AList.mem_erase.mp hsid.1).1
    have hmem : sid ∈ (blocker :: rest).map Listed.sid := hremoval.shrink hadds sid hsid
    rw [List.map_cons, List.mem_cons] at hmem
    exact hmem.resolve_left hne
  | marking =>
    have hadds : Adds sys.runners (markSession sys.runners blocker.sid .stopped).runners
        (markSession sys.runners blocker.sid .stopped).rows (fun _ => False) (fun _ => False) :=
      adds_alterKey blocker.sid .stopped
    refine allCovered_setStage ?_ (fun j other _ hother => (h j other hother).shrink hadds)
    have hawaited := hremoval.shrink hadds
    by_cases hrest : rest = []
    · rw [if_pos hrest]
      intro sid hsid
      have hmem : sid ∈ rest.map Listed.sid := hawaited sid hsid
      rw [hrest] at hmem
      exact absurd hmem List.not_mem_nil
    · rw [if_neg hrest]
      exact hawaited

/-- A calm event keeps every removal covered. -/
theorem allCovered_step {event : RemovalEvent} (h : AllCovered manager maxLinks sys)
    (hcalm : Calm manager maxLinks sys event) :
    AllCovered manager maxLinks (removalStep manager maxLinks sys event) := by
  have hcalmFor : ∀ (i : ℕ) (removal : Removal), sys.removals[i]? = some removal →
      CalmFor manager maxLinks sys i removal event := by
    intro i removal hremoval
    obtain ⟨hlt, -⟩ := List.getElem?_eq_some_iff.mp hremoval
    exact hcalm.1 i hlt removal hremoval
  cases event with
  | runner event worktreePath =>
    intro i removal hremoval
    have hsame : (runnerEvent sys worktreePath event).removals = sys.removals := by
      cases event with
      | _ => rfl
    rw [removalStep, hsame] at hremoval
    exact (h i removal hremoval).runnerEvent (hcalmFor i removal hremoval)
  | files tree =>
    intro i removal hremoval
    exact (h i removal hremoval).files fun hway => (hcalmFor i removal hremoval).2.1 hway tree rfl
  | remove path force =>
    intro i removal hremoval
    have happend : (sys.removals ++ [⟨path, force,
        .requested (manager.canonicalize sys.tree maxLinks path)⟩])[i]? = some removal := hremoval
    rw [List.getElem?_append] at happend
    split at happend
    · exact covered_removals.mpr (h i removal happend)
    · have hnew := List.mem_of_getElem? happend
      rw [List.mem_singleton.mp hnew]
      exact covered_removals.mpr rfl
  | list i sids =>
    rw [removalStep]
    split
    · rename_i path force target hremoval
      split
      · rename_i hsids
        exact allCovered_setStage (covered_listed (h i _ hremoval) hsids) (fun j other _ => h j other)
      · exact h
    · exact h
  | examine i readable =>
    rw [removalStep]
    split
    · rename_i path force target runner rest blockers hremoval
      exact allCovered_setStage (covered_examined (h i _ hremoval) (hcalmFor i _ hremoval))
        (fun j other _ => h j other)
    · rename_i path force target blockers hremoval
      exact allCovered_setStage (covered_afterListing (h i _ hremoval)) (fun j other _ => h j other)
    · exact h
  | advance i =>
    rw [removalStep]
    split
    · rename_i path force stage blocker rest hremoval
      exact allCovered_stopBlocker h (h i _ hremoval)
    · exact h
  | git i tree error =>
    rw [removalStep]
    split
    · rename_i removal hremoval
      split
      · rename_i hstage
        split
        · rename_i hvalid
          refine allCovered_setStage trivial ?_
          intro j other hne hother
          have hset : treeSet manager maxLinks sys j (.git i tree error) = some tree := by
            simp [treeSet, removedPath, hremoval, runsGit, hvalid, hstage, Ne.symm hne]
          exact (h j other hother).files fun hway => (hcalmFor j other hother).2.1 hway tree hset
        · exact allCovered_setStage trivial (fun j other _ => h j other)
      · exact h
    · exact h
  | add path tree =>
    intro i removal hremoval
    have happend : (sys.removals ++ [⟨path, true, .creating⟩])[i]? = some removal := hremoval
    rw [List.getElem?_append] at happend
    split at happend
    · exact (h i removal happend).files fun hway => (hcalmFor i removal happend).2.1 hway tree rfl
    · have hnew := List.mem_of_getElem? happend
      rw [List.mem_singleton.mp hnew]
      rintro sid ⟨hmem, hoccupies⟩
      have hnot := hcalm.2 sid (AList.mem_keys.mp hmem)
      rw [← Bool.not_eq_true] at hnot
      exact hnot hoccupies
  | started i =>
    rw [removalStep]
    split
    · exact allCovered_setStage trivial (fun j other _ => h j other)
    · exact h

/-- A covered system removes only unused worktrees. -/
theorem removesUnused_of_allCovered (h : AllCovered manager maxLinks sys) (event : RemovalEvent) :
    RemovesUnused manager maxLinks sys event := by
  intro path hpath sid
  cases event with
  | git i tree error =>
    obtain ⟨removal, hremoval, hruns⟩ := Option.bind_eq_some_iff.mp hpath
    split at hruns
    · rename_i hstage
      rw [Bool.and_eq_true] at hstage
      rw [← Option.some.inj hruns]
      exact (h i removal hremoval).unused hstage.1 sid
    · cases hruns
  | _ => cases hpath

/-- In every calm run that starts without removals, no worktree is removed under a
registered runner. -/
theorem calm_runs_remove_unused {events : List RemovalEvent} (hstart : sys.removals = [])
    (hcalm : Meets (removalStep manager maxLinks) (Calm manager maxLinks) sys events) :
    Meets (removalStep manager maxLinks) (RemovesUnused manager maxLinks) sys events := by
  have hcovered : AllCovered manager maxLinks sys := by
    intro i removal hremoval
    rw [hstart] at hremoval
    cases hremoval
  clear hstart
  induction events generalizing sys with
  | nil => trivial
  | cons event events ih =>
    exact ⟨removesUnused_of_allCovered hcovered event,
      ih hcalm.2 (allCovered_step hcovered hcalm.1)⟩

/-- A repository without sessions. -/
def quietSystem : RemovalSystem := ⟨RunnerSystem.initial, ∅, ∅, ∅, linkedRepository, []⟩

/-- A session runs in a worktree that is removed by force; while the removal waits
for its exit, a session is created in another directory. -/
def forcedRun (other : List Char) : List RemovalEvent :=
  [.runner (.create "s1" 7) (some "/w/wt".toList), .remove "../wt".toList true, .list 0 ["s1"],
    .examine 0 true, .examine 0 true, .advance 0, .runner (.create "s2" 8) (some other),
    .runner (.dies 0) none, .advance 0, .advance 0, .advance 0]

/-- A forced removal beside a session elsewhere. -/
theorem calm_runs_remove_unused_forcedRun :
    Meets (removalStep ⟨["w".toList, "repo".toList]⟩ 40)
        (RemovesUnused ⟨["w".toList, "repo".toList]⟩ 40) quietSystem
        (forcedRun "/w/other".toList ++ [.git 0 linkedRepository none]) ∧
      removedPath ⟨["w".toList, "repo".toList]⟩ 40
        (runFrom (removalStep ⟨["w".toList, "repo".toList]⟩ 40) quietSystem
          (forcedRun "/w/other".toList))
        (.git 0 linkedRepository none) = some "../wt".toList := by
  refine ⟨calm_runs_remove_unused rfl ?_, by decide +kernel⟩
  decide +kernel

/-- A session that is created in the worktree while its removal waits for an exit
is registered when git removes the worktree. -/
theorem forcedRun_removes_used :
    ¬Meets (removalStep ⟨["w".toList, "repo".toList]⟩ 40)
      (RemovesUnused ⟨["w".toList, "repo".toList]⟩ 40) quietSystem
      (forcedRun "/w/wt".toList ++ [.git 0 linkedRepository none]) := by
  intro h
  have hunused := (meets_concat.mp h).2
  refine hunused "../wt".toList (by decide +kernel) "s2" ?_
  exact ⟨by decide +kernel, by decide +kernel⟩

end Coverage

end Teleprompter.WorktreeRemoval
