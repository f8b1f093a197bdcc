import Mathlib.Algebra.Order.Ring.Int
import Mathlib.Data.List.Sort
import Teleprompter.RunnerProcesses
import Teleprompter.StoreAgreement

/-!
# Pruning of sessions

A prune lists the sessions that its filter selects, and deletes them one by
one. The list is made in one section of the store lock and every deletion is
another, so runners introduce themselves, report records and say goodbye in
between. The rows are not looked at again: a session that was introduced after
it was listed is deleted although it runs. The count of killed runners goes up
for each session listed as running, whether or not there was a child to signal.
-/

namespace Teleprompter.SessionPrune

open FiniteDictionary SessionRecords SessionStore RunnerProcesses StepRuns
open StoreAgreement (ensureSessionDb_table)

/-- Which sessions are old enough. -/
inductive AgeFilter where
  | olderThan (ms : ℕ)
  | all
  deriving DecidableEq

/-- A request to prune. -/
structure PruneRequest where
  age : AgeFilter
  includeRunning : Bool
  dryRun : Bool
  deriving DecidableEq

/-- The bits of an unsigned 64-bit number read as a signed one. -/
def signedOfU64 (n : ℕ) : ℤ := if n < 2 ^ 63 then n else n - 2 ^ 64

/-- Sessions last touched before this time are old. -/
def cutoffMs (age : AgeFilter) (now : ℕ) : Option ℤ :=
  match age with
  | .olderThan ms => some (signedOfU64 (now - ms))
  | .all => none

/-- A row passes the filter. -/
def isCandidate (includeRunning : Bool) (cutoff : Option ℤ) (row : SessionMeta) : Bool :=
  if row.state = .running ∧ includeRunning = false then false
  else
    match cutoff with
    | none => true
    | some cutoff => (row.updatedAt : ℤ) < cutoff

/-- All rows, the latest created first. -/
def listSessions (rows : Dict String SessionMeta) : List (String × SessionMeta) :=
  (rows.entries.map fun e => (e.1, e.2)).insertionSort fun a b => b.2.createdAt ≤ a.2.createdAt

/-- The rows that pass the filter of a request. -/
def candidates (request : PruneRequest) (now : ℕ) (rows : Dict String SessionMeta) :
    List (String × SessionMeta) :=
  (listSessions rows).filter fun c =>
    isCandidate request.includeRunning (cutoffMs request.age now) c.2

/-- The reply to a prune. -/
inductive PruneReply where
  | ok (sids : List String) (runningKilled : ℕ) (dryRun : Bool)
  | err (message : String) (partialSids : List String) (partialRunningKilled : ℕ)
  deriving DecidableEq

/-- Sessions that a reply names. -/
def PruneReply.sids : PruneReply → List String
  | .ok sids _ _ => sids
  | .err _ partialSids _ => partialSids

/-- Killed runners that a reply counts. -/
def PruneReply.runningKilled : PruneReply → ℕ
  | .ok _ runningKilled _ => runningKilled
  | .err _ _ partialRunningKilled => partialRunningKilled

/-- What a prune does next, for the first session that waits. -/
inductive PruneStage where
  | killing
  | unregistering
  | deleting
  | replied (reply : PruneReply)
  deriving DecidableEq

/-- What happened in a prune, and around it since it listed the sessions. -/
structure PruneLog where
  /-- Rows when the sessions were listed. -/
  rows : Dict String SessionMeta
  /-- When they were. -/
  now : ℕ
  /-- Sessions whose runner was signalled. -/
  killed : List String
  /-- Deleted sessions, with the row that was there. -/
  removed : List (String × Option SessionMeta)
  /-- Sessions of which the latest news is an introduction. -/
  introduced : List String

/-- A prune under way. -/
structure Prune where
  request : PruneRequest
  /-- Candidates still to delete. -/
  waiting : List (String × SessionMeta)
  deleted : List String
  runningKilled : ℕ
  stage : PruneStage
  log : PruneLog

/-- A lock section that a handler has still to take. -/
inductive LockSection where
  | registerRunner (sid : String) (pid : ℕ)
  | unregisterRunner (sid : String)
  /-- A session is stopped, or failed, by a goodbye. -/
  | updateState (sid : String) (exitedZero signalled : Bool)
  /-- A session whose runner exited is stopped if it is shown as running. -/
  | reportExit (sid : String)
  deriving DecidableEq

/-- Store, registrations, handlers of other connections, and the prune. -/
structure PruneSystem where
  store : Store
  runners : Dict String RunnerInfo
  /-- Sections left to the handlers, in the order they started. -/
  handlers : List (List LockSection)
  prune : Option Prune

/-- One lock section. -/
inductive PruneEvent where
  /-- A runner introduces itself. -/
  | hello (sid cwd : String) (worktreePath claudeVersion : Option String) (pid now : ℕ)
    (inserts opens : Bool)
  /-- A runner reports a record. -/
  | record (msg : RecMsg) (binary : Option Octets) (now : ℕ) (disk : DiskOutcome)
  /-- A runner says goodbye; older ones do not name their pid. -/
  | bye (sid : String) (exitedZero : Bool) (pid : Option ℕ) (signalled : Bool)
  /-- A child is spawned for a session. -/
  | spawned (sid : String) (pid : ℕ) (child : ChildId)
  /-- The watcher of a child sees its exit. -/
  | exited (sid : String) (child : ChildId)
  /-- A handler takes its next section; a statement may fail. -/
  | advance (handler now : ℕ) (executes : Bool)
  /-- A prune lists the sessions, which may fail. -/
  | prune (request : PruneRequest) (now : ℕ) (readable : Bool)
  /-- The prune goes on. -/
  | proceed (disk : DeleteOutcome) (message : String)

section Model

/-- Signal the child of a session; whether there is one. -/
def killRunner (runners : Dict String RunnerInfo) (sid : String) : Bool :=
  ((runners.lookup sid).bind RunnerInfo.process).isSome

/-- A pid as the registration holds it. -/
def pidAsU32 (pid : ℕ) : ℕ := if pid < 2 ^ 32 then pid else 2 ^ 32 - 1

/-- Note in the log whether a session was introduced since. -/
def Prune.note (f : List String → List String) (p : Prune) : Prune :=
  { p with log := { p.log with introduced := f p.log.introduced } }

/-- Show a new state of a session, and note that it ended. -/
def endSession (sys : PruneSystem) (sid : String) (state : RunState) (now : ℕ) : PruneSystem :=
  { sys with
    store := updateSessionState sys.store sid state now
    prune := sys.prune.map (Prune.note fun introduced => introduced.filter (· ≠ sid)) }

/-- The state that a goodbye leaves. -/
def byeState (exitedZero signalled : Bool) : RunState :=
  if signalled || exitedZero then .stopped else .error

/-- One section of a handler. -/
def lockSection (sys : PruneSystem) (now : ℕ) (executes : Bool) : LockSection → PruneSystem
  | .registerRunner sid pid =>
    { sys with
      runners := sys.runners.insert sid ⟨pid, (sys.runners.lookup sid).bind RunnerInfo.process⟩ }
  | .unregisterRunner sid => { sys with runners := sys.runners.erase sid }
  | .updateState sid exitedZero signalled =>
    if executes then endSession sys sid (byeState exitedZero signalled) now else sys
  | .reportExit sid =>
    if executes = true ∧ (sys.store.table.rows.lookup sid).map SessionMeta.state = some .running then
      endSession sys sid .stopped now
    else sys

/-- A goodbye is taken unless it names a pid other than the registered one. -/
def acceptsBye (runners : Dict String RunnerInfo) (sid : String) (pid : Option ℕ) : Bool :=
  match pid, runners.lookup sid with
  | some pid, some info => info.pid == pid
  | _, _ => true

/-- The exit of a child is reported unless another child is registered. -/
def ownsExit (runners : Dict String RunnerInfo) (sid : String) (child : ChildId) : Bool :=
  match runners.lookup sid with
  | some info => info.process == none || info.process == some child
  | none => false

/-- Kill the runner of the next session if it was listed as running; after the last
session, reply. -/
def nextStage (waiting : List (String × SessionMeta)) (deleted : List String) (runningKilled : ℕ) :
    PruneStage :=
  match waiting with
  | [] => .replied (.ok deleted runningKilled false)
  | (_, row) :: _ => if row.state = .running then .killing else .deleting

/-- List the sessions. A dry run only replies. A failed query finds none. -/
def startPrune (rows : Dict String SessionMeta) (request : PruneRequest) (now : ℕ)
    (readable : Bool) : Prune :=
  let found := if readable then candidates request now rows else []
  let log : PruneLog := ⟨rows, now, [], [], []⟩
  if request.dryRun then ⟨request, [], [], 0, .replied (.ok (found.map Prod.fst) 0 true), log⟩
  else ⟨request, found, [], 0, nextStage found [] 0, log⟩

variable (codec : Base64Codec) (config : StoreConfig)

/-- A session listed as running was signalled, if it had a child. It is counted in
either case; the count is not seen before the reply. -/
def Prune.signalled (p : Prune) (sid : String) (sent : Bool) : Prune :=
  { p with
    stage := .unregistering
    runningKilled := p.runningKilled + 1
    log := { p.log with killed := if sent then p.log.killed ++ [sid] else p.log.killed } }

/-- The registration was removed. -/
def Prune.unregistered (p : Prune) : Prune := { p with stage := .deleting }

/-- A deletion succeeded, and the next session follows; or it failed, perhaps after the
row was gone, and the prune ends. -/
def Prune.deletedNext (p : Prune) (sid : String) (rest : List (String × SessionMeta))
    (row : Option SessionMeta) (deletesRow ok : Bool) (message : String) : Prune :=
  let log := { p.log with
    removed := if deletesRow then p.log.removed ++ [(sid, row)] else p.log.removed }
  if ok then
    { p with
      waiting := rest
      deleted := p.deleted ++ [sid]
      stage := nextStage rest (p.deleted ++ [sid]) p.runningKilled
      log }
  else { p with stage := .replied (.err message p.deleted p.runningKilled), log }

/-- The next section of a prune. -/
def proceed (sys : PruneSystem) (p : Prune) (disk : DeleteOutcome) (message : String) : PruneSystem :=
  match p.stage, p.waiting with
  | .killing, (sid, _) :: _ =>
    { sys with prune := some (p.signalled sid (killRunner sys.runners sid)) }
  | .unregistering, (sid, _) :: _ =>
    { sys with runners := sys.runners.erase sid, prune := some p.unregistered }
  | .deleting, (sid, _) :: rest =>
    let result := deleteSession config sys.store sid disk
    { sys with
      store := result.store
      prune := some (p.deletedNext sid rest (sys.store.table.rows.lookup sid) disk.deletesRow
        result.ok message) }
  | _, _ => sys

/-- One event. -/
def pruneStep (sys : PruneSystem) : PruneEvent → PruneSystem
  | .hello sid cwd worktreePath claudeVersion pid now inserts opens =>
    let created := createSession config sys.store sid cwd worktreePath claudeVersion now inserts opens
    { sys with
      store := created.store
      handlers := if created.ok then sys.handlers ++ [[.registerRunner sid (pidAsU32 pid)]]
        else sys.handlers
      prune := if isSafeSid sid = true ∧ inserts = true then sys.prune.map (Prune.note (sid :: ·))
        else sys.prune }
  | .record msg binary now disk =>
    { sys with store := (storeRec codec config sys.store msg binary now disk).store }
  | .bye sid exitedZero pid signalled =>
    if acceptsBye sys.runners sid pid then
      { sys with
        handlers := sys.handlers ++
          [[.updateState sid exitedZero signalled, .unregisterRunner sid]] }
    else sys
  | .spawned sid pid child => { sys with runners := sys.runners.insert sid ⟨pid, some child⟩ }
  | .exited sid child =>
    if ownsExit sys.runners sid child then
      { sys with
        runners := sys.runners.erase sid
        handlers := sys.handlers ++ [[.reportExit sid]] }
    else sys
  | .advance i now executes =>
    match sys.handlers[i]? with
    | some (next :: later) =>
      lockSection { sys with handlers := sys.handlers.set i later } now executes next
    | _ => sys
  | .prune request now readable =>
    match sys.prune with
    | none => { sys with prune := some (startPrune sys.store.table.rows request now readable) }
    | some _ => sys
  | .proceed disk message =>
    match sys.prune with
    | some p => proceed config sys p disk message
    | none => sys

end Model

section Statements

/-- A session passed the filter when the sessions were listed. -/
def Selected (p : Prune) (sid : String) : Prop :=
  ∃ row, p.log.rows.lookup sid = some row ∧
    isCandidate p.request.includeRunning (cutoffMs p.request.age p.log.now) row = true

/-- The sessions that were deleted. -/
def removedSids (p : Prune) : List String := p.log.removed.map Prod.fst

/-- A reply names the selected sessions, each once. They are deleted unless this is a dry
run, and the reply counts those of the deleted whose runner was signalled. -/
structure Answers (p : Prune) (reply : PruneReply) : Prop where
  once : reply.sids.Nodup
  named : ∀ sid, sid ∈ reply.sids ↔ Selected p sid
  deleted : p.request.dryRun = false → ∀ sid, sid ∈ removedSids p ↔ Selected p sid
  kept : p.request.dryRun = true → removedSids p = [] ∧ p.log.killed = []
  killed : reply.runningKilled = (removedSids p).countP (· ∈ p.log.killed)

/-- A prune is exact so far. -/
structure Exact (p : Prune) : Prop where
  /-- Unless it was asked to, it deletes no session that runs at that time. -/
  idle : p.request.includeRunning = false →
    ∀ sid row, (sid, some row) ∈ p.log.removed → row.state ≠ .running
  /-- Its count is that of the runners it signalled. -/
  counted : p.runningKilled = p.log.killed.length
  replied : ∀ reply, p.stage = .replied reply → Answers p reply

/-- The prune of a system, if any, is exact so far. -/
def ExactSoFar (sys : PruneSystem) : Prop := ∀ p, sys.prune = some p → Exact p

/-- Every disk access of a deletion succeeds, or is given up without an error. -/
def succeeds (disk : DeleteOutcome) : Bool :=
  disk.deletesRow && disk.unlinked != .failed && disk.unlinksSidecars

/-- A session listed as running has a child to signal, its deletion succeeds, and the
latest news of a session that is not to run is not an introduction. -/
def UndisturbedNext (sys : PruneSystem) (p : Prune) (disk : DeleteOutcome) : Bool :=
  match p.stage, p.waiting with
  | .killing, (sid, _) :: _ => killRunner sys.runners sid
  | .deleting, (sid, _) :: _ =>
    succeeds disk && (p.request.includeRunning || !p.log.introduced.contains sid)
  | _, _ => true

/-- Nothing comes between a prune and what it listed, and the disk works. -/
def Undisturbed (sys : PruneSystem) : PruneEvent → Prop
  | .prune request now readable =>
    sys.prune = none → readable = true ∨ candidates request now sys.store.table.rows = []
  | .proceed disk _ => ∀ p, sys.prune = some p → UndisturbedNext sys p disk = true
  | _ => True

/-- An event of a prune that is a dry run. -/
def OfDryRun (sys : PruneSystem) : PruneEvent → Prop
  | .prune request _ _ => request.dryRun = true
  | .proceed _ _ => ∃ p, sys.prune = some p ∧ p.request.dryRun = true
  | _ => False

/-- Store, registrations and handlers are the same. -/
def SameOutside (sys sys' : PruneSystem) : Prop :=
  sys'.store = sys.store ∧ sys'.runners = sys.runners ∧ sys'.handlers = sys.handlers

/-- A session waits to be deleted. -/
def Active (p : Prune) : Prop := ∀ reply, p.stage ≠ .replied reply

/-- The listed sessions that wait are where they were, and what the log says of them is
what their rows show. -/
structure Tracked (rows : Dict String SessionMeta) (p : Prune) : Prop where
  real : p.request.dryRun = false
  waits : p.waiting ≠ []
  distinct : (p.deleted ++ p.waiting.map Prod.fst).Nodup
  selected : ∀ sid, sid ∈ p.deleted ++ p.waiting.map Prod.fst ↔ Selected p sid
  removed : removedSids p = p.deleted
  killed_distinct : p.log.killed.Nodup
  killed_listed : ∀ sid ∈ p.log.killed, sid ∈ p.deleted ∨
    p.stage ≠ .killing ∧ ∃ c rest, p.waiting = c :: rest ∧ c.1 = sid
  shown : p.request.includeRunning = false → ∀ c ∈ p.waiting, ∃ row,
    rows.lookup c.1 = some row ∧ (row.state = .running ↔ c.1 ∈ p.log.introduced)

/-- The prune of a system is tracked as long as it has not replied. -/
def TrackedPrune (sys : PruneSystem) : Prop :=
  ∀ p, sys.prune = some p → (p.request.dryRun = true → ¬Active p) ∧
    (Active p → Tracked sys.store.table.rows p)

end Statements

section Listing

variable {request : PruneRequest} {now : ℕ} {rows : Dict String SessionMeta}

theorem mem_listSessions {c : String × SessionMeta} :
    c ∈ listSessions rows ↔ rows.lookup c.1 = some c.2 := by
  rw [listSessions, List.mem_insertionSort, List.mem_map]
  constructor
  · rintro ⟨e, he, rfl⟩
    exact AList.mem_lookup_iff.mpr he
  · intro h
    exact ⟨⟨c.1, c.2⟩, AList.mem_lookup_iff.mp h, rfl⟩

theorem nodup_listSessions : ((listSessions rows).map Prod.fst).Nodup := by
  have hperm := (List.perm_insertionSort (fun a b : String × SessionMeta =>
    b.2.createdAt ≤ a.2.createdAt) (rows.entries.map fun e => (e.1, e.2))).map Prod.fst
  refine hperm.nodup_iff.mpr ?_
  rw [List.map_map]
  exact rows.nodupKeys

theorem mem_candidates {c : String × SessionMeta} : c ∈ candidates request now rows ↔
    rows.lookup c.1 = some c.2 ∧
      isCandidate request.includeRunning (cutoffMs request.age now) c.2 = true := by
  rw [candidates, List.mem_filter, mem_listSessions]

theorem nodup_candidates : ((candidates request now rows).map Prod.fst).Nodup :=
  nodup_listSessions.sublist (List.filter_sublist.map Prod.fst)

/-- The candidates are the sessions that pass the filter. -/
theorem mem_map_candidates {sid : String} : sid ∈ (candidates request now rows).map Prod.fst ↔
    ∃ row, rows.lookup sid = some row ∧
      isCandidate request.includeRunning (cutoffMs request.age now) row = true := by
  rw [List.mem_map]
  constructor
  · rintro ⟨c, hc, rfl⟩
    exact ⟨c.2, mem_candidates.mp hc⟩
  · rintro ⟨row, hrow⟩
    exact ⟨(sid, row), mem_candidates.mpr hrow, rfl⟩

/-- A candidate was listed as running on request only. -/
theorem state_ne_running {includeRunning : Bool} {cutoff : Option ℤ} {row : SessionMeta}
    (h : isCandidate includeRunning cutoff row = true) (hidle : includeRunning = false) :
    row.state ≠ .running := by
  intro hrunning
  unfold isCandidate at h
  rw [if_pos ⟨hrunning, hidle⟩] at h
  contradiction

/-- The cutoff of a filter when the clock fits. -/
def pruneCutoff (age : AgeFilter) (now : ℕ) : Option ℕ :=
  match age with
  | .olderThan ms => some (now - ms)
  | .all => none

theorem cutoffMs_eq (hclock : now < 2 ^ 63) (age : AgeFilter) :
    cutoffMs age now = (pruneCutoff age now).map fun cutoff => (cutoff : ℤ) := by
  cases age with
  | olderThan ms =>
    have hsmall : now - ms < 2 ^ 63 := by omega
    rw [cutoffMs, signedOfU64, if_pos hsmall]
    rfl
  | all => rfl

theorem isCandidate_eq (includeRunning : Bool) (cutoff : Option ℕ) (row : SessionMeta) :
    isCandidate includeRunning (cutoff.map fun cutoff => (cutoff : ℤ)) row =
      ((includeRunning || row.state != .running) &&
        match cutoff with
        | none => true
        | some cutoff => decide (row.updatedAt < cutoff)) := by
  unfold isCandidate
  cases includeRunning with
  | true =>
    cases cutoff <;> simp
  | false =>
    cases hstate : row.state <;> cases cutoff <;> simp

/-- As long as the clock fits, these are the sessions that the store is said to prune. -/
theorem mem_candidates_iff (store : Store) (hclock : now < 2 ^ 63) (sid : String) :
    sid ∈ (candidates request now store.table.rows).map Prod.fst ↔
      sid ∈ pruneCandidates store request.includeRunning (pruneCutoff request.age now) := by
  rw [mem_map_candidates, cutoffMs_eq hclock, pruneCandidates, List.mem_map]
  constructor
  · rintro ⟨row, hrow, hpass⟩
    rw [isCandidate_eq] at hpass
    exact ⟨⟨sid, row⟩, List.mem_filter.mpr ⟨AList.mem_lookup_iff.mp hrow, hpass⟩, rfl⟩
  · rintro ⟨e, he, rfl⟩
    obtain ⟨hmem, hpass⟩ := List.mem_filter.mp he
    exact ⟨e.2, AList.mem_lookup_iff.mpr hmem, (isCandidate_eq ..).trans hpass⟩

end Listing

section Around

variable {sys sys' : PruneSystem} {rows rows' : Dict String SessionMeta} {sid : String}

/-- A row stays, and still shows what is noted of its session. -/
def Follows (rows : Dict String SessionMeta) (introduced : List String)
    (rows' : Dict String SessionMeta) (introduced' : List String) : Prop :=
  ∀ sid row, rows.lookup sid = some row → (row.state = .running ↔ sid ∈ introduced) →
    ∃ row', rows'.lookup sid = some row' ∧ (row'.state = .running ↔ sid ∈ introduced')

/-- A row that keeps its state shows the same. -/
theorem follows_of_state (h : ∀ sid, (rows'.lookup sid).map SessionMeta.state =
    (rows.lookup sid).map SessionMeta.state) (introduced : List String) :
    Follows rows introduced rows' introduced := by
  intro sid row hrow hshown
  have hstate := h sid
  rw [hrow, Option.map_some, Option.map_eq_some_iff] at hstate
  obtain ⟨row', hrow', heq⟩ := hstate
  exact ⟨row', hrow', heq ▸ hshown⟩

/-- An introduction shows its session as running. -/
theorem follows_insert {row : SessionMeta} (hrunning : row.state = .running)
    (introduced : List String) :
    Follows rows introduced (rows.insert sid row) (sid :: introduced) := by
  intro other row' hrow' hshown
  rw [lookup_insert_eq]
  by_cases h : other = sid
  · rw [if_pos h]
    exact ⟨row, rfl, fun _ => h ▸ List.mem_cons_self, fun _ => hrunning⟩
  · rw [if_neg h]
    exact ⟨row', hrow', hshown.trans (List.mem_cons.trans (or_iff_right h)).symm⟩

/-- The end of a session shows it as not running. -/
theorem follows_alterKey {f : SessionMeta → SessionMeta} (hended : ∀ row, (f row).state ≠ .running)
    (introduced : List String) :
    Follows rows introduced (alterKey sid f rows) (introduced.filter (· ≠ sid)) := by
  intro other row hrow hshown
  rw [lookup_alterKey, hrow]
  by_cases h : other = sid
  · rw [if_pos h]
    refine ⟨f row, rfl, fun hrunning => absurd hrunning (hended row), fun hmem => ?_⟩
    exact absurd h (of_decide_eq_true (List.mem_filter.mp hmem).2)
  · rw [if_neg h]
    refine ⟨row, rfl, hshown.trans ?_⟩
    rw [List.mem_filter, decide_eq_true h, and_iff_left rfl]

/-- What is noted does not make a prune more or less exact. -/
theorem exact_note {p : Prune} (f : List String → List String) : Exact (p.note f) ↔ Exact p :=
  ⟨fun h => ⟨h.idle, h.counted, fun reply hreply =>
      let answers := h.replied reply hreply
      ⟨answers.once, answers.named, answers.deleted, answers.kept, answers.killed⟩⟩,
    fun h => ⟨h.idle, h.counted, fun reply hreply =>
      let answers := h.replied reply hreply
      ⟨answers.once, answers.named, answers.deleted, answers.kept, answers.killed⟩⟩⟩

/-- A section of another handler leaves the prune as it is, apart from what is noted. -/
structure Beside (sys sys' : PruneSystem) (f : List String → List String) : Prop where
  prune : sys'.prune = sys.prune.map (Prune.note f)
  rows : ∀ introduced,
    Follows sys.store.table.rows introduced sys'.store.table.rows (f introduced)

variable {f : List String → List String}

theorem Beside.exactSoFar (h : Beside sys sys' f) : ExactSoFar sys' ↔ ExactSoFar sys := by
  unfold ExactSoFar
  rw [h.prune]
  constructor
  · intro hexact p hp
    exact (exact_note f).mp (hexact _ (Option.map_eq_some_iff.mpr ⟨p, hp, rfl⟩))
  · intro hexact p' hp'
    obtain ⟨p, hp, rfl⟩ := Option.map_eq_some_iff.mp hp'
    exact (exact_note f).mpr (hexact p hp)

theorem Beside.trackedPrune (h : Beside sys sys' f) (htracked : TrackedPrune sys) :
    TrackedPrune sys' := by
  intro p' hp'
  rw [h.prune] at hp'
  obtain ⟨p, hp, rfl⟩ := Option.map_eq_some_iff.mp hp'
  obtain ⟨hdry, hactive⟩ := htracked p hp
  refine ⟨hdry, fun hwaits => ?_⟩
  have old := hactive hwaits
  refine ⟨old.real, old.waits, old.distinct, old.selected, old.removed, old.killed_distinct,
    old.killed_listed, fun hidle c hc => ?_⟩
  obtain ⟨row, hrow, hshown⟩ := old.shown hidle c hc
  exact h.rows _ c.1 row hrow hshown

/-- Neither the prune nor the state of a row changes. -/
theorem beside_of_same (hprune : sys'.prune = sys.prune)
    (hrows : ∀ sid, (sys'.store.table.rows.lookup sid).map SessionMeta.state =
      (sys.store.table.rows.lookup sid).map SessionMeta.state) : Beside sys sys' id := by
  refine ⟨?_, follows_of_state hrows⟩
  rw [hprune]
  exact Option.map_id'.symm

theorem beside_of_eq (hprune : sys'.prune = sys.prune) (hstore : sys'.store = sys.store) :
    Beside sys sys' id :=
  beside_of_same hprune fun sid => by rw [hstore]

/-- An end of a session is noted. -/
theorem beside_endSession (sid : String) {state : RunState} (hended : state ≠ .running) (now : ℕ) :
    Beside sys (endSession sys sid state now) fun introduced => introduced.filter (· ≠ sid) :=
  ⟨rfl, fun introduced => follows_alterKey (fun _ => hended) introduced⟩

theorem byeState_ne_running (exitedZero signalled : Bool) :
    byeState exitedZero signalled ≠ .running := by
  cases exitedZero <;> cases signalled <;> exact RunState.noConfusion

theorem state_storeRec (codec : Base64Codec) (config : StoreConfig) (store : Store) (msg : RecMsg)
    (binary : Option Octets) (now : ℕ) (disk : DiskOutcome) (sid : String) :
    ((storeRec codec config store msg binary now disk).store.table.rows.lookup sid).map
      SessionMeta.state = (store.table.rows.lookup sid).map SessionMeta.state := by
  unfold storeRec
  dsimp only
  split
  · dsimp only
    split
    · rw [updateLastSeq, SessionTable.update]
      dsimp only
      rw [lookup_alterKey, ensureSessionDb_table]
      split
      · rw [Option.map_map]
        rfl
      · rfl
    · rw [ensureSessionDb_table]
  · rw [ensureSessionDb_table]

/-- Every event other than those of the prune leaves the prune alone. -/
theorem beside_lockSection (sys : PruneSystem) (now : ℕ) (executes : Bool) (next : LockSection) :
    ∃ f, Beside sys (lockSection sys now executes next) f := by
  cases next with
  | registerRunner sid pid => exact ⟨id, beside_of_eq rfl rfl⟩
  | unregisterRunner sid => exact ⟨id, beside_of_eq rfl rfl⟩
  | updateState sid exitedZero signalled =>
    cases executes with
    | false => exact ⟨id, beside_of_eq rfl rfl⟩
    | true => exact ⟨_, beside_endSession sid (byeState_ne_running exitedZero signalled) now⟩
  | reportExit sid =>
    rw [lockSection]
    split
    · exact ⟨_, beside_endSession sid RunState.noConfusion now⟩
    · exact ⟨id, beside_of_eq rfl rfl⟩

theorem rows_createSession {inserts : Bool} (h : isSafeSid sid = true ∧ inserts = true)
    (config : StoreConfig) (store : Store) (cwd : String)
    (worktreePath claudeVersion : Option String) (now : ℕ) (opens : Bool) :
    (createSession config store sid cwd worktreePath claudeVersion now inserts
      opens).store.table.rows = store.table.rows.insert sid
        (helloRow (store.table.rows.lookup sid) cwd worktreePath claudeVersion now) := by
  rw [createSession, dif_pos h.1, if_pos h.2]
  dsimp only
  cases opens with
  | _ => rfl

theorem createSession_of_not {inserts : Bool} (h : ¬(isSafeSid sid = true ∧ inserts = true))
    (config : StoreConfig) (store : Store) (cwd : String)
    (worktreePath claudeVersion : Option String) (now : ℕ) (opens : Bool) :
    (createSession config store sid cwd worktreePath claudeVersion now inserts opens).store =
      store := by
  unfold createSession
  split
  · rename_i hsafe
    rw [if_neg fun hinserts => h ⟨hsafe, hinserts⟩]
  · rfl

/-- Every event other than those of the prune leaves it as it is. -/
theorem beside_pruneStep (codec : Base64Codec) (config : StoreConfig) (sys : PruneSystem)
    (event : PruneEvent) :
    (Undisturbed sys event ∧ ∃ f, Beside sys (pruneStep codec config sys event) f) ∨
      (∃ request now readable, event = .prune request now readable) ∨
      ∃ disk message, event = .proceed disk message := by
  cases event with
  | hello sid cwd worktreePath claudeVersion pid now inserts opens =>
    refine .inl ⟨trivial, ?_⟩
    rw [pruneStep]
    by_cases h : isSafeSid sid = true ∧ inserts = true
    · refine ⟨(sid :: ·), if_pos h, fun introduced => ?_⟩
      dsimp only
      rw [rows_createSession h]
      exact follows_insert rfl introduced
    · exact ⟨id, beside_of_eq (if_neg h) (createSession_of_not h ..)⟩
  | record msg binary now disk =>
    exact .inl ⟨trivial, id, beside_of_same rfl (state_storeRec codec config sys.store msg binary now disk)⟩
  | bye sid exitedZero pid signalled =>
    refine .inl ⟨trivial, id, ?_⟩
    rw [pruneStep]
    split
    · exact beside_of_eq rfl rfl
    · exact beside_of_eq rfl rfl
  | spawned sid pid child => exact .inl ⟨trivial, id, beside_of_eq rfl rfl⟩
  | exited sid child =>
    refine .inl ⟨trivial, id, ?_⟩
    rw [pruneStep]
    split
    · exact beside_of_eq rfl rfl
    · exact beside_of_eq rfl rfl
  | advance i now executes =>
    refine .inl ⟨trivial, ?_⟩
    rw [pruneStep]
    split
    · rename_i next later _
      obtain ⟨f, h⟩ := beside_lockSection { sys with handlers := sys.handlers.set i later } now
        executes next
      exact ⟨f, h.prune, h.rows⟩
    · exact ⟨id, beside_of_eq rfl rfl⟩
  | prune request now readable => exact .inr (.inl ⟨request, now, readable, rfl⟩)
  | proceed disk message => exact .inr (.inr ⟨disk, message, rfl⟩)

end Around

section Deleting

variable {p : Prune} {rows : Dict String SessionMeta} {config : StoreConfig}

theorem deleteSession_ok (store : Store) (sid : String) (disk : DeleteOutcome) :
    (deleteSession config store sid disk).ok = succeeds disk := by
  unfold deleteSession succeeds
  dsimp only
  cases disk.deletesRow with
  | false => rfl
  | true => cases disk.unlinked <;> rfl

theorem rows_deleteSession (store : Store) (sid : String) {disk : DeleteOutcome}
    (h : disk.deletesRow = true) :
    (deleteSession config store sid disk).store.table.rows = store.table.rows.erase sid := by
  unfold deleteSession
  dsimp only
  rw [if_pos h]
  cases disk.unlinked with
  | _ => rfl

theorem deletesRow_of_succeeds {disk : DeleteOutcome} (h : succeeds disk = true) :
    disk.deletesRow = true := by
  rw [succeeds, Bool.and_eq_true, Bool.and_eq_true] at h
  exact h.1.1

theorem nextStage_eq_replied {waiting : List (String × SessionMeta)} {deleted : List String}
    {runningKilled : ℕ} {reply : PruneReply} :
    nextStage waiting deleted runningKilled = .replied reply ↔
      waiting = [] ∧ reply = .ok deleted runningKilled false := by
  cases waiting with
  | nil =>
    constructor
    · intro h
      exact ⟨rfl, (PruneStage.replied.inj h).symm⟩
    · rintro ⟨-, rfl⟩
      rfl
  | cons c rest =>
    constructor
    · intro h
      rw [nextStage] at h
      split at h
      · contradiction
      · contradiction
    · rintro ⟨h, -⟩
      contradiction

theorem ne_nil_of_active {waiting : List (String × SessionMeta)} {deleted : List String}
    {runningKilled : ℕ} (h : ∀ reply, nextStage waiting deleted runningKilled ≠ .replied reply) :
    waiting ≠ [] :=
  fun hnil => h _ (nextStage_eq_replied.mpr ⟨hnil, rfl⟩)

/-- What a prune starts with is tracked. -/
theorem tracked_startPrune {request : PruneRequest} {now : ℕ} {readable : Bool}
    (hactive : Active (startPrune rows request now readable)) :
    Tracked rows (startPrune rows request now readable) := by
  unfold startPrune at hactive ⊢
  dsimp only at hactive ⊢
  cases hdry : request.dryRun with
  | true =>
    rw [hdry, if_pos rfl] at hactive
    exact absurd rfl (hactive _)
  | false =>
    rw [hdry, if_neg Bool.false_ne_true] at hactive
    rw [if_neg Bool.false_ne_true]
    have hwaits := ne_nil_of_active hactive
    cases readable with
    | false => exact absurd rfl hwaits
    | true =>
      refine ⟨hdry, hwaits, nodup_candidates, fun sid => mem_map_candidates, rfl, List.nodup_nil,
        fun sid hsid => absurd hsid List.not_mem_nil, fun hidle c hc => ?_⟩
      obtain ⟨hrow, hcandidate⟩ := mem_candidates.mp hc
      exact ⟨c.2, hrow, fun hrunning => absurd hrunning (state_ne_running hcandidate hidle),
        fun hmem => absurd hmem List.not_mem_nil⟩

theorem selected_startPrune {request : PruneRequest} {now : ℕ} {readable : Bool} {sid : String} :
    Selected (startPrune rows request now readable) sid ↔
      sid ∈ (candidates request now rows).map Prod.fst := by
  rw [mem_map_candidates, startPrune]
  split
  · exact Iff.rfl
  · exact Iff.rfl

/-- A prune starts out exact unless the listing failed and would have found a session. -/
theorem exact_startPrune {request : PruneRequest} {now : ℕ} {readable : Bool} :
    Exact (startPrune rows request now readable) ↔
      readable = true ∨ candidates request now rows = [] := by
  constructor
  · intro h
    cases readable with
    | true => exact .inl rfl
    | false =>
      refine .inr (List.eq_nil_iff_forall_not_mem.mpr fun c hc => ?_)
      have hreplied : (startPrune rows request now false).stage =
          .replied (.ok [] 0 request.dryRun) := by
        unfold startPrune
        cases request.dryRun with
        | _ => rfl
      have hnamed := ((h.replied _ hreplied).named c.1).mpr
        (selected_startPrune.mpr (List.mem_map_of_mem hc))
      exact absurd hnamed List.not_mem_nil
  · intro h
    have hfound : (if readable then candidates request now rows else []) =
        candidates request now rows := by
      rcases h with rfl | hnil
      · rfl
      · rw [hnil, ite_self]
    have hselected : ∀ sid, sid ∈ (candidates request now rows).map Prod.fst ↔
        Selected (startPrune rows request now readable) sid := fun sid => selected_startPrune.symm
    revert hselected
    unfold startPrune
    rw [hfound]
    dsimp only
    split
    · rename_i hdry
      intro hselected
      refine ⟨fun _ sid row hmem => absurd hmem List.not_mem_nil, rfl, fun reply hreply => ?_⟩
      obtain rfl := PruneStage.replied.inj hreply
      exact ⟨nodup_candidates, hselected, fun hreal => absurd (hdry.symm.trans hreal) (by decide),
        fun _ => ⟨rfl, rfl⟩, rfl⟩
    · rename_i hreal
      intro hselected
      refine ⟨fun _ sid row hmem => absurd hmem List.not_mem_nil, rfl, fun reply hreply => ?_⟩
      obtain ⟨hnil, rfl⟩ := nextStage_eq_replied.mp hreply
      rw [hnil] at hselected
      exact ⟨List.nodup_nil, hselected, fun _ => hselected, fun hdry => absurd hdry hreal, rfl⟩

variable {c : String × SessionMeta} {rest : List (String × SessionMeta)}

/-- The next session has not been deleted. -/
theorem Tracked.notMem_deleted (h : Tracked rows p) (hwaiting : p.waiting = c :: rest) :
    c.1 ∉ p.deleted := by
  intro hmem
  have hdistinct := h.distinct
  rw [hwaiting] at hdistinct
  exact List.disjoint_of_nodup_append hdistinct hmem List.mem_cons_self

/-- Signalling keeps what is tracked. -/
theorem Tracked.signalled (h : Tracked rows p) (hstage : p.stage = .killing)
    (hwaiting : p.waiting = c :: rest) (sent : Bool) : Tracked rows (p.signalled c.1 sent) := by
  have hdeleted : ∀ sid ∈ p.log.killed, sid ∈ p.deleted := fun sid hsid =>
    (h.killed_listed sid hsid).resolve_right fun hlater => hlater.1 hstage
  refine ⟨h.real, h.waits, h.distinct, h.selected, h.removed, ?_, ?_, h.shown⟩
  · cases sent with
    | false => exact h.killed_distinct
    | true =>
      refine List.nodup_append.mpr ⟨h.killed_distinct, List.nodup_singleton _, ?_⟩
      intro sid hsid other hother heq
      rw [List.mem_singleton] at hother
      exact h.notMem_deleted hwaiting (hother ▸ heq ▸ hdeleted sid hsid)
  · intro sid hsid
    cases sent with
    | false => exact .inl (hdeleted sid hsid)
    | true =>
      rcases List.mem_append.mp hsid with hold | hnew
      · exact .inl (hdeleted sid hold)
      · exact .inr ⟨PruneStage.noConfusion, c, rest, hwaiting, (List.mem_singleton.mp hnew).symm⟩

/-- The count stays right when there is a child to signal. -/
theorem exact_signalled (h : Exact p) (sid : String) (sent : Bool) :
    Exact (p.signalled sid sent) ↔ sent = true := by
  have hcounted := h.counted
  constructor
  · intro hexact
    have hnext : p.runningKilled + 1 =
        (if sent then p.log.killed ++ [sid] else p.log.killed).length := hexact.counted
    cases sent with
    | false =>
      rw [if_neg Bool.false_ne_true] at hnext
      omega
    | true => rfl
  · rintro rfl
    refine ⟨h.idle, ?_, fun reply hreply => absurd hreply PruneStage.noConfusion⟩
    change p.runningKilled + 1 = (p.log.killed ++ [sid]).length
    rw [List.length_append, List.length_singleton, hcounted]

/-- Removing the registration keeps what is tracked. -/
theorem Tracked.unregistered (h : Tracked rows p) :
    Tracked rows p.unregistered := by
  refine ⟨h.real, h.waits, h.distinct, h.selected, h.removed, h.killed_distinct, ?_, h.shown⟩
  intro sid hsid
  exact (h.killed_listed sid hsid).imp_right fun hlater => ⟨PruneStage.noConfusion, hlater.2⟩

theorem exact_unregistered (h : Exact p) : Exact p.unregistered :=
  ⟨h.idle, h.counted, fun _ hreply => absurd hreply PruneStage.noConfusion⟩

/-- A deletion after which the prune goes on keeps what is tracked. -/
theorem Tracked.deletedNext (h : Tracked rows p) (hwaiting : p.waiting = c :: rest)
    {row : Option SessionMeta} {deletesRow ok : Bool} {message : String}
    (hrow : ok = true → deletesRow = true)
    (hactive : Active (p.deletedNext c.1 rest row deletesRow ok message)) :
    deletesRow = true ∧
      Tracked (rows.erase c.1) (p.deletedNext c.1 rest row deletesRow ok message) := by
  cases ok with
  | false => exact absurd rfl (hactive _)
  | true =>
    have hdistinct := h.distinct
    have hselected := h.selected
    have hshown := h.shown
    rw [hwaiting] at hdistinct hselected hshown
    rw [List.map_cons, List.append_cons] at hdistinct
    refine ⟨hrow rfl, h.real, ne_nil_of_active hactive, hdistinct, ?_, ?_, h.killed_distinct, ?_, ?_⟩
    · intro sid
      have hold := hselected sid
      rw [List.map_cons, List.append_cons] at hold
      exact hold
    · change (if deletesRow then p.log.removed ++ [(c.1, row)] else p.log.removed).map Prod.fst =
        p.deleted ++ [c.1]
      rw [if_pos (hrow rfl), List.map_append, ← h.removed]
      rfl
    · intro sid hsid
      refine .inl ?_
      rcases h.killed_listed sid hsid with hdeleted | ⟨-, other, others, hhead, rfl⟩
      · exact List.mem_append_left _ hdeleted
      · rw [hwaiting] at hhead
        obtain ⟨rfl, -⟩ := List.cons.inj hhead
        exact List.mem_append_right _ (List.mem_singleton_self _)
    · intro hidle other hother
      obtain ⟨found, hfound, hiff⟩ := hshown hidle other (List.mem_cons_of_mem c hother)
      have hne : other.1 ≠ c.1 := by
        intro heq
        refine List.disjoint_of_nodup_append hdistinct
          (List.mem_append_right _ (List.mem_singleton_self c.1)) ?_
        exact heq ▸ List.mem_map_of_mem hother
      exact ⟨found, by rw [lookup_erase_eq, if_neg hne, hfound], hiff⟩

/-- A list counts each of some of its elements once. -/
theorem countP_mem_eq_length {killed sids : List String} (hsids : sids.Nodup)
    (hkilled : killed.Nodup) (hsub : ∀ sid ∈ killed, sid ∈ sids) :
    sids.countP (· ∈ killed) = killed.length := by
  rw [List.countP_eq_length_filter]
  refine List.Perm.length_eq ((List.perm_ext_iff_of_nodup (hsids.filter _) hkilled).mpr fun sid => ?_)
  rw [List.mem_filter, decide_eq_true_eq]
  exact ⟨And.right, fun hmem => ⟨hsub sid hmem, hmem⟩⟩

/-- A deletion is exact when it succeeds and, unless that was asked for, the latest news of
its session is not an introduction. -/
theorem exact_deletedNext (h : Tracked rows p) (hexact : Exact p)
    (hwaiting : p.waiting = c :: rest) {deletesRow ok : Bool} {message : String} (hrow : ok = true → deletesRow = true) :
    Exact (p.deletedNext c.1 rest (rows.lookup c.1) deletesRow ok message) ↔
      ok = true ∧ (p.request.includeRunning = true ∨ c.1 ∉ p.log.introduced) := by
  have hselected : Selected p c.1 := by
    refine (h.selected c.1).mp (List.mem_append_right _ ?_)
    rw [hwaiting]
    exact List.mem_cons_self
  constructor
  · intro hnext
    cases ok with
    | false =>
      have hnamed := ((hnext.replied _ rfl).named c.1).mpr hselected
      exact absurd hnamed (h.notMem_deleted hwaiting)
    | true =>
      refine ⟨rfl, ?_⟩
      cases hidle : p.request.includeRunning with
      | true => exact .inl rfl
      | false =>
        refine .inr fun hintroduced => ?_
        obtain ⟨row, hfound, hiff⟩ := h.shown hidle c (hwaiting ▸ List.mem_cons_self)
        refine hnext.idle hidle c.1 row ?_ (hiff.mpr hintroduced)
        change (c.1, some row) ∈
          if deletesRow then p.log.removed ++ [(c.1, rows.lookup c.1)] else p.log.removed
        rw [if_pos (hrow rfl), hfound]
        exact List.mem_append_right _ (List.mem_singleton_self _)
  · rintro ⟨rfl, hidle⟩
    have hdeleted := hrow rfl
    subst hdeleted
    refine ⟨fun hnot sid row hmem => ?_, hexact.counted, fun reply hreply => ?_⟩
    · rcases List.mem_append.mp hmem with hold | hnew
      · exact hexact.idle hnot sid row hold
      · obtain ⟨rfl, hrow'⟩ := Prod.mk.inj (List.mem_singleton.mp hnew)
        obtain ⟨found, hfound, hiff⟩ := h.shown hnot c (hwaiting ▸ List.mem_cons_self)
        obtain rfl := Option.some.inj (hrow'.trans hfound)
        intro hrunning
        rcases hidle with hrun | hlatest
        · exact absurd (hnot.symm.trans hrun) Bool.false_ne_true
        · exact hlatest (hiff.mp hrunning)
    · obtain ⟨hnil, rfl⟩ := nextStage_eq_replied.mp hreply
      have hdistinct := h.distinct
      have hall := h.selected
      rw [hwaiting, hnil] at hdistinct hall
      have hremoved : removedSids (p.deletedNext c.1 rest (rows.lookup c.1) true true message) =
          p.deleted ++ [c.1] := by
        rw [← h.removed]
        exact List.map_append
      refine ⟨hdistinct, hall, fun _ => hremoved ▸ hall,
        fun hdry => absurd (h.real.symm.trans hdry) Bool.false_ne_true, ?_⟩
      rw [hremoved]
      refine hexact.counted.trans (countP_mem_eq_length hdistinct h.killed_distinct ?_).symm
      intro sid hsid
      rcases h.killed_listed sid hsid with hold | ⟨-, other, others, hhead, rfl⟩
      · exact List.mem_append_left _ hold
      · rw [hwaiting] at hhead
        obtain ⟨rfl, -⟩ := List.cons.inj hhead
        exact List.mem_append_right _ (List.mem_singleton_self _)

end Deleting

section Runs

variable {codec : Base64Codec} {config : StoreConfig} {sys : PruneSystem}

theorem exactSoFar_iff {p : Prune} (h : sys.prune = some p) : ExactSoFar sys ↔ Exact p := by
  unfold ExactSoFar
  rw [h]
  exact ⟨fun hexact => hexact p rfl, fun hexact p' hp' => Option.some.inj hp' ▸ hexact⟩

theorem trackedPrune_iff {p : Prune} (h : sys.prune = some p) : TrackedPrune sys ↔
    (p.request.dryRun = true → ¬Active p) ∧ (Active p → Tracked sys.store.table.rows p) := by
  unfold TrackedPrune
  rw [h]
  exact ⟨fun htracked => htracked p rfl, fun htracked p' hp' => Option.some.inj hp' ▸ htracked⟩

/-- What is tracked is not a dry run. -/
theorem trackedPrune_of_active {p : Prune} (h : sys.prune = some p)
    (htracked : Active p → Tracked sys.store.table.rows p) : TrackedPrune sys :=
  (trackedPrune_iff h).mpr ⟨fun hdry hactive =>
    Bool.false_ne_true ((htracked hactive).real.symm.trans hdry), htracked⟩

/-- A section of the prune keeps what is tracked, and is exact when undisturbed. -/
theorem proceed_spec (config : StoreConfig) {p : Prune} (hp : sys.prune = some p) (htracked : TrackedPrune sys)
    (disk : DeleteOutcome) (message : String) :
    TrackedPrune (proceed config sys p disk message) ∧
      (Exact p → (ExactSoFar (proceed config sys p disk message) ↔
        UndisturbedNext sys p disk = true)) := by
  obtain ⟨-, hactive⟩ := (trackedPrune_iff hp).mp htracked
  unfold proceed UndisturbedNext
  cases hstage : p.stage with
  | replied reply =>
    exact ⟨htracked, fun hexact => iff_of_true ((exactSoFar_iff hp).mpr hexact) rfl⟩
  | killing =>
    have old := hactive fun reply hreply => PruneStage.noConfusion (hstage.symm.trans hreply)
    cases hwaiting : p.waiting with
    | nil => exact absurd hwaiting old.waits
    | cons c rest =>
      refine ⟨trackedPrune_of_active rfl fun _ => old.signalled hstage hwaiting _, fun hexact => ?_⟩
      exact (exactSoFar_iff rfl).trans (exact_signalled hexact c.1 _)
  | unregistering =>
    have old := hactive fun reply hreply => PruneStage.noConfusion (hstage.symm.trans hreply)
    cases hwaiting : p.waiting with
    | nil => exact absurd hwaiting old.waits
    | cons c rest =>
      refine ⟨trackedPrune_of_active rfl fun _ => old.unregistered, fun hexact => ?_⟩
      exact iff_of_true ((exactSoFar_iff rfl).mpr (exact_unregistered hexact)) rfl
  | deleting =>
    have old := hactive fun reply hreply => PruneStage.noConfusion (hstage.symm.trans hreply)
    cases hwaiting : p.waiting with
    | nil => exact absurd hwaiting old.waits
    | cons c rest =>
      have hok : (deleteSession config sys.store c.1 disk).ok = true → disk.deletesRow = true := by
        rw [deleteSession_ok]
        exact deletesRow_of_succeeds
      refine ⟨trackedPrune_of_active rfl fun hwaits => ?_, fun hexact => ?_⟩
      · obtain ⟨hrow, hnext⟩ := old.deletedNext hwaiting hok hwaits
        dsimp only
        rw [rows_deleteSession sys.store c.1 hrow]
        exact hnext
      · refine (exactSoFar_iff rfl).trans ((exact_deletedNext old hexact hwaiting hok).trans ?_)
        rw [deleteSession_ok, Bool.and_eq_true, Bool.or_eq_true, Bool.not_eq_true',
          ← Bool.not_eq_true, List.contains_iff_mem]

/-- One event keeps what is tracked, and is exact when undisturbed. -/
theorem pruneStep_spec (htracked : TrackedPrune sys) (event : PruneEvent) :
    TrackedPrune (pruneStep codec config sys event) ∧
      (ExactSoFar sys →
        (ExactSoFar (pruneStep codec config sys event) ↔ Undisturbed sys event)) := by
  rcases beside_pruneStep codec config sys event with ⟨htrue, f, hbeside⟩ |
    ⟨request, now, readable, rfl⟩ | ⟨disk, message, rfl⟩
  · refine ⟨hbeside.trackedPrune htracked, fun hexact => iff_of_true ?_ htrue⟩
    exact hbeside.exactSoFar.mpr hexact
  · cases hp : sys.prune with
    | none =>
      rw [pruneStep, hp]
      refine ⟨(trackedPrune_iff rfl).mpr ⟨?_, tracked_startPrune⟩, fun _ => ?_⟩
      · intro hdry hactive
        exact Bool.false_ne_true ((tracked_startPrune hactive).real.symm.trans hdry)
      · refine (exactSoFar_iff rfl).trans (exact_startPrune.trans ?_)
        exact ⟨fun h _ => h, fun h => h hp⟩
    | some p =>
      rw [pruneStep, hp]
      refine ⟨htracked, fun hexact => iff_of_true hexact fun hnone => ?_⟩
      rw [hp] at hnone
      contradiction
  · cases hp : sys.prune with
    | none =>
      rw [pruneStep, hp]
      refine ⟨htracked, fun hexact => iff_of_true hexact fun p hsome => ?_⟩
      rw [hp] at hsome
      contradiction
    | some p =>
      rw [pruneStep, hp]
      obtain ⟨hnext, hiff⟩ := proceed_spec config hp htracked disk message
      refine ⟨hnext, fun hexact => (hiff ((exactSoFar_iff hp).mp hexact)).trans ?_⟩
      exact ⟨fun h p' hp' => Option.some.inj (hp.symm.trans hp') ▸ h, fun h => h p hp⟩

/-- A dry run changes nothing outside. -/
theorem sameOutside_of_dryRun (htracked : TrackedPrune sys) {event : PruneEvent}
    (hdry : OfDryRun sys event) : SameOutside sys (pruneStep codec config sys event) := by
  cases event with
  | prune request now readable =>
    rw [pruneStep]
    split
    · exact ⟨rfl, rfl, rfl⟩
    · exact ⟨rfl, rfl, rfl⟩
  | proceed disk message =>
    obtain ⟨p, hp, hdry⟩ := hdry
    have hdone := ((trackedPrune_iff hp).mp htracked).1 hdry
    have hreplied : ∃ reply, p.stage = .replied reply :=
      Classical.byContradiction fun hnone => hdone fun reply hreply => hnone ⟨reply, hreply⟩
    obtain ⟨reply, hreply⟩ := hreplied
    rw [pruneStep, hp]
    dsimp only
    unfold proceed
    rw [hreply]
    exact ⟨rfl, rfl, rfl⟩
  | _ => exact hdry.elim

/-- In every run a prune is exact throughout exactly when it is undisturbed, and a dry
run changes nothing. -/
theorem prune_exact_iff (codec : Base64Codec) (config : StoreConfig) (hstart : sys.prune = none)
    (events : List PruneEvent) :
    ((∀ before, before <+: events →
        ExactSoFar (runFrom (pruneStep codec config) sys before)) ↔
      Meets (pruneStep codec config) Undisturbed sys events) ∧
      ∀ before event, before ++ [event] <+: events →
        OfDryRun (runFrom (pruneStep codec config) sys before) event →
        SameOutside (runFrom (pruneStep codec config) sys before)
          (pruneStep codec config (runFrom (pruneStep codec config) sys before) event) := by
  have htracked : TrackedPrune sys := fun p hp => by
    rw [hstart] at hp
    contradiction
  have hexact : ExactSoFar sys := fun p hp => by
    rw [hstart] at hp
    contradiction
  refine ⟨forall_prefix_iff_meets (fun sys event h => (pruneStep_spec h event).1)
    (fun sys event h hsofar => (pruneStep_spec h event).2 hsofar) htracked hexact events, ?_⟩
  intro before event _ hdry
  have hbefore : TrackedPrune (runFrom (pruneStep codec config) sys before) :=
    @runFrom_induction _ _ (pruneStep codec config) TrackedPrune
      (fun sys event h => (pruneStep_spec h event).1) sys htracked before
  exact sameOutside_of_dryRun hbefore hdry

/-- A store with one session that was stopped. -/
def stoppedSession : PruneSystem :=
  ⟨⟨SessionTable.empty.put "s" rfl ⟨.stopped, none, "/w", 1, 2, none, 0⟩, ∅, []⟩, ∅, [], none⟩

/-- All stopped sessions are pruned, with some events after the listing. -/
def pruneWith (between : List PruneEvent) : List PruneEvent :=
  .prune ⟨.all, false, false⟩ 9 true :: between ++ [.proceed ⟨true, .removed, true⟩ ""]

/-- A runner of the session introduces itself. -/
def restartHello : PruneEvent := .hello "s" "/w" none none 7 9 true true

/-- A record comes between the listing and the deletion, which disturbs nothing. -/
theorem prune_exact_recorded :
    Meets (pruneStep emptyPayloadCodec sampleConfig) Undisturbed stoppedSession
        (pruneWith [.record (emptyIo "s") none 9 workingDisk]) ∧
      ∀ before, before <+: pruneWith [.record (emptyIo "s") none 9 workingDisk] →
        ExactSoFar (runFrom (pruneStep emptyPayloadCodec sampleConfig) stoppedSession before) := by
  have hmeets : Meets (pruneStep emptyPayloadCodec sampleConfig) Undisturbed stoppedSession
      (pruneWith [.record (emptyIo "s") none 9 workingDisk]) := by
    refine ⟨fun _ => .inl rfl, trivial, fun p hp => ?_, trivial⟩
    obtain rfl := Option.some.inj hp
    decide +kernel
  exact ⟨hmeets, (prune_exact_iff emptyPayloadCodec sampleConfig rfl _).1.mpr hmeets⟩

/-- A session introduced after it was listed is deleted although it runs. -/
theorem prune_deletes_running : ¬ExactSoFar (runFrom (pruneStep emptyPayloadCodec sampleConfig)
    stoppedSession (pruneWith [restartHello])) := by
  intro h
  have hlog : (runFrom (pruneStep emptyPayloadCodec sampleConfig) stoppedSession
      (pruneWith [restartHello])).prune.map (fun p => (p.request.includeRunning, p.log.removed)) =
      some (false, [("s", some ⟨.running, none, "/w", 1, 9, none, 0⟩)]) := by decide +kernel
  obtain ⟨p, hp, heq⟩ := Option.map_eq_some_iff.mp hlog
  obtain ⟨hidle, hremoved⟩ := Prod.mk.inj heq
  exact (h p hp).idle hidle "s" _ (hremoved ▸ List.mem_singleton_self _) rfl

end Runs

end Teleprompter.SessionPrune
