import Teleprompter.LinkedPaths
import Teleprompter.SessionRecords

/-!
# The session store of the daemon

A session has a row in the sessions table and a database file of records. The
row is created by the hello of its runner; the file is opened, and created
when missing, by whoever asks for the records. Open handles are kept up to a
limit, the least recently used one is closed first. Rows and files are removed
together, by request or by age. Each operation returns the files it opened or
unlinked.
-/

namespace Teleprompter.SessionStore

open FiniteDictionary LinkedPaths SessionRecords

/-- Where the store lives, and how many database handles it keeps open. -/
structure StoreConfig where
  /-- Absolute directory of the store. -/
  storeDir : Path
  /-- Zero stands for no limit. -/
  maxOpenSessionDbs : ℕ
  deriving DecidableEq

/-- State column of a session. -/
inductive RunState where
  | running
  | stopped
  | error
  deriving DecidableEq

/-- A row of the sessions table. -/
structure SessionMeta where
  state : RunState
  worktreePath : Option String
  cwd : String
  createdAt : ℕ
  updatedAt : ℕ
  claudeVersion : Option String
  /-- Number of the newest record. -/
  lastSeq : ℕ
  deriving DecidableEq

/-- Letters, digits, underscores and hyphens, and not empty. -/
def isSafeSid (sid : String) : Bool :=
  !sid.toList.isEmpty && sid.toList.all fun c => c.isAlphanum || c == '_' || c == '-'

/-- The guard in front of path joins. -/
def assertSafeSid (sid : String) : Except String Unit :=
  if isSafeSid sid = true then .ok ()
  else .error ("invalid sid '" ++ sid ++
    "': must match [A-Za-z0-9_-]+ (no path separator, '..', or empty)")

/-- The sessions table. Rows are inserted behind the guard only. -/
structure SessionTable where
  /-- Rows by session. -/
  rows : Dict String SessionMeta
  /-- No row has an unsafe sid. -/
  safe : ∀ sid ∈ rows, isSafeSid sid = true

/-- A table without rows. -/
def SessionTable.empty : SessionTable := ⟨∅, fun _ h => absurd h (AList.notMem_empty _)⟩

/-- Insert a row, or replace it. -/
def SessionTable.put (table : SessionTable) (sid : String) (h : isSafeSid sid = true)
    (row : SessionMeta) : SessionTable :=
  ⟨table.rows.insert sid row, fun other hmem => by
    rcases (AList.mem_insert _).mp hmem with rfl | hold
    · exact h
    · exact table.safe other hold⟩

/-- Change a row, if there is one. -/
def SessionTable.update (table : SessionTable) (sid : String) (f : SessionMeta → SessionMeta) :
    SessionTable :=
  ⟨alterKey sid f table.rows, fun other hmem => table.safe other (mem_alterKey.mp hmem)⟩

/-- Delete a row, if there is one. -/
def SessionTable.remove (table : SessionTable) (sid : String) : SessionTable :=
  ⟨table.rows.erase sid, fun other hmem => table.safe other (AList.mem_erase.mp hmem).2⟩

/-- The store: table, database files, and the sids whose database is open. -/
structure Store where
  /-- The sessions table. -/
  table : SessionTable
  /-- Database files on disk. -/
  files : Dict Path SessionDb
  /-- Open handles, least recently used first. -/
  order : List String

/-- A fresh store. -/
def Store.empty : Store := ⟨SessionTable.empty, ∅, []⟩

/-- What an operation leaves behind. -/
structure StoreResult where
  store : Store
  /-- Whether the operation succeeded. -/
  ok : Bool
  /-- Files it opened or unlinked. -/
  accessed : List Path

/-- Directory of the database files. -/
def sessionsDir (config : StoreConfig) : Path := config.storeDir ++ ["sessions".toList]

/-- A file of a session: its database, or a sidecar of that. -/
def sessionFile (config : StoreConfig) (sid suffix : String) : Path :=
  resolve (sessionsDir config) (sid.toList ++ ".sqlite".toList ++ suffix.toList)

/-- The database file of a session. -/
def sessionDbPath (config : StoreConfig) (sid : String) : Path := sessionFile config sid ""

/-- Move a handle to the recently used end. -/
def touch (order : List String) (sid : String) : List String := order.erase sid ++ [sid]

/-- Keep a handle, and close the oldest ones above the limit. -/
def trackSessionDb (config : StoreConfig) (order : List String) (sid : String) : List String :=
  let touched := touch order sid
  if config.maxOpenSessionDbs = 0 then touched
  else touched.drop (touched.length - config.maxOpenSessionDbs)

/-- The database in a file; a missing file counts as empty. -/
def Store.dbAt (store : Store) (path : Path) : SessionDb :=
  (store.files.lookup path).getD SessionDb.empty

/-- Open a database file and keep the handle. A missing file is created. -/
def Store.openDb (config : StoreConfig) (store : Store) (sid : String) : Store :=
  { store with
    files := orInsert (sessionDbPath config sid) SessionDb.empty store.files
    order := trackSessionDb config store.order sid }

/-- Row of a new session, or of one whose runner starts again. The record
number and the time of creation stay. -/
def helloRow (old : Option SessionMeta) (cwd : String) (worktreePath claudeVersion : Option String)
    (now : ℕ) : SessionMeta :=
  { state := .running
    worktreePath
    cwd
    createdAt := (old.map SessionMeta.createdAt).getD now
    updatedAt := now
    claudeVersion
    lastSeq := (old.map SessionMeta.lastSeq).getD 0 }

/-- Create or refresh the row of a session and open its database. -/
def createSession (config : StoreConfig) (store : Store) (sid cwd : String)
    (worktreePath claudeVersion : Option String) (now : ℕ) (inserts opens : Bool) : StoreResult :=
  if h : isSafeSid sid = true then
    if inserts then
      let stored := { store with
        table := store.table.put sid h
          (helloRow (store.table.rows.lookup sid) cwd worktreePath claudeVersion now) }
      if opens then ⟨stored.openDb config sid, true, [sessionDbPath config sid]⟩
      else ⟨stored, false, []⟩
    else ⟨store, false, []⟩
  else ⟨store, false, []⟩

/-- Have the database of a session open, whatever its sid. -/
def ensureSessionDb (config : StoreConfig) (store : Store) (sid : String) (opens : Bool) :
    StoreResult :=
  if sid ∈ store.order then ⟨{ store with order := touch store.order sid }, true, []⟩
  else if opens then ⟨store.openDb config sid, true, [sessionDbPath config sid]⟩
  else ⟨store, false, []⟩

/-- Show a new state of a session that has a row. -/
def updateSessionState (store : Store) (sid : String) (state : RunState) (now : ℕ) : Store :=
  { store with table := store.table.update sid fun row => { row with state, updatedAt := now } }

/-- Show a new last record number of a session that has a row. -/
def updateLastSeq (store : Store) (sid : String) (seq now : ℕ) : Store :=
  { store with
    table := store.table.update sid fun row => { row with lastSeq := seq, updatedAt := now } }

/-- How unlinking a database file ends. -/
inductive Unlinked where
  | removed
  /-- Busy until the retries were used up, which is not an error. -/
  | kept
  | failed
  deriving DecidableEq

/-- Which disk accesses of a deletion succeed. -/
structure DeleteOutcome where
  /-- The statement on the sessions table. -/
  deletesRow : Bool
  /-- The database file. -/
  unlinked : Unlinked
  /-- The sidecars of the database file. -/
  unlinksSidecars : Bool
  deriving DecidableEq

/-- Sidecar files of a session. -/
def sidecars (config : StoreConfig) (sid : String) : List Path :=
  [sessionFile config sid "-wal", sessionFile config sid "-shm"]

/-- Close the handle of a session, delete its row and then its files. -/
def deleteSession (config : StoreConfig) (store : Store) (sid : String) (disk : DeleteOutcome) :
    StoreResult :=
  let closed := { store with order := store.order.erase sid }
  if disk.deletesRow then
    let removed := { closed with table := closed.table.remove sid }
    match disk.unlinked with
    | .removed =>
      ⟨{ removed with files := removed.files.erase (sessionDbPath config sid) },
        disk.unlinksSidecars, sessionDbPath config sid :: sidecars config sid⟩
    | .kept => ⟨removed, disk.unlinksSidecars, sidecars config sid⟩
    | .failed => ⟨removed, false, []⟩
  else ⟨closed, false, []⟩

/-- Delete sessions in turn, up to the first failure. -/
def deleteSessions (config : StoreConfig) (store : Store) (outcome : String → DeleteOutcome) :
    List String → StoreResult
  | [] => ⟨store, true, []⟩
  | sid :: sids =>
    let deleted := deleteSession config store sid (outcome sid)
    if deleted.ok then
      let rest := deleteSessions config deleted.store outcome sids
      { rest with accessed := deleted.accessed ++ rest.accessed }
    else deleted

/-- Sessions that a prune removes: running ones only on request, and only
those last touched before the cutoff. -/
def pruneCandidates (store : Store) (includeRunning : Bool) (cutoff : Option ℕ) : List String :=
  (store.table.rows.entries.filter fun e =>
    (includeRunning || e.2.state != .running) &&
      match cutoff with
      | none => true
      | some cutoff => e.2.updatedAt < cutoff).map Sigma.fst

/-- Store a record in the database of its session. -/
def storeRec (codec : Base64Codec) (config : StoreConfig) (store : Store) (msg : RecMsg)
    (binary : Option Octets) (now : ℕ) (disk : DiskOutcome) : StoreResult :=
  let ensured := ensureSessionDb config store msg.sid disk.opens
  if ensured.ok && disk.executes then
    let path := sessionDbPath config msg.sid
    let appended := (ensured.store.dbAt path).append (recordKindStr msg.kind) (asI64 msg.ts)
      (payloadForms codec msg binary).1 (msg.ns.map namespaceStr) msg.name
    let stored := { ensured.store with files := ensured.store.files.insert path appended.1 }
    ⟨if disk.updatesRow then updateLastSeq stored msg.sid appended.2 now else stored, true,
      ensured.accessed⟩
  else { ensured with ok := false }

/-- Messages and ticks that reach the store. -/
inductive StoreEvent where
  /-- A runner introduces itself. -/
  | hello (sid cwd : String) (worktreePath claudeVersion : Option String) (now : ℕ)
    (inserts opens : Bool)
  /-- A runner reports a record. -/
  | record (msg : RecMsg) (binary : Option Octets) (now : ℕ) (disk : DiskOutcome)
  /-- A runner ends, by its own goodbye or as seen by the daemon. -/
  | ended (sid : String) (state : RunState) (now : ℕ)
  /-- A client deletes a session, over either channel. -/
  | delete (sid : String) (disk : DeleteOutcome)
  /-- A client or the clock prunes sessions. -/
  | prune (includeRunning : Bool) (cutoff : Option ℕ) (outcome : String → DeleteOutcome)
  /-- A frontend asks for the records above a cursor. -/
  | resume (sid : String) (cursor : ℕ) (disk : DiskOutcome)
  /-- A frontend asks for an export, at most so many records. -/
  | exportSession (sid : String) (limit : Option ℤ) (disk : DiskOutcome)
  /-- A frontend creates a session; its runner will introduce itself. -/
  | create (sid : String)
  /-- A frontend restarts a session; its runner will introduce itself. -/
  | restart (sid : String)
  /-- The daemon process starts anew on the same directory. -/
  | reopen

/-- What the store does for one event. -/
def handleEvent (codec : Base64Codec) (config : StoreConfig) (store : Store) :
    StoreEvent → StoreResult
  | .hello sid cwd worktreePath claudeVersion now inserts opens =>
    createSession config store sid cwd worktreePath claudeVersion now inserts opens
  | .record msg binary now disk => storeRec codec config store msg binary now disk
  | .ended sid state now => ⟨updateSessionState store sid state now, true, []⟩
  | .delete sid disk =>
    if sid ∈ store.table.rows then deleteSession config store sid disk else ⟨store, false, []⟩
  | .prune includeRunning cutoff outcome =>
    deleteSessions config store outcome (pruneCandidates store includeRunning cutoff)
  | .resume sid _ disk => ensureSessionDb config store sid disk.opens
  | .exportSession sid limit disk =>
    if (∃ l ∈ limit, l ≤ 0) ∨ sid ∉ store.table.rows then ⟨store, false, []⟩
    else ensureSessionDb config store sid disk.opens
  | .create sid => ⟨store, (assertSafeSid sid).isOk, []⟩
  | .restart _ => ⟨store, true, []⟩
  | .reopen => ⟨{ store with order := [] }, true, []⟩

/-- Pruned sessions have a row. -/
theorem mem_of_pruneCandidates {store : Store} {includeRunning : Bool} {cutoff : Option ℕ}
    {sid : String} (h : sid ∈ pruneCandidates store includeRunning cutoff) :
    sid ∈ store.table.rows := by
  obtain ⟨entry, hentry, rfl⟩ := List.mem_map.mp h
  have hmem := List.mem_of_mem_filter hentry
  exact List.mem_keys_of_mem hmem

/-- A safe sid has no slash. -/
theorem slash_notMem_of_safe {sid : String} (h : isSafeSid sid = true) : '/' ∉ sid.toList := by
  intro hmem
  unfold isSafeSid at h
  rw [Bool.and_eq_true, List.all_eq_true] at h
  have hslash := h.2 '/' hmem
  contradiction

/-- The files of a safe sid lie in the directory of the database files. -/
theorem sessionFile_of_safe {sid suffix : String} (config : StoreConfig)
    (h : isSafeSid sid = true) (hsuffix : '/' ∉ suffix.toList) :
    sessionFile config sid suffix =
      sessionsDir config ++ [sid.toList ++ ".sqlite".toList ++ suffix.toList] := by
  have hslash : '/' ∉ sid.toList ++ ".sqlite".toList ++ suffix.toList := by
    simp only [List.mem_append, not_or]
    exact ⟨⟨slash_notMem_of_safe h, by decide⟩, hsuffix⟩
  have hlong : 2 < (sid.toList ++ ".sqlite".toList ++ suffix.toList).length := by
    have hextension : ".sqlite".toList.length = 7 := by decide
    simp only [List.length_append, hextension]
    omega
  exact resolve_of_notMem hslash hlong

/-- The database of a safe sid lies in the directory of the database files. -/
theorem sessionDbPath_of_safe {sid : String} (config : StoreConfig) (h : isSafeSid sid = true) :
    sessionDbPath config sid = sessionsDir config ++ [sid.toList ++ ".sqlite".toList] := by
  have hempty : '/' ∉ "".toList := by decide
  rw [sessionDbPath, sessionFile_of_safe config h hempty]
  simp

/-- Safe sids have different database files. -/
theorem sessionDbPath_injective {sid other : String} (config : StoreConfig)
    (h : isSafeSid sid = true) (h' : isSafeSid other = true)
    (heq : sessionDbPath config sid = sessionDbPath config other) : sid = other := by
  rw [sessionDbPath_of_safe config h, sessionDbPath_of_safe config h'] at heq
  have hname := List.append_cancel_left heq
  have hchars := List.append_cancel_right (List.singleton_inj.mp hname)
  exact String.toList_inj.mp hchars

/-- The store directory `/v`. -/
def sampleConfig : StoreConfig := ⟨["v".toList], 32⟩

end Teleprompter.SessionStore
