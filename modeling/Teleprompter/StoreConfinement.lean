import Teleprompter.SessionStore
import Teleprompter.StepRuns

/-!
# Confinement of the store to its directory

The sid of a message becomes a file name. Sessions are created behind the
guard on sids, and deletion, pruning and export start from a row, so they stay
in the directory of the database files. Records and resume requests reach the
file without guard and without row; the store stays confined exactly when the
files these open lie in the directory.
-/

namespace Teleprompter.StoreConfinement

open FiniteDictionary LinkedPaths SessionRecords SessionStore StepRuns

/-- The store and all files opened or unlinked so far. -/
structure StoreLog where
  store : Store
  /-- Files in the order of the accesses. -/
  accessed : List Path

/-- Handle one event and note its accesses. -/
def logStep (codec : Base64Codec) (config : StoreConfig) (log : StoreLog) (event : StoreEvent) :
    StoreLog :=
  let result := handleEvent codec config log.store event
  ⟨result.store, log.accessed ++ result.accessed⟩

/-- A fresh store that accessed nothing. -/
def freshLog : StoreLog := ⟨Store.empty, []⟩

/-- Every file accessed lies directly in the directory of the database files. -/
def Confined (config : StoreConfig) (accessed : List Path) : Prop :=
  ∀ path ∈ accessed, DirectChild (sessionsDir config) path

/-- A database that is opened for a record or a resume request, and is not
open already, lies directly in the directory of database files. -/
def OpensInside (config : StoreConfig) (log : StoreLog) : StoreEvent → Prop
  | .record msg _ _ disk => msg.sid ∉ log.store.order → disk.opens = true →
      DirectChild (sessionsDir config) (sessionDbPath config msg.sid)
  | .resume sid _ disk => sid ∉ log.store.order → disk.opens = true →
      DirectChild (sessionsDir config) (sessionDbPath config sid)
  | _ => True

/-- All files of a session with a safe sid are inside. -/
theorem confined_sessionFiles {sid : String} (config : StoreConfig) (h : isSafeSid sid = true) :
    Confined config (sessionDbPath config sid :: sidecars config sid) := by
  have hdb : DirectChild (sessionsDir config) (sessionDbPath config sid) :=
    ⟨_, sessionDbPath_of_safe config h⟩
  have hwal : DirectChild (sessionsDir config) (sessionFile config sid "-wal") :=
    ⟨_, sessionFile_of_safe config h (by decide)⟩
  have hshm : DirectChild (sessionsDir config) (sessionFile config sid "-shm") :=
    ⟨_, sessionFile_of_safe config h (by decide)⟩
  simp only [Confined, sidecars, List.forall_mem_cons]
  exact ⟨hdb, hwal, hshm, List.forall_mem_nil _⟩

/-- What is opened to have a database at hand. -/
theorem ensureSessionDb_accessed (config : StoreConfig) (store : Store) (sid : String)
    (opens : Bool) : (ensureSessionDb config store sid opens).accessed =
      if sid ∉ store.order ∧ opens = true then [sessionDbPath config sid] else [] := by
  unfold ensureSessionDb
  by_cases hopen : sid ∈ store.order
  · simp [hopen]
  · cases opens <;> simp [hopen]

/-- Having a database at hand is confined exactly when opening it is. -/
theorem confined_ensureSessionDb (config : StoreConfig) (store : Store) (sid : String)
    (opens : Bool) : Confined config (ensureSessionDb config store sid opens).accessed ↔
      (sid ∉ store.order → opens = true →
        DirectChild (sessionsDir config) (sessionDbPath config sid)) := by
  rw [ensureSessionDb_accessed]
  by_cases h : sid ∉ store.order ∧ opens = true
  · rw [if_pos h, Confined, List.forall_mem_singleton]
    exact ⟨fun hc _ _ => hc, fun hc => hc h.1 h.2⟩
  · rw [if_neg h, Confined]
    exact ⟨fun _ hc ho => absurd ⟨hc, ho⟩ h, fun _ => List.forall_mem_nil _⟩

/-- Storing a record opens what having its database at hand opens. -/
theorem storeRec_accessed (codec : Base64Codec) (config : StoreConfig) (store : Store)
    (msg : RecMsg) (binary : Option Octets) (now : ℕ) (disk : DiskOutcome) :
    (storeRec codec config store msg binary now disk).accessed =
      (ensureSessionDb config store msg.sid disk.opens).accessed := by
  unfold storeRec
  dsimp only
  split <;> rfl

/-- Creating a session stays inside. -/
theorem confined_createSession (config : StoreConfig) (store : Store) (sid cwd : String)
    (worktreePath claudeVersion : Option String) (now : ℕ) (inserts opens : Bool) :
    Confined config
      (createSession config store sid cwd worktreePath claudeVersion now inserts opens).accessed := by
  unfold createSession
  by_cases h : isSafeSid sid = true
  · have hfiles := confined_sessionFiles config h
    rw [Confined, List.forall_mem_cons] at hfiles
    rw [dif_pos h]
    cases inserts with
    | false => exact List.forall_mem_nil _
    | true =>
      cases opens with
      | false => exact List.forall_mem_nil _
      | true => exact List.forall_mem_singleton.mpr hfiles.1
  · rw [dif_neg h]
    exact List.forall_mem_nil _

/-- Deleting a session with a safe sid stays inside. -/
theorem confined_deleteSession {sid : String} (config : StoreConfig) (h : isSafeSid sid = true)
    (store : Store) (disk : DeleteOutcome) :
    Confined config (deleteSession config store sid disk).accessed := by
  have hfiles := confined_sessionFiles config h
  unfold deleteSession
  by_cases hrow : disk.deletesRow = true
  · rw [if_pos hrow]
    cases disk.unlinked with
    | removed => exact hfiles
    | kept => exact (List.forall_mem_cons.mp hfiles).2
    | failed => exact List.forall_mem_nil _
  · rw [if_neg hrow]
    exact List.forall_mem_nil _

/-- Deleting sessions with safe sids stays inside. -/
theorem confined_deleteSessions (config : StoreConfig) (outcome : String → DeleteOutcome)
    (sids : List String) (h : ∀ sid ∈ sids, isSafeSid sid = true) (store : Store) :
    Confined config (deleteSessions config store outcome sids).accessed := by
  induction sids generalizing store with
  | nil => exact List.forall_mem_nil _
  | cons sid sids ih =>
    obtain ⟨hsid, hsids⟩ := List.forall_mem_cons.mp h
    have hdeleted := confined_deleteSession config hsid store (outcome sid)
    unfold deleteSessions
    dsimp only
    by_cases hok : (deleteSession config store sid (outcome sid)).ok = true
    · rw [if_pos hok]
      exact List.forall_mem_append.mpr ⟨hdeleted, ih hsids _⟩
    · rw [if_neg hok]
      exact hdeleted

/-- One event stays inside exactly when what it opens without guard does. -/
theorem confined_handleEvent (codec : Base64Codec) (config : StoreConfig) (log : StoreLog)
    (event : StoreEvent) :
    Confined config (handleEvent codec config log.store event).accessed ↔
      OpensInside config log event := by
  cases event with
  | hello sid cwd worktreePath claudeVersion now inserts opens =>
    have hinside := confined_createSession config log.store sid cwd worktreePath claudeVersion now
      inserts opens
    exact iff_of_true hinside trivial
  | record msg binary now disk =>
    rw [handleEvent, storeRec_accessed, confined_ensureSessionDb, OpensInside]
  | ended sid state now => exact iff_of_true (List.forall_mem_nil _) trivial
  | delete sid disk =>
    refine iff_of_true ?_ trivial
    rw [handleEvent]
    by_cases hrow : sid ∈ log.store.table.rows
    · rw [if_pos hrow]
      exact confined_deleteSession config (log.store.table.safe sid hrow) log.store disk
    · rw [if_neg hrow]
      exact List.forall_mem_nil _
  | prune includeRunning cutoff outcome =>
    refine iff_of_true ?_ trivial
    have hsafe : ∀ sid ∈ pruneCandidates log.store includeRunning cutoff, isSafeSid sid = true :=
      fun sid hsid => log.store.table.safe sid (mem_of_pruneCandidates hsid)
    exact confined_deleteSessions config outcome _ hsafe log.store
  | resume sid cursor disk => rw [handleEvent, confined_ensureSessionDb, OpensInside]
  | exportSession sid limit disk =>
    refine iff_of_true ?_ trivial
    rw [handleEvent]
    by_cases hrefused : (∃ l ∈ limit, l ≤ 0) ∨ sid ∉ log.store.table.rows
    · rw [if_pos hrefused]
      exact List.forall_mem_nil _
    · rw [if_neg hrefused, confined_ensureSessionDb]
      have hrow : sid ∈ log.store.table.rows := by
        by_contra hrow
        exact hrefused (Or.inr hrow)
      exact fun _ _ => ⟨_, sessionDbPath_of_safe config (log.store.table.safe sid hrow)⟩
  | create sid => exact iff_of_true (List.forall_mem_nil _) trivial
  | restart sid => exact iff_of_true (List.forall_mem_nil _) trivial
  | reopen => exact iff_of_true (List.forall_mem_nil _) trivial

/-- A run accesses files of its directory only, exactly when the databases it
opens for records and resume requests lie in that directory. -/
theorem store_confined_iff (codec : Base64Codec) (config : StoreConfig)
    (events : List StoreEvent) :
    (∀ before, before <+: events →
        Confined config (runFrom (logStep codec config) freshLog before).accessed) ↔
      Meets (logStep codec config) (OpensInside config) freshLog events := by
  have hstep : ∀ log event, True → Confined config log.accessed →
      (Confined config (logStep codec config log event).accessed ↔
        OpensInside config log event) := by
    intro log event _ hlog
    rw [← confined_handleEvent codec, logStep, Confined, List.forall_mem_append]
    exact and_iff_right hlog
  have hbase : ∀ (log : StoreLog) (event : StoreEvent), True → True := fun _ _ h => h
  have hfresh : Confined config freshLog.accessed := List.forall_mem_nil _
  exact forall_prefix_iff_meets hbase hstep trivial hfresh events

/-- A resume request for a session that never existed, two directories up. -/
def escapingResume : StoreEvent := .resume "../../evil" 0 workingDisk

/-- A frontend makes the daemon create a database at the root. -/
theorem store_escapes :
    (runFrom (logStep emptyPayloadCodec sampleConfig) freshLog [escapingResume]).accessed =
        [["evil.sqlite".toList]] ∧
      ¬∀ before, before <+: [escapingResume] → Confined sampleConfig
        (runFrom (logStep emptyPayloadCodec sampleConfig) freshLog before).accessed := by
  have hopened : (runFrom (logStep emptyPayloadCodec sampleConfig) freshLog
      [escapingResume]).accessed = [["evil.sqlite".toList]] := by decide +kernel
  refine ⟨hopened, fun hconfined => ?_⟩
  have hinside := hconfined [escapingResume] List.prefix_rfl ["evil.sqlite".toList]
    (by rw [hopened]; exact List.mem_singleton_self _)
  exact absurd hinside (by decide +kernel)

end Teleprompter.StoreConfinement
