import Teleprompter.SessionStore
import Teleprompter.StepRuns

/-!
# Agreement of rows and databases

The row of a session shows the number of its newest record, and a database is
there for sessions with a row only. Rows come with the hello of a runner.
Records and resume requests open the database whether or not there is a row,
so the agreement lasts as long as they come for sessions that have one, and as
long as the disk does the second half of what was begun.
-/

namespace Teleprompter.StoreAgreement

open FiniteDictionary LinkedPaths SessionRecords SessionStore StepRuns

/-- The store after one event. -/
def storeStep (codec : Base64Codec) (config : StoreConfig) (store : Store) (event : StoreEvent) :
    Store :=
  (handleEvent codec config store event).store

/-- Largest record number in a database, zero when it is empty. -/
def maxSeq (db : SessionDb) : ℕ := (db.rows.map StoredRecord.seq).foldl max 0

/-- Databases belong to rows, and rows show their newest record. -/
structure Agree (config : StoreConfig) (store : Store) : Prop where
  /-- A file on disk is the database of a session with a row. -/
  file_has_row : ∀ path ∈ store.files, ∃ sid ∈ store.table.rows, sessionDbPath config sid = path
  /-- A handle is open for sessions with a row only. -/
  handle_has_row : ∀ sid ∈ store.order, sid ∈ store.table.rows
  /-- A row shows the largest number in its database. -/
  last_seq : ∀ sid row, store.table.rows.lookup sid = some row →
    row.lastSeq = maxSeq (store.dbAt (sessionDbPath config sid))

/-- A database is open, or will be. -/
def AtHand (store : Store) (sid : String) (opens : Bool) : Prop :=
  sid ∈ store.order ∨ opens = true

/-- Records and resume requests that reach a database come for sessions with
a row. A stored record is shown in its row, and a database goes with its row. -/
def RowFirst (store : Store) : StoreEvent → Prop
  | .record msg _ _ disk => AtHand store msg.sid disk.opens →
      msg.sid ∈ store.table.rows ∧ (disk.executes = true → disk.updatesRow = true)
  | .resume sid _ disk => AtHand store sid disk.opens → sid ∈ store.table.rows
  | .delete _ disk => disk.deletesRow = true → disk.unlinked = .removed
  | .prune includeRunning cutoff outcome => ∀ sid ∈ pruneCandidates store includeRunning cutoff,
      (outcome sid).deletesRow = true → (outcome sid).unlinked = .removed
  | _ => True

/-- A record or a resume request for a session without a row. -/
def ForRowless (store : Store) : StoreEvent → Prop
  | .record msg _ _ _ => msg.sid ∉ store.table.rows
  | .resume sid _ _ => sid ∉ store.table.rows
  | _ => False

instance (store : Store) (sid : String) (opens : Bool) : Decidable (AtHand store sid opens) :=
  inferInstanceAs (Decidable (_ ∨ _))

instance (store : Store) : (event : StoreEvent) → Decidable (RowFirst store event)
  | .record msg _ _ disk => inferInstanceAs (Decidable (AtHand store msg.sid disk.opens →
      msg.sid ∈ store.table.rows ∧ (disk.executes = true → disk.updatesRow = true)))
  | .resume sid _ disk =>
    inferInstanceAs (Decidable (AtHand store sid disk.opens → sid ∈ store.table.rows))
  | .delete _ disk =>
    inferInstanceAs (Decidable (disk.deletesRow = true → disk.unlinked = .removed))
  | .prune includeRunning cutoff outcome =>
    inferInstanceAs (Decidable (∀ sid ∈ pruneCandidates store includeRunning cutoff,
      (outcome sid).deletesRow = true → (outcome sid).unlinked = .removed))
  | .hello .. => isTrue trivial
  | .ended .. => isTrue trivial
  | .exportSession .. => isTrue trivial
  | .create _ => isTrue trivial
  | .restart _ => isTrue trivial
  | .reopen => isTrue trivial

/-- Numbered rows have their count as the largest number. -/
theorem maxSeq_eq_length (db : SessionDb) : maxSeq db = db.rows.length := by
  have hrange : ∀ n, (List.range' 1 n).foldl max 0 = n := by
    intro n
    induction n with
    | zero => rfl
    | succ n ih =>
      rw [List.range'_concat, List.foldl_append, ih, List.foldl_cons, List.foldl_nil]
      omega
  rw [maxSeq, db.numbered, hrange]

/-- A record appended raises the largest number by one. -/
theorem maxSeq_append (db : SessionDb) (kind : String) (ts : ℤ) (payload : Octets)
    (ns name : Option String) :
    maxSeq (db.append kind ts payload ns name).1 = (db.append kind ts payload ns name).2 := by
  rw [maxSeq_eq_length, SessionDb.append, List.length_append, List.length_singleton]

/-- Only a touched handle is new. -/
theorem mem_of_mem_touch {order : List String} {sid other : String} (h : other ∈ touch order sid) :
    other ∈ order ∨ other = sid := by
  rcases List.mem_append.mp h with hold | hnew
  · exact Or.inl (List.mem_of_mem_erase hold)
  · exact Or.inr (List.mem_singleton.mp hnew)

/-- Only a tracked handle is new. -/
theorem mem_of_mem_track {config : StoreConfig} {order : List String} {sid other : String}
    (h : other ∈ trackSessionDb config order sid) : other ∈ order ∨ other = sid := by
  unfold trackSessionDb at h
  dsimp only at h
  by_cases hlimit : config.maxOpenSessionDbs = 0
  · rw [if_pos hlimit] at h
    exact mem_of_mem_touch h
  · rw [if_neg hlimit] at h
    exact mem_of_mem_touch (List.mem_of_mem_drop h)

/-- Touching keeps handles distinct. -/
theorem nodup_touch {order : List String} (h : order.Nodup) (sid : String) :
    (touch order sid).Nodup := by
  have herase : sid ∉ order.erase sid := h.not_mem_erase
  rw [touch, List.nodup_append]
  refine ⟨h.erase sid, List.nodup_singleton sid, ?_⟩
  intro a ha b hb heq
  rw [heq, List.mem_singleton.mp hb] at ha
  exact herase ha

/-- Tracking keeps handles distinct. -/
theorem nodup_track {order : List String} (h : order.Nodup) (config : StoreConfig) (sid : String) :
    (trackSessionDb config order sid).Nodup := by
  unfold trackSessionDb
  dsimp only
  by_cases hlimit : config.maxOpenSessionDbs = 0
  · rw [if_pos hlimit]
    exact nodup_touch h sid
  · rw [if_neg hlimit]
    exact (nodup_touch h sid).sublist (List.drop_sublist _ _)

/-- Opening a database changes no records. -/
theorem dbAt_openDb (config : StoreConfig) (store : Store) (sid : String) (path : Path) :
    (store.openDb config sid).dbAt path = store.dbAt path := by
  unfold Store.dbAt Store.openDb
  dsimp only
  rw [lookup_orInsert]
  by_cases h : path = sessionDbPath config sid
  · rw [if_pos h, h, Option.getD_some]
  · rw [if_neg h]

/-- Closing or reordering handles keeps the agreement. -/
theorem Agree.setOrder {config : StoreConfig} {store : Store} (h : Agree config store)
    {order : List String} (horder : ∀ sid ∈ order, sid ∈ store.table.rows) :
    Agree config { store with order } :=
  ⟨h.file_has_row, horder, h.last_seq⟩

/-- Opening the database of a session with a row keeps the agreement. -/
theorem Agree.openDb {config : StoreConfig} {store : Store} (h : Agree config store)
    {sid : String} (hrow : sid ∈ store.table.rows) : Agree config (store.openDb config sid) := by
  refine ⟨?_, ?_, ?_⟩
  · intro path hpath
    obtain ⟨db, hdb⟩ := mem_iff_lookup.mp hpath
    unfold Store.openDb at hdb
    dsimp only at hdb
    rw [lookup_orInsert] at hdb
    by_cases heq : path = sessionDbPath config sid
    · exact ⟨sid, hrow, heq.symm⟩
    · rw [if_neg heq] at hdb
      exact h.file_has_row path (mem_iff_lookup.mpr ⟨db, hdb⟩)
  · intro other hother
    rcases mem_of_mem_track hother with hold | rfl
    · exact h.handle_has_row other hold
    · exact hrow
  · intro other row hother
    rw [dbAt_openDb]
    exact h.last_seq other row hother

/-- Having the database of a session with a row at hand keeps the agreement. -/
theorem Agree.ensureSessionDb {config : StoreConfig} {store : Store} (h : Agree config store)
    {sid : String} {opens : Bool} (hrow : AtHand store sid opens → sid ∈ store.table.rows) :
    Agree config (ensureSessionDb config store sid opens).store := by
  unfold SessionStore.ensureSessionDb
  by_cases hopen : sid ∈ store.order
  · rw [if_pos hopen]
    refine h.setOrder fun other hother => ?_
    rcases mem_of_mem_touch hother with hold | rfl
    · exact h.handle_has_row other hold
    · exact hrow (Or.inl hopen)
  · rw [if_neg hopen]
    cases opens with
    | false => exact h
    | true => exact h.openDb (hrow (Or.inr rfl))

/-- Changing rows without touching their record number keeps the agreement. -/
theorem Agree.update {config : StoreConfig} {store : Store} (h : Agree config store) (sid : String)
    {f : SessionMeta → SessionMeta} (hf : ∀ row, (f row).lastSeq = row.lastSeq) :
    Agree config { store with table := store.table.update sid f } := by
  refine ⟨?_, ?_, ?_⟩
  · intro path hpath
    obtain ⟨other, hother, heq⟩ := h.file_has_row path hpath
    exact ⟨other, mem_alterKey.mpr hother, heq⟩
  · intro other hother
    exact mem_alterKey.mpr (h.handle_has_row other hother)
  · intro other row hrow
    simp only [SessionTable.update] at hrow
    rw [lookup_alterKey] at hrow
    by_cases heq : other = sid
    · rw [if_pos heq] at hrow
      obtain ⟨old, hold, rfl⟩ := Option.map_eq_some_iff.mp hrow
      rw [hf]
      exact h.last_seq other old hold
    · rw [if_neg heq] at hrow
      exact h.last_seq other row hrow

/-- A session without a row has no database. -/
theorem Agree.dbAt_of_rowless {config : StoreConfig} {store : Store} (h : Agree config store)
    {sid : String} (hsafe : isSafeSid sid = true) (hrow : sid ∉ store.table.rows) :
    store.dbAt (sessionDbPath config sid) = SessionDb.empty := by
  have hnone : store.files.lookup (sessionDbPath config sid) = none := by
    rw [AList.lookup_eq_none]
    intro hfile
    obtain ⟨other, hother, heq⟩ := h.file_has_row _ hfile
    have hsame := sessionDbPath_injective config (store.table.safe other hother) hsafe heq
    exact hrow (hsame ▸ hother)
  rw [Store.dbAt, hnone, Option.getD_none]

/-- The hello of a runner keeps the agreement. -/
theorem Agree.put {config : StoreConfig} {store : Store} (h : Agree config store) {sid : String}
    (hsafe : isSafeSid sid = true) (cwd : String) (worktreePath claudeVersion : Option String)
    (now : ℕ) :
    Agree config { store with
      table := store.table.put sid hsafe
        (helloRow (store.table.rows.lookup sid) cwd worktreePath claudeVersion now) } := by
  refine ⟨?_, ?_, ?_⟩
  · intro path hpath
    obtain ⟨other, hother, heq⟩ := h.file_has_row path hpath
    exact ⟨other, (AList.mem_insert _).mpr (Or.inr hother), heq⟩
  · intro other hother
    exact (AList.mem_insert _).mpr (Or.inr (h.handle_has_row other hother))
  · intro other row hrow
    simp only [SessionTable.put] at hrow
    rw [lookup_insert_eq] at hrow
    by_cases heq : other = sid
    · rw [if_pos heq, Option.some.injEq] at hrow
      rw [← hrow, heq]
      cases hold : store.table.rows.lookup sid with
      | none =>
        have hempty := h.dbAt_of_rowless hsafe (AList.lookup_eq_none.mp hold)
        rw [Store.dbAt] at hempty ⊢
        rw [hempty]
        rfl
      | some old => exact h.last_seq sid old hold
    · rw [if_neg heq] at hrow
      exact h.last_seq other row hrow

/-- A record stored and shown in the row of its session keeps the agreement. -/
theorem Agree.appended {config : StoreConfig} {store : Store} (h : Agree config store)
    {sid : String} (hrow : sid ∈ store.table.rows) {db : SessionDb} {seq : ℕ}
    (hseq : maxSeq db = seq) (now : ℕ) :
    Agree config (updateLastSeq
      { store with files := store.files.insert (sessionDbPath config sid) db } sid seq now) := by
  refine ⟨?_, ?_, ?_⟩
  · intro path hpath
    rcases (AList.mem_insert _).mp hpath with rfl | hold
    · exact ⟨sid, mem_alterKey.mpr hrow, rfl⟩
    · obtain ⟨other, hother, heq⟩ := h.file_has_row path hold
      exact ⟨other, mem_alterKey.mpr hother, heq⟩
  · intro other hother
    exact mem_alterKey.mpr (h.handle_has_row other hother)
  · intro other row hother
    simp only [updateLastSeq, SessionTable.update, Store.dbAt] at hother ⊢
    rw [lookup_alterKey] at hother
    rw [lookup_insert_eq]
    by_cases heq : other = sid
    · rw [if_pos heq] at hother
      obtain ⟨old, -, rfl⟩ := Option.map_eq_some_iff.mp hother
      rw [heq, if_pos rfl, Option.getD_some, hseq]
    · rw [if_neg heq] at hother
      have hdiffers : sessionDbPath config other ≠ sessionDbPath config sid := fun hpath =>
        heq (sessionDbPath_injective config
          (store.table.safe other (mem_iff_lookup.mpr ⟨row, hother⟩)) (store.table.safe sid hrow)
          hpath)
      rw [if_neg hdiffers]
      exact h.last_seq other row hother

/-- Deleting a row with its database keeps the agreement. -/
theorem Agree.deleteSession {config : StoreConfig} {store : Store} (h : Agree config store)
    (hnodup : store.order.Nodup) {sid : String} (hsafe : isSafeSid sid = true)
    {disk : DeleteOutcome} (hdisk : disk.deletesRow = true → disk.unlinked = .removed) :
    Agree config (deleteSession config store sid disk).store := by
  have hclosed : ∀ other ∈ store.order.erase sid, other ≠ sid ∧ other ∈ store.table.rows := by
    intro other hother
    obtain ⟨hne, hold⟩ := hnodup.mem_erase_iff.mp hother
    exact ⟨hne, h.handle_has_row other hold⟩
  unfold SessionStore.deleteSession
  by_cases hrow : disk.deletesRow = true
  · simp only [hrow, hdisk hrow, if_true]
    refine ⟨?_, ?_, ?_⟩
    · intro path hpath
      obtain ⟨hne, hold⟩ := AList.mem_erase.mp hpath
      obtain ⟨other, hother, heq⟩ := h.file_has_row path hold
      have hother_ne : other ≠ sid := fun hsame => hne (hsame ▸ heq).symm
      exact ⟨other, AList.mem_erase.mpr ⟨hother_ne, hother⟩, heq⟩
    · intro other hother
      exact AList.mem_erase.mpr (hclosed other hother)
    · intro other row hother
      simp only [SessionTable.remove, Store.dbAt] at hother ⊢
      rw [lookup_erase_eq] at hother
      by_cases heq : other = sid
      · rw [if_pos heq] at hother
        contradiction
      · rw [if_neg heq] at hother
        have hdiffers : sessionDbPath config other ≠ sessionDbPath config sid := fun hpath =>
          heq (sessionDbPath_injective config
            (store.table.safe other (mem_iff_lookup.mpr ⟨row, hother⟩)) hsafe hpath)
        rw [lookup_erase_eq, if_neg hdiffers]
        exact h.last_seq other row hother
  · simp only [hrow]
    exact h.setOrder fun other hother => (hclosed other hother).2

/-- Deleting closes a handle at most. -/
theorem deleteSession_order (config : StoreConfig) (store : Store) (sid : String)
    (disk : DeleteOutcome) :
    (SessionStore.deleteSession config store sid disk).store.order = store.order.erase sid := by
  unfold SessionStore.deleteSession
  by_cases hrow : disk.deletesRow = true
  · simp only [hrow, if_true]
    cases disk.unlinked <;> rfl
  · simp only [hrow]
    rfl

/-- Deleting rows with their databases keeps the agreement. -/
theorem Agree.deleteSessions {config : StoreConfig} {outcome : String → DeleteOutcome}
    {sids : List String} (hsids : ∀ sid ∈ sids, isSafeSid sid = true ∧
      ((outcome sid).deletesRow = true → (outcome sid).unlinked = .removed))
    {store : Store} (h : Agree config store) (hnodup : store.order.Nodup) :
    Agree config (deleteSessions config store outcome sids).store ∧
      (deleteSessions config store outcome sids).store.order.Nodup := by
  induction sids generalizing store with
  | nil => exact ⟨h, hnodup⟩
  | cons sid sids ih =>
    obtain ⟨⟨hsafe, hdisk⟩, hrest⟩ := List.forall_mem_cons.mp hsids
    have hagree := h.deleteSession hnodup hsafe hdisk
    have hdistinct : (SessionStore.deleteSession config store sid
        (outcome sid)).store.order.Nodup := by
      rw [deleteSession_order]
      exact hnodup.erase sid
    unfold SessionStore.deleteSessions
    dsimp only
    by_cases hok : (SessionStore.deleteSession config store sid (outcome sid)).ok = true
    · rw [if_pos hok]
      exact ih hrest hagree hdistinct
    · rw [if_neg hok]
      exact ⟨hagree, hdistinct⟩

/-- Having a database at hand keeps handles distinct. -/
theorem nodup_ensureSessionDb {store : Store} (h : store.order.Nodup) (config : StoreConfig)
    (sid : String) (opens : Bool) :
    (ensureSessionDb config store sid opens).store.order.Nodup := by
  unfold ensureSessionDb
  by_cases hopen : sid ∈ store.order
  · rw [if_pos hopen]
    exact nodup_touch h sid
  · rw [if_neg hopen]
    cases opens with
    | false => exact h
    | true => exact nodup_track h config sid

/-- Having a database at hand changes no row. -/
theorem ensureSessionDb_table (config : StoreConfig) (store : Store) (sid : String) (opens : Bool) :
    (ensureSessionDb config store sid opens).store.table = store.table := by
  unfold ensureSessionDb
  by_cases hopen : sid ∈ store.order
  · rw [if_pos hopen]
  · rw [if_neg hopen]
    cases opens <;> rfl

/-- A database at hand is reported as such. -/
theorem ensureSessionDb_ok (config : StoreConfig) (store : Store) (sid : String) (opens : Bool) :
    (ensureSessionDb config store sid opens).ok = true ↔ AtHand store sid opens := by
  unfold ensureSessionDb AtHand
  by_cases hopen : sid ∈ store.order
  · simp [hopen]
  · cases opens <;> simp [hopen]

/-- Storing a record for a session with a row keeps the agreement. -/
theorem Agree.storeRec {config : StoreConfig} {store : Store} (h : Agree config store)
    (hnodup : store.order.Nodup) (codec : Base64Codec) (msg : RecMsg) (binary : Option Octets)
    (now : ℕ) {disk : DiskOutcome}
    (hrow : AtHand store msg.sid disk.opens →
      msg.sid ∈ store.table.rows ∧ (disk.executes = true → disk.updatesRow = true)) :
    Agree config (storeRec codec config store msg binary now disk).store ∧
      (storeRec codec config store msg binary now disk).store.order.Nodup := by
  have hensured := h.ensureSessionDb (fun hat => (hrow hat).1)
  have hdistinct := nodup_ensureSessionDb hnodup config msg.sid disk.opens
  unfold SessionStore.storeRec
  dsimp only
  by_cases hdone : ((SessionStore.ensureSessionDb config store msg.sid disk.opens).ok &&
      disk.executes) = true
  · rw [if_pos hdone]
    rw [Bool.and_eq_true, ensureSessionDb_ok] at hdone
    obtain ⟨hin, hupdates⟩ := hrow hdone.1
    rw [if_pos (hupdates hdone.2)]
    have hin' : msg.sid ∈
        (SessionStore.ensureSessionDb config store msg.sid disk.opens).store.table.rows := by
      rw [ensureSessionDb_table]
      exact hin
    exact ⟨hensured.appended hin' (maxSeq_append ..) now, hdistinct⟩
  · rw [if_neg hdone]
    exact ⟨hensured, hdistinct⟩

/-- The hello of a runner keeps the agreement. -/
theorem Agree.createSession {config : StoreConfig} {store : Store} (h : Agree config store)
    (hnodup : store.order.Nodup) (sid cwd : String) (worktreePath claudeVersion : Option String)
    (now : ℕ) (inserts opens : Bool) :
    Agree config
        (createSession config store sid cwd worktreePath claudeVersion now inserts opens).store ∧
      (createSession config store sid cwd worktreePath claudeVersion now inserts
        opens).store.order.Nodup := by
  unfold SessionStore.createSession
  by_cases hsafe : isSafeSid sid = true
  · rw [dif_pos hsafe]
    cases inserts with
    | false => exact ⟨h, hnodup⟩
    | true =>
      have hput := h.put hsafe cwd worktreePath claudeVersion now
      cases opens with
      | false => exact ⟨hput, hnodup⟩
      | true =>
        exact ⟨hput.openDb ((AList.mem_insert _).mpr (Or.inl rfl)), nodup_track hnodup config sid⟩
  · rw [dif_neg hsafe]
    exact ⟨h, hnodup⟩

/-- Every event that meets the condition keeps the agreement. -/
theorem agree_storeStep (codec : Base64Codec) (config : StoreConfig) (store : Store)
    (event : StoreEvent) (h : Agree config store ∧ store.order.Nodup)
    (hcond : RowFirst store event) :
    Agree config (storeStep codec config store event) ∧
      (storeStep codec config store event).order.Nodup := by
  obtain ⟨hagree, hnodup⟩ := h
  unfold storeStep
  cases event with
  | hello sid cwd worktreePath claudeVersion now inserts opens =>
    exact hagree.createSession hnodup sid cwd worktreePath claudeVersion now inserts opens
  | record msg binary now disk => exact hagree.storeRec hnodup codec msg binary now hcond
  | ended sid state now => exact ⟨hagree.update sid (fun _ => rfl), hnodup⟩
  | delete sid disk =>
    rw [handleEvent]
    by_cases hrow : sid ∈ store.table.rows
    · rw [if_pos hrow, deleteSession_order]
      exact ⟨hagree.deleteSession hnodup (store.table.safe sid hrow) hcond, hnodup.erase sid⟩
    · rw [if_neg hrow]
      exact ⟨hagree, hnodup⟩
  | prune includeRunning cutoff outcome =>
    have hsids : ∀ sid ∈ pruneCandidates store includeRunning cutoff, isSafeSid sid = true ∧
        ((outcome sid).deletesRow = true → (outcome sid).unlinked = .removed) :=
      fun sid hsid => ⟨store.table.safe sid (mem_of_pruneCandidates hsid), hcond sid hsid⟩
    exact Agree.deleteSessions hsids hagree hnodup
  | resume sid cursor disk =>
    exact ⟨hagree.ensureSessionDb hcond, nodup_ensureSessionDb hnodup config sid disk.opens⟩
  | exportSession sid limit disk =>
    rw [handleEvent]
    by_cases hrefused : (∃ l ∈ limit, l ≤ 0) ∨ sid ∉ store.table.rows
    · rw [if_pos hrefused]
      exact ⟨hagree, hnodup⟩
    · have hrow : sid ∈ store.table.rows := by
        by_contra hrow
        exact hrefused (Or.inr hrow)
      rw [if_neg hrefused]
      exact ⟨hagree.ensureSessionDb (fun _ => hrow),
        nodup_ensureSessionDb hnodup config sid disk.opens⟩
  | create sid => exact ⟨hagree, hnodup⟩
  | restart sid => exact ⟨hagree, hnodup⟩
  | reopen => exact ⟨hagree.setOrder (List.forall_mem_nil _), List.nodup_nil⟩

/-- A database that is not at hand leaves the store alone. -/
theorem ensureSessionDb_of_not_atHand {config : StoreConfig} {store : Store} {sid : String}
    {opens : Bool} (h : ¬AtHand store sid opens) :
    ensureSessionDb config store sid opens = ⟨store, false, []⟩ := by
  have hclosed : sid ∉ store.order := fun hmem => h (Or.inl hmem)
  have hopens : ¬opens = true := fun ho => h (Or.inr ho)
  rw [ensureSessionDb, if_neg hclosed, if_neg hopens]

/-- Under the condition, messages for sessions without a row change nothing. -/
theorem storeStep_of_rowless (codec : Base64Codec) (config : StoreConfig) {store : Store}
    {event : StoreEvent} (hcond : RowFirst store event) (h : ForRowless store event) :
    storeStep codec config store event = store := by
  cases event with
  | record msg binary now disk =>
    have hat : ¬AtHand store msg.sid disk.opens := fun hat => h (hcond hat).1
    rw [storeStep, handleEvent, storeRec, ensureSessionDb_of_not_atHand hat]
    rfl
  | resume sid cursor disk =>
    have hat : ¬AtHand store sid disk.opens := fun hat => h (hcond hat)
    rw [storeStep, handleEvent, ensureSessionDb_of_not_atHand hat]
  | _ => exact absurd h not_false

/-- A fresh store agrees. -/
theorem agree_empty (config : StoreConfig) : Agree config Store.empty :=
  ⟨fun path h => absurd h (AList.notMem_empty path), List.forall_mem_nil _,
    fun _ _ h => by cases h⟩

/-- In every run whose records and resume requests come for sessions with a
row, rows and databases agree after every event, and messages for sessions
without a row change nothing. -/
theorem rows_agree_with_databases (codec : Base64Codec) (config : StoreConfig)
    {events : List StoreEvent}
    (h : Meets (storeStep codec config) RowFirst Store.empty events) :
    ∀ before, before <+: events →
      Agree config (runFrom (storeStep codec config) Store.empty before) ∧
        ∀ next, before ++ [next] <+: events →
          ForRowless (runFrom (storeStep codec config) Store.empty before) next →
          storeStep codec config (runFrom (storeStep codec config) Store.empty before) next =
            runFrom (storeStep codec config) Store.empty before := by
  intro before hbefore
  have hstart : Agree config Store.empty ∧ Store.empty.order.Nodup :=
    ⟨agree_empty config, List.nodup_nil⟩
  have hreached := runFrom_induction_of_meets (agree_storeStep codec config) hstart
    (meets_of_isPrefix hbefore h)
  refine ⟨hreached.1, ?_⟩
  intro next hnext hrowless
  have hcond : RowFirst (runFrom (storeStep codec config) Store.empty before) next :=
    (meets_concat.mp (meets_of_isPrefix hnext h)).2
  exact storeStep_of_rowless codec config hcond hrowless

/-- A deletion in which everything works. -/
def deletesAll : DeleteOutcome := ⟨true, .removed, true⟩

/-- A session that reports a record and ends. -/
def shortSession : List StoreEvent :=
  [.hello "s" "/w" none none 1 true true, .record (emptyIo "s") none 2 workingDisk,
    .resume "s" 0 workingDisk, .ended "s" .stopped 3, .reopen, .delete "s" deletesAll]

/-- The row of a short session shows its record, until both are deleted. -/
theorem rows_agree_short_session :
    Agree sampleConfig (runFrom (storeStep emptyPayloadCodec sampleConfig) Store.empty
        (shortSession.take 3)) ∧
      (runFrom (storeStep emptyPayloadCodec sampleConfig) Store.empty
        (shortSession.take 3)).table.rows.lookup "s" =
          some ⟨.running, none, "/w", 1, 2, none, 1⟩ ∧
      Agree sampleConfig
        (runFrom (storeStep emptyPayloadCodec sampleConfig) Store.empty shortSession) := by
  have hagree := rows_agree_with_databases emptyPayloadCodec sampleConfig
    (by decide +kernel : Meets (storeStep emptyPayloadCodec sampleConfig) RowFirst Store.empty
      shortSession)
  exact ⟨(hagree (shortSession.take 3) (List.take_prefix 3 shortSession)).1, by decide +kernel,
    (hagree shortSession List.prefix_rfl).1⟩

/-- A session that is deleted while its runner still reports, and is then
started again under the same sid. -/
def lateRecord : List StoreEvent :=
  [.hello "s" "/w" none none 1 true true, .delete "s" deletesAll,
    .record (emptyIo "s") none 2 workingDisk, .hello "s" "/w" none none 3 true true]

/-- The late record brings the database back, and the new row shows no record
although the database has one. -/
theorem late_record_resurrects :
    ¬Agree sampleConfig
        (runFrom (storeStep emptyPayloadCodec sampleConfig) Store.empty (lateRecord.take 3)) ∧
      ¬Agree sampleConfig
        (runFrom (storeStep emptyPayloadCodec sampleConfig) Store.empty lateRecord) := by
  constructor
  · intro hagree
    have hrow := hagree.handle_has_row "s" (by decide +kernel)
    exact absurd hrow (by decide +kernel)
  · intro hagree
    have hseq := hagree.last_seq "s" ⟨.running, none, "/w", 3, 3, none, 0⟩ (by decide +kernel)
    exact absurd hseq (by decide +kernel)

end Teleprompter.StoreAgreement
