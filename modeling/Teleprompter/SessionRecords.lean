import Mathlib.Data.Rat.Defs
import Teleprompter.FiniteDictionary

/-!
# Session records on the daemon

A runner reports records. The daemon stores each one in the database of its
session, where SQLite numbers the rows, publishes it live, and answers a
resume request with the rows above a cursor. Disk accesses may fail, so each
handler is told which of its accesses succeed. Base64 is the codec of an
external library.
-/

namespace Teleprompter.SessionRecords

open FiniteDictionary

/-- Record payloads. -/
abbrev Octets := List UInt8

/-- Standard base64 with padding. -/
structure Base64Codec where
  /-- Text of a byte string. -/
  encode : Octets → String
  /-- Bytes of a text, if it is well formed. -/
  decode : String → Option Octets

/-- What a record reports. -/
inductive RecordKind where
  | io
  | event
  | metaRecord
  deriving DecidableEq

/-- Wire text of a kind. -/
def recordKindStr : RecordKind → String
  | .io => "io"
  | .event => "event"
  | .metaRecord => "meta"

/-- Who emitted a record. -/
inductive Namespace where
  | claude
  | tp
  | runner
  | daemon
  deriving DecidableEq

/-- Wire text of a namespace. -/
def namespaceStr : Namespace → String
  | .claude => "claude"
  | .tp => "tp"
  | .runner => "runner"
  | .daemon => "daemon"

/-- A stored namespace is sent only when it is one of the known four. -/
def toNamespace : Option String → Option String
  | some "claude" => some "claude"
  | some "tp" => some "tp"
  | some "runner" => some "runner"
  | some "daemon" => some "daemon"
  | _ => none

/-- Conversion of a timestamp to a 64-bit integer: truncated, then saturated. -/
def asI64 (ts : ℚ) : ℤ :=
  max (-9223372036854775808) (min 9223372036854775807 (ts.num.tdiv ts.den))

/-- A row of the records table. -/
structure StoredRecord where
  /-- Row number. -/
  seq : ℕ
  kind : String
  ts : ℤ
  ns : Option String
  name : Option String
  payload : Octets
  deriving DecidableEq

/-- The database of one session. Rows are only ever appended, and their
numbers are assigned by autoincrement. -/
structure SessionDb where
  /-- The records table, oldest first. -/
  rows : List StoredRecord
  /-- Autoincrement counts the rows from one. -/
  numbered : rows.map StoredRecord.seq = List.range' 1 rows.length

/-- A database with an empty records table. -/
def SessionDb.empty : SessionDb := ⟨[], rfl⟩

/-- Insert one row, and return its number. -/
def SessionDb.append (db : SessionDb) (kind : String) (ts : ℤ) (payload : Octets)
    (ns name : Option String) : SessionDb × ℕ :=
  (⟨db.rows ++ [⟨db.rows.length + 1, kind, ts, ns, name, payload⟩], by
      rw [List.map_append, db.numbered, List.length_append, List.length_singleton,
        List.range'_concat, Nat.one_mul, Nat.add_comm 1]
      rfl⟩,
    db.rows.length + 1)

/-- Rows above a number in order, at most so many. -/
def SessionDb.getRecordsFrom (db : SessionDb) (seq limit : ℕ) : List StoredRecord :=
  (db.rows.filter fun row => seq < row.seq).take limit

/-- A record as the runner reports it. -/
structure RecMsg where
  sid : String
  kind : RecordKind
  ts : ℚ
  ns : Option Namespace
  name : Option String
  /-- Base64 text, unless the bytes travel beside the message. -/
  payload : String
  deriving DecidableEq

/-- A record as frontends receive it. -/
structure SessionRec where
  sid : String
  seq : ℕ
  k : String
  ns : Option String
  n : Option String
  /-- Base64 text of the payload. -/
  d : String
  ts : ℚ
  deriving DecidableEq

/-- Session messages from the daemon to a frontend that concern records. -/
inductive SessionFrame where
  | record (rec : SessionRec)
  | batch (sid : String) (recs : List SessionRec)
  | err (e m : String)
  deriving DecidableEq

/-- The store of the daemon: one database file per session, and the last row
number that the table of sessions shows. -/
structure RecordStore where
  /-- Database files by session. -/
  sessionDbs : Dict String SessionDb
  /-- The `last_seq` column of the sessions that have a row. -/
  lastSeq : Dict String ℕ

/-- Which disk accesses of a handler succeed. -/
structure DiskOutcome where
  /-- The database file opens. -/
  opens : Bool
  /-- The statement on the records table succeeds. -/
  executes : Bool
  /-- The statement on the sessions table succeeds. -/
  updatesRow : Bool
  deriving DecidableEq

/-- The database file of a session; opening a missing file creates it. -/
def RecordStore.sessionDb (store : RecordStore) (sid : String) : SessionDb :=
  (store.sessionDbs.lookup sid).getD SessionDb.empty

/-- Put a database in place. -/
def RecordStore.setSessionDb (store : RecordStore) (sid : String) (db : SessionDb) :
    RecordStore :=
  { store with sessionDbs := store.sessionDbs.insert sid db }

/-- Show a new last row number for a session that has a row. -/
def RecordStore.updateLastSeq (store : RecordStore) (sid : String) (seq : ℕ) : RecordStore :=
  { store with lastSeq := alterKey sid (fun _ => seq) store.lastSeq }

/-- A stored row as frontends receive it in a batch. -/
def toSessionRec (codec : Base64Codec) (sid : String) (row : StoredRecord) : SessionRec :=
  { sid
    seq := row.seq
    k := row.kind
    ns := toNamespace row.ns
    n := row.name
    d := codec.encode row.payload
    ts := row.ts }

/-- Bytes to store and text to publish: from the bytes beside the message,
else from its base64 text. Text that does not decode is stored empty. -/
def payloadForms (codec : Base64Codec) (msg : RecMsg) : Option Octets → Octets × String
  | some bytes => (bytes, codec.encode bytes)
  | none => ((codec.decode msg.payload).getD [], msg.payload)

/-- What is published of a record right after it was stored. -/
def liveRec (msg : RecMsg) (seq : ℕ) (wsPayload : String) : SessionRec :=
  { sid := msg.sid
    seq
    k := recordKindStr msg.kind
    ns := msg.ns.map namespaceStr
    n := msg.name
    d := wsPayload
    ts := msg.ts }

/-- Store a record and publish it. Returns the store, the number acknowledged
to the runner, and what is published. -/
def handleRec (codec : Base64Codec) (store : RecordStore) (msg : RecMsg)
    (binary : Option Octets) (disk : DiskOutcome) : RecordStore × Option ℕ × Option SessionFrame :=
  let forms := payloadForms codec msg binary
  if disk.opens then
    let db := store.sessionDb msg.sid
    if disk.executes then
      let appended := db.append (recordKindStr msg.kind) (asI64 msg.ts) forms.1
        (msg.ns.map namespaceStr) msg.name
      let stored := store.setSessionDb msg.sid appended.1
      let seq := appended.2
      (if disk.updatesRow then stored.updateLastSeq msg.sid seq else stored,
        some seq, some (.record (liveRec msg seq forms.2)))
    else (store.setSessionDb msg.sid db, none, none)
  else (store, none, none)

/-- Rows of one answer to a resume request. -/
def resumeLimit : ℕ := 1000

/-- Answer a resume request with the rows above its cursor. A query that
fails counts as empty; a file that does not open is an error. -/
def handleRelayResume (codec : Base64Codec) (store : RecordStore) (sid : String) (cursor : ℕ)
    (disk : DiskOutcome) : RecordStore × SessionFrame :=
  if disk.opens then
    let db := store.sessionDb sid
    let records := if disk.executes then db.getRecordsFrom cursor resumeLimit else []
    (store.setSessionDb sid db, .batch sid (records.map (toSessionRec codec sid)))
  else (store, .err "NOT_FOUND" ("Session " ++ sid ++ " not found"))

/-- A received record shows a stored row. -/
def Renders (rec : SessionRec) (row : StoredRecord) : Prop :=
  rec.seq = row.seq ∧ rec.k = row.kind ∧ rec.ns = toNamespace row.ns ∧ rec.n = row.name

/-- A received record shows a row of its session. -/
def RecordStore.Holds (store : RecordStore) (rec : SessionRec) : Prop :=
  ∃ row ∈ (store.sessionDb rec.sid).rows, Renders rec row

/-- One store has the rows of another, and maybe newer ones. -/
def RecordStore.Extends (later earlier : RecordStore) : Prop :=
  ∀ sid, (earlier.sessionDb sid).rows <+: (later.sessionDb sid).rows

/-- Every store extends itself. -/
theorem RecordStore.extends_refl (store : RecordStore) : store.Extends store :=
  fun _ => List.prefix_rfl

/-- A record once held stays held. -/
theorem RecordStore.Holds.extends {earlier later : RecordStore} {rec : SessionRec}
    (h : earlier.Holds rec) (he : later.Extends earlier) : later.Holds rec := by
  obtain ⟨row, hrow, hr⟩ := h
  have hlater : row ∈ (later.sessionDb rec.sid).rows := (he rec.sid).subset hrow
  exact ⟨row, hlater, hr⟩

/-- Known namespaces survive the database. -/
theorem toNamespace_namespaceStr (ns : Option Namespace) :
    toNamespace (ns.map namespaceStr) = ns.map namespaceStr := by
  cases ns with
  | none => rfl
  | some ns => cases ns <;> rfl

/-- The database of a session after one was put in place. -/
theorem RecordStore.sessionDb_setSessionDb (store : RecordStore) (sid other : String)
    (db : SessionDb) :
    (store.setSessionDb sid db).sessionDb other =
      if other = sid then db else store.sessionDb other := by
  unfold RecordStore.setSessionDb RecordStore.sessionDb
  simp only [lookup_insert_eq]
  by_cases h : other = sid
  · rw [if_pos h, if_pos h, Option.getD_some]
  · rw [if_neg h, if_neg h]

/-- Opening a database changes no rows. -/
theorem RecordStore.extends_open (store : RecordStore) (sid : String) :
    (store.setSessionDb sid (store.sessionDb sid)).Extends store := by
  intro other
  refine ⟨[], ?_⟩
  rw [List.append_nil, store.sessionDb_setSessionDb]
  by_cases h : other = sid
  · rw [if_pos h, h]
  · rw [if_neg h]

/-- Appending keeps the rows. -/
theorem RecordStore.extends_append (store : RecordStore) (sid kind : String) (ts : ℤ)
    (payload : Octets) (ns name : Option String) :
    (store.setSessionDb sid
      ((store.sessionDb sid).append kind ts payload ns name).1).Extends store := by
  intro other
  have hdb := store.sessionDb_setSessionDb sid other
    ((store.sessionDb sid).append kind ts payload ns name).1
  by_cases h : other = sid
  · rw [if_pos h] at hdb
    rw [hdb, h]
    exact List.prefix_append _ _
  · refine ⟨[], ?_⟩
    rw [hdb, if_neg h, List.append_nil]

/-- Handling a record loses no row. -/
theorem handleRec_extends (codec : Base64Codec) (store : RecordStore) (msg : RecMsg)
    (binary : Option Octets) (disk : DiskOutcome) :
    (handleRec codec store msg binary disk).1.Extends store := by
  unfold handleRec
  by_cases ho : disk.opens = true
  · by_cases hx : disk.executes = true
    · have happend := store.extends_append msg.sid (recordKindStr msg.kind) (asI64 msg.ts)
        (payloadForms codec msg binary).1 (msg.ns.map namespaceStr) msg.name
      simp only [ho, hx, if_true]
      by_cases hu : disk.updatesRow = true
      · simp only [hu, if_true]
        exact happend
      · simp only [hu]
        exact happend
    · simp only [ho, hx, if_true]
      exact store.extends_open msg.sid
  · simp only [ho]
    exact store.extends_refl

/-- Only a live record is published. Its row is stored by then, and is the
next one of its session. -/
theorem handleRec_frame {codec : Base64Codec} {store : RecordStore} {msg : RecMsg}
    {binary : Option Octets} {disk : DiskOutcome} {frame : SessionFrame}
    (h : (handleRec codec store msg binary disk).2.2 = some frame) :
    ∃ rec, frame = .record rec ∧ (handleRec codec store msg binary disk).1.Holds rec ∧
      rec.seq = (store.sessionDb rec.sid).rows.length + 1 := by
  unfold handleRec at h ⊢
  by_cases ho : disk.opens = true
  · by_cases hx : disk.executes = true
    · simp only [ho, hx, if_true, Option.some.injEq] at h ⊢
      refine ⟨_, h.symm, ⟨⟨(store.sessionDb msg.sid).rows.length + 1, recordKindStr msg.kind,
        asI64 msg.ts, msg.ns.map namespaceStr, msg.name, (payloadForms codec msg binary).1⟩,
        ?_, rfl, rfl, (toNamespace_namespaceStr msg.ns).symm, rfl⟩, rfl⟩
      have hmem : ∀ stored : RecordStore, stored.sessionDbs = (store.setSessionDb msg.sid
          ((store.sessionDb msg.sid).append (recordKindStr msg.kind) (asI64 msg.ts)
            (payloadForms codec msg binary).1 (msg.ns.map namespaceStr) msg.name).1).sessionDbs →
          stored.sessionDb msg.sid = ((store.sessionDb msg.sid).append (recordKindStr msg.kind)
            (asI64 msg.ts) (payloadForms codec msg binary).1 (msg.ns.map namespaceStr)
            msg.name).1 := by
        intro stored hs
        rw [RecordStore.sessionDb, hs]
        exact (store.sessionDb_setSessionDb msg.sid msg.sid _).trans (if_pos rfl)
      have hrow : ∀ seq, (liveRec msg seq (payloadForms codec msg binary).2).sid = msg.sid :=
        fun _ => rfl
      rw [hrow, hmem]
      · exact List.mem_append_right _ (List.mem_singleton.mpr rfl)
      · by_cases hu : disk.updatesRow = true
        · rw [if_pos hu]
          rfl
        · rw [if_neg hu]
    · simp [ho, hx] at h
  · simp [ho] at h

/-- A held record is among the numbered rows. -/
theorem RecordStore.Holds.seq_le {store : RecordStore} {rec : SessionRec} (h : store.Holds rec) :
    rec.seq ≤ (store.sessionDb rec.sid).rows.length := by
  obtain ⟨row, hrow, hr⟩ := h
  have hmem : row.seq ∈ (store.sessionDb rec.sid).rows.map StoredRecord.seq :=
    List.mem_map_of_mem hrow
  rw [(store.sessionDb rec.sid).numbered, List.mem_range'_1] at hmem
  have hseq := hr.1
  omega

/-- In a list that is numbered consecutively, the elements above a bound are those
behind a place. -/
theorem filter_lt_eq_drop {α : Type} {f : α → ℕ} {elements : List α} {start : ℕ}
    (h : elements.map f = List.range' start elements.length) (bound : ℕ) :
    (elements.filter fun x => bound < f x) = elements.drop (bound + 1 - start) := by
  induction elements generalizing start with
  | nil => rw [List.filter_nil, List.drop_nil]
  | cons x elements ih =>
    rw [List.map_cons, List.length_cons, List.range'_succ, List.cons.injEq] at h
    have hrest := ih h.2
    by_cases hbound : bound < start
    · have hnone : bound + 1 - start = 0 := by omega
      have hnone' : bound + 1 - (start + 1) = 0 := by omega
      rw [List.filter_cons_of_pos (by rw [h.1]; exact decide_eq_true hbound), hrest, hnone, hnone',
        List.drop_zero, List.drop_zero]
    · have hmore : bound + 1 - start = bound + 1 - (start + 1) + 1 := by omega
      rw [List.filter_cons_of_neg (by rw [h.1]; simpa using hbound), hrest, hmore,
        List.drop_succ_cons]

theorem take_range'_eq (start len count : ℕ) :
    (List.range' start len).take count = List.range' start (min count len) := by
  by_cases hall : len ≤ count
  · rw [List.take_range'_of_length_le hall, Nat.min_eq_right hall]
  · have hcut : count ≤ len := by omega
    rw [List.take_range'_of_length_ge hcut, Nat.min_eq_left hcut]

/-- The rows above a cursor are those behind it. -/
theorem SessionDb.getRecordsFrom_eq (db : SessionDb) (cursor limit : ℕ) :
    db.getRecordsFrom cursor limit = (db.rows.drop cursor).take limit := by
  rw [SessionDb.getRecordsFrom, filter_lt_eq_drop db.numbered, Nat.add_sub_cancel]

/-- The numbers of the rows above a cursor. -/
theorem SessionDb.getRecordsFrom_seqs_eq (db : SessionDb) (cursor limit : ℕ) :
    (db.getRecordsFrom cursor limit).map StoredRecord.seq =
      List.range' (cursor + 1) (min limit (db.rows.length - cursor)) := by
  rw [db.getRecordsFrom_eq, List.map_take, List.map_drop, db.numbered, List.drop_range',
    Nat.mul_one, Nat.add_comm 1, take_range'_eq]

/-- The rows above a cursor follow it without a hole. -/
theorem SessionDb.getRecordsFrom_seqs (db : SessionDb) (cursor limit : ℕ) :
    ∃ len, (db.getRecordsFrom cursor limit).map StoredRecord.seq =
      List.range' (cursor + 1) len :=
  ⟨_, db.getRecordsFrom_seqs_eq cursor limit⟩

/-- Answering a resume request loses no row. -/
theorem handleRelayResume_extends (codec : Base64Codec) (store : RecordStore) (sid : String)
    (cursor : ℕ) (disk : DiskOutcome) :
    (handleRelayResume codec store sid cursor disk).1.Extends store := by
  unfold handleRelayResume
  by_cases ho : disk.opens = true
  · simp only [ho, if_true]
    exact store.extends_open sid
  · simp only [ho]
    exact store.extends_refl

/-- Records of one session whose numbers follow a cursor without a hole. -/
def Follows (sid : String) (cursor : ℕ) (recs : List SessionRec) : Prop :=
  (∀ rec ∈ recs, rec.sid = sid) ∧ ∃ len, recs.map SessionRec.seq = List.range' (cursor + 1) len

/-- A resume request is answered with stored rows that follow its cursor
without a hole, or with an error. -/
theorem handleRelayResume_frame (codec : Base64Codec) (store : RecordStore) (sid : String)
    (cursor : ℕ) (disk : DiskOutcome) :
    (∃ recs, (handleRelayResume codec store sid cursor disk).2 = .batch sid recs ∧
      Follows sid cursor recs ∧
      ∀ rec ∈ recs, (handleRelayResume codec store sid cursor disk).1.Holds rec) ∨
    ∃ e m, (handleRelayResume codec store sid cursor disk).2 = .err e m := by
  unfold handleRelayResume
  by_cases ho : disk.opens = true
  · left
    simp only [ho, if_true]
    refine ⟨_, rfl, ⟨?_, ?_⟩, ?_⟩
    · intro rec hrec
      obtain ⟨row, -, rfl⟩ := List.mem_map.mp hrec
      rfl
    · by_cases hx : disk.executes = true
      · obtain ⟨len, hlen⟩ := (store.sessionDb sid).getRecordsFrom_seqs cursor resumeLimit
        refine ⟨len, ?_⟩
        rw [if_pos hx, List.map_map, ← hlen]
        rfl
      · refine ⟨0, ?_⟩
        rw [if_neg hx]
        rfl
    · intro rec hrec
      obtain ⟨row, hrow, rfl⟩ := List.mem_map.mp hrec
      refine ⟨row, ?_, rfl, rfl, rfl, rfl⟩
      have hsame : (store.setSessionDb sid (store.sessionDb sid)).sessionDb sid =
          store.sessionDb sid := by
        rw [store.sessionDb_setSessionDb, if_pos rfl]
      have hsid : (toSessionRec codec sid row).sid = sid := rfl
      rw [hsid, hsame]
      by_cases hx : disk.executes = true
      · rw [if_pos hx] at hrow
        exact List.mem_of_mem_filter (List.mem_of_mem_take hrow)
      · rw [if_neg hx] at hrow
        exact absurd hrow List.not_mem_nil
  · right
    simp only [ho]
    exact ⟨_, _, rfl⟩

/-- Base64 on the empty payload. -/
def emptyPayloadCodec : Base64Codec := ⟨fun _ => "", fun _ => some []⟩

/-- A disk on which everything works. -/
def workingDisk : DiskOutcome := ⟨true, true, true⟩

/-- An empty terminal record of a session. -/
def emptyIo (sid : String) : RecMsg := ⟨sid, .io, 0, none, none, ""⟩

end Teleprompter.SessionRecords
