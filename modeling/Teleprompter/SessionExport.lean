import Teleprompter.SessionStore
import Mathlib.Data.List.TakeDrop

/-!
# Exporting a session

An export reads the records of a session that match the asked kinds and time
range, in order and up to a limit. The handler asks the database for one row
more than its limit to see whether something is missing, and the database
cuts every request at the same cap. The two meet at the cap, where the extra
row is never fetched.
-/

namespace Teleprompter.SessionExport

open FiniteDictionary SessionRecords SessionStore

/-- Largest number of rows that one query returns. -/
def recordCap : ℤ := 50000

/-- What a filtered query asks for. -/
structure RecordsFilter where
  /-- Kinds of records; none or an empty list stands for all. -/
  kinds : Option (List String)
  /-- Earliest timestamp. -/
  fromTs : Option ℤ
  /-- Latest timestamp. -/
  toTs : Option ℤ
  /-- Number of rows. -/
  limit : Option ℤ
  deriving DecidableEq

/-- The conditions of the query on a row. -/
def RecordsFilter.selects (opts : RecordsFilter) (row : StoredRecord) : Bool :=
  (match opts.kinds with
    | some kinds => kinds.isEmpty || kinds.contains row.kind
    | none => true) &&
  (match opts.fromTs with
    | some first => decide (first ≤ row.ts)
    | none => true) &&
  (match opts.toTs with
    | some last => decide (row.ts ≤ last)
    | none => true)

/-- The limit clause: a negative number stands for no limit. -/
def limitRows (limit : ℤ) (rows : List StoredRecord) : List StoredRecord :=
  if limit < 0 then rows else rows.take limit.toNat

/-- The filtered query in row order, unless the statement fails. -/
def getRecordsFiltered (db : SessionDb) (opts : RecordsFilter) (executes : Bool) :
    Option (List StoredRecord) :=
  if executes then
    some (limitRows (min (opts.limit.getD recordCap) recordCap) (db.rows.filter opts.selects))
  else none

/-- A request for an export, with the values that its fields read as. -/
structure ExportMsg where
  /-- Session to export. -/
  sid : Option String
  /-- Name of the format. -/
  format : Option String
  /-- Elements of the list of kinds, those that are texts. -/
  recordTypes : Option (List (Option String))
  /-- Begin of the time range. -/
  fromTs : Option ℤ
  /-- End of the time range. -/
  toTs : Option ℤ
  /-- Largest number of records. -/
  limit : Option ℤ
  deriving DecidableEq

/-- Form of the exported text. -/
inductive ExportFormat where
  | json
  | markdown
  deriving DecidableEq

/-- Answer to a request. -/
inductive ExportReply where
  /-- The request is refused. -/
  | error (code message : String)
  /-- Records and completeness flag that the text is rendered from. -/
  | exported (format : ExportFormat) (session : SessionMeta) (records : List StoredRecord)
    (truncated : Bool)
  deriving DecidableEq

/-- The session that a request names. -/
def ExportMsg.session (msg : ExportMsg) : String := msg.sid.getD ""

/-- The filter of a request, with a limit. -/
def ExportMsg.filter (msg : ExportMsg) (limit : ℤ) : RecordsFilter :=
  { kinds := msg.recordTypes.map fun types => types.filterMap id
    fromTs := msg.fromTs
    toTs := msg.toTs
    limit := some limit }

/-- The handler's own limit. -/
def ExportMsg.effectiveLimit (msg : ExportMsg) : ℤ := min (msg.limit.getD recordCap) recordCap

/-- What the handler answers after the query. -/
def exportReply (msg : ExportMsg) (session : SessionMeta) (fetched : List StoredRecord) :
    ExportReply :=
  let truncated := decide (msg.effectiveLimit < fetched.length)
  .exported (if msg.format = some "json" then .json else .markdown) session
    (if truncated then fetched.take msg.effectiveLimit.toNat else fetched) truncated

/-- The handler of an export request. A failed query counts as no rows. -/
def handleRelaySessionExport (config : StoreConfig) (store : Store) (readsRow : Bool)
    (disk : DiskOutcome) (msg : ExportMsg) : ExportReply :=
  match msg.limit.filter fun l => l ≤ 0 with
  | some l => .error "BAD_REQUEST" s!"limit must be a positive integer, got {l}"
  | none =>
    match (store.table.rows.lookup msg.session).filter fun _ => readsRow with
    | none => .error "NOT_FOUND" ("Session " ++ msg.session ++ " not found")
    | some session =>
      let ensured := ensureSessionDb config store msg.session disk.opens
      if ensured.ok then
        let db := ensured.store.dbAt (sessionDbPath config msg.session)
        exportReply msg session
          ((getRecordsFiltered db (msg.filter (msg.effectiveLimit + 1)) disk.executes).getD [])
      else .error "NOT_FOUND" ("Session DB for " ++ msg.session ++ " not found")

section Completeness

/-- The stored records that match a request, in row order. -/
def matchingRecords (config : StoreConfig) (store : Store) (msg : ExportMsg) :
    List StoredRecord :=
  (store.dbAt (sessionDbPath config msg.session)).rows.filter (msg.filter 0).selects

/-- The records are the first matching ones up to the limit, in the order of
their numbers, and the flag says whether more match. -/
structure Complete (msg : ExportMsg) (matching records : List StoredRecord)
    (truncated : Bool) : Prop where
  /-- The first matching records. -/
  records_eq : records = matching.take (min (msg.limit.getD recordCap) recordCap).toNat
  /-- They are in order. -/
  ordered : records.Pairwise fun r r' => r.seq < r'.seq
  /-- The flag tells whether some are missing. -/
  truncated_iff : truncated = true ↔ records.length < matching.length

/-- Matching records are in the order of their numbers. -/
theorem matchingRecords_ordered (config : StoreConfig) (store : Store) (msg : ExportMsg) :
    (matchingRecords config store msg).Pairwise fun r r' => r.seq < r'.seq := by
  have hrows : (store.dbAt (sessionDbPath config msg.session)).rows.Pairwise
      fun r r' => r.seq < r'.seq := by
    have hnumbers : ((store.dbAt (sessionDbPath config msg.session)).rows.map
        StoredRecord.seq).Pairwise (· < ·) := by
      rw [(store.dbAt (sessionDbPath config msg.session)).numbered]
      exact List.pairwise_lt_range'
    exact List.pairwise_map.mp hnumbers
  exact hrows.filter _

/-- Opening a database does not change what it holds. -/
theorem ensureSessionDb_dbAt (config : StoreConfig) (store : Store) (sid : String) (opens : Bool) :
    (ensureSessionDb config store sid opens).store.dbAt (sessionDbPath config sid) =
      store.dbAt (sessionDbPath config sid) := by
  rw [ensureSessionDb]
  split
  · rfl
  · split
    · rw [Store.openDb, Store.dbAt, Store.dbAt, lookup_orInsert, if_pos rfl, Option.getD_some]
    · rfl

/-- An answered export comes from the rows that the query returned, and its
limit is positive. -/
theorem of_exported {config : StoreConfig} {store : Store} {readsRow : Bool} {disk : DiskOutcome}
    {msg : ExportMsg} {format : ExportFormat} {session : SessionMeta}
    {records : List StoredRecord} {truncated : Bool}
    (h : handleRelaySessionExport config store readsRow disk msg =
      .exported format session records truncated) :
    1 ≤ msg.effectiveLimit ∧
      exportReply msg session ((getRecordsFiltered (store.dbAt (sessionDbPath config msg.session))
        (msg.filter (msg.effectiveLimit + 1)) disk.executes).getD []) =
          .exported format session records truncated := by
  rw [handleRelaySessionExport] at h
  split at h
  · cases h
  · rename_i hlimit
    split at h
    · cases h
    · rename_i row hrow
      dsimp only at h
      split at h
      · rw [ensureSessionDb_dbAt] at h
        have hsession : row = session := by
          rw [exportReply] at h
          cases h
          rfl
        rw [hsession] at h
        refine ⟨?_, h⟩
        have hpositive : ∀ l ∈ msg.limit, 1 ≤ l := by
          intro l hl
          have hnone := (Option.filter_eq_none_iff.mp hlimit) l hl
          have hlt : ¬l ≤ 0 := fun hle => hnone (decide_eq_true hle)
          omega
        rw [ExportMsg.effectiveLimit, recordCap]
        cases hmsg : msg.limit with
        | none => decide
        | some l =>
          have hl := hpositive l hmsg
          rw [Option.getD_some]
          omega
      · cases h

/-- A positive or absent limit, a readable row and an open database are
enough for an export. -/
theorem exported_of_session {config : StoreConfig} {store : Store} {disk : DiskOutcome}
    {msg : ExportMsg} {session : SessionMeta} (hlimit : ∀ l ∈ msg.limit, 0 < l)
    (hrow : store.table.rows.lookup msg.session = some session) (hopen : msg.session ∈ store.order) :
    ∃ format records truncated, handleRelaySessionExport config store true disk msg =
      .exported format session records truncated := by
  have hnone : msg.limit.filter (fun l => l ≤ 0) = none := by
    rw [Option.filter_eq_none_iff]
    intro l hl hle
    exact absurd (of_decide_eq_true hle) (Int.not_le.mpr (hlimit l hl))
  have hensured : (ensureSessionDb config store msg.session disk.opens).ok = true := by
    rw [ensureSessionDb, if_pos hopen]
  rw [handleRelaySessionExport, hnone, hrow]
  dsimp only [Option.filter]
  rw [if_pos rfl]
  dsimp only
  rw [if_pos hensured, exportReply]
  exact ⟨_, _, _, rfl⟩

/-- The rows that the query returns for a request. -/
theorem getRecordsFiltered_eq (config : StoreConfig) (store : Store) (msg : ExportMsg)
    (executes : Bool) (hlimit : 1 ≤ msg.effectiveLimit) :
    (getRecordsFiltered (store.dbAt (sessionDbPath config msg.session))
      (msg.filter (msg.effectiveLimit + 1)) executes).getD [] =
        if executes then (matchingRecords config store msg).take
          (min (msg.effectiveLimit + 1) recordCap).toNat else [] := by
  rw [getRecordsFiltered]
  split
  · have hnonneg : ¬min (msg.effectiveLimit + 1) recordCap < 0 := by
      rw [recordCap]
      omega
    have hlimitEq : (msg.filter (msg.effectiveLimit + 1)).limit.getD recordCap =
        msg.effectiveLimit + 1 := rfl
    rw [Option.getD_some, hlimitEq, limitRows, if_neg hnonneg]
    rfl
  · rfl

/-- The handler's limit is below the cap exactly when a smaller one was
asked for. -/
theorem effectiveLimit_lt_iff (msg : ExportMsg) :
    msg.effectiveLimit < recordCap ↔ ∃ l ∈ msg.limit, l < recordCap := by
  rw [ExportMsg.effectiveLimit]
  cases msg.limit with
  | none =>
    refine iff_of_false ?_ (fun ⟨l, hl, _⟩ => absurd hl (Option.not_mem_none l))
    rw [Option.getD_none]
    omega
  | some l =>
    rw [Option.getD_some]
    constructor
    · intro hlt
      exact ⟨l, rfl, by omega⟩
    · rintro ⟨l, ⟨⟩, hlt⟩
      omega

/-- Below the cap the extra row tells whether more match. -/
theorem complete_below_cap {msg : ExportMsg} {matching : List StoredRecord}
    (hordered : matching.Pairwise fun r r' => r.seq < r'.seq) (hlimit : 1 ≤ msg.effectiveLimit)
    (hcap : msg.effectiveLimit < recordCap) :
    let fetched := matching.take (min (msg.effectiveLimit + 1) recordCap).toNat
    let truncated := decide (msg.effectiveLimit < fetched.length)
    Complete msg matching
      (if truncated then fetched.take msg.effectiveLimit.toNat else fetched) truncated := by
  intro fetched truncated
  have hfetch : (min (msg.effectiveLimit + 1) recordCap).toNat = msg.effectiveLimit.toNat + 1 := by
    omega
  have hlength : fetched.length = min (msg.effectiveLimit.toNat + 1) matching.length := by
    rw [List.length_take, hfetch]
  by_cases hmore : msg.effectiveLimit < fetched.length
  · have hflag : truncated = true := decide_eq_true hmore
    have hrecords : fetched.take msg.effectiveLimit.toNat =
        matching.take msg.effectiveLimit.toNat := by
      rw [List.take_take, hfetch, Nat.min_eq_left (Nat.le_succ _)]
    rw [if_pos hflag, hflag, hrecords]
    refine ⟨rfl, hordered.sublist (List.take_sublist _ _), iff_of_true rfl ?_⟩
    rw [List.length_take]
    omega
  · have hflag : truncated = false := decide_eq_false hmore
    have hall : fetched = matching := List.take_of_length_le (by omega)
    have hshort : matching.length ≤ msg.effectiveLimit.toNat := by
      rw [hall] at hmore
      omega
    rw [hflag, if_neg Bool.false_ne_true, hall]
    refine ⟨(List.take_of_length_le hshort).symm, hordered, iff_of_false Bool.false_ne_true ?_⟩
    exact Nat.lt_irrefl _

/-- At the cap the flag is never set, so the answer is complete exactly when
the cap is not exceeded. -/
theorem complete_at_cap_iff {msg : ExportMsg} {matching : List StoredRecord}
    (hordered : matching.Pairwise fun r r' => r.seq < r'.seq)
    (hcap : msg.effectiveLimit = recordCap) :
    let fetched := matching.take (min (msg.effectiveLimit + 1) recordCap).toNat
    let truncated := decide (msg.effectiveLimit < fetched.length)
    Complete msg matching
      (if truncated then fetched.take msg.effectiveLimit.toNat else fetched) truncated ↔
        matching.length ≤ recordCap := by
  intro fetched truncated
  have hfetch : (min (msg.effectiveLimit + 1) recordCap).toNat = recordCap.toNat := by
    rw [hcap]
    omega
  have hlength : fetched.length = min recordCap.toNat matching.length := by
    rw [List.length_take, hfetch]
  have hcapNat : (recordCap.toNat : ℤ) = recordCap := rfl
  have hflag : truncated = false := by
    refine decide_eq_false ?_
    rw [hcap]
    omega
  rw [hflag, if_neg Bool.false_ne_true]
  constructor
  · intro hcomplete
    have hnot : ¬fetched.length < matching.length :=
      fun hlt => Bool.false_ne_true (hcomplete.truncated_iff.mpr hlt)
    omega
  · intro hle
    refine ⟨?_, hordered.sublist (List.take_sublist _ _), iff_of_false Bool.false_ne_true ?_⟩
    · have hlimit : min (msg.limit.getD recordCap) recordCap = recordCap := hcap
      rw [hlimit, ← hfetch]
    · omega

/-- With the rows that a working query returns, an export is complete exactly
when its limit is below the cap or the cap is not exceeded. -/
theorem complete_of_fetched_iff {msg : ExportMsg} {matching records : List StoredRecord}
    {format : ExportFormat} {session : SessionMeta} {truncated : Bool}
    (hordered : matching.Pairwise fun r r' => r.seq < r'.seq) (hlimit : 1 ≤ msg.effectiveLimit)
    (hreply : exportReply msg session
      (matching.take (min (msg.effectiveLimit + 1) recordCap).toNat) =
        .exported format session records truncated) :
    Complete msg matching records truncated ↔
      msg.effectiveLimit < recordCap ∨ matching.length ≤ recordCap := by
  have hle : msg.effectiveLimit ≤ recordCap := by
    rw [ExportMsg.effectiveLimit]
    omega
  rw [exportReply] at hreply
  cases hreply
  rcases Int.lt_or_eq_of_le hle with hlt | heq
  · exact iff_of_true (complete_below_cap hordered hlimit hlt) (.inl hlt)
  · have hnot : ¬msg.effectiveLimit < recordCap := by omega
    rw [or_iff_right hnot]
    exact complete_at_cap_iff hordered heq

/-- The flag and the records of an answered export are complete exactly when
the query worked or nothing matches, and no more than the cap match unless
the limit is below the cap. -/
theorem export_complete_iff {config : StoreConfig} {store : Store} {readsRow : Bool}
    {disk : DiskOutcome} {msg : ExportMsg} {format : ExportFormat} {session : SessionMeta}
    {records : List StoredRecord} {truncated : Bool}
    (h : handleRelaySessionExport config store readsRow disk msg =
      .exported format session records truncated) :
    Complete msg (matchingRecords config store msg) records truncated ↔
      (disk.executes = true ∨ matchingRecords config store msg = []) ∧
        ((∃ l ∈ msg.limit, l < recordCap) ∨
          (matchingRecords config store msg).length ≤ recordCap) := by
  obtain ⟨hlimit, hreply⟩ := of_exported h
  have hordered := matchingRecords_ordered config store msg
  rw [getRecordsFiltered_eq config store msg disk.executes hlimit] at hreply
  rw [← effectiveLimit_lt_iff]
  generalize matchingRecords config store msg = matching at hreply hordered ⊢
  cases hexecutes : disk.executes with
  | false =>
    rw [hexecutes, if_neg Bool.false_ne_true, exportReply] at hreply
    have hflag : decide (msg.effectiveLimit < ([] : List StoredRecord).length) = false :=
      decide_eq_false (by rw [List.length_nil]; omega)
    rw [hflag, if_neg Bool.false_ne_true] at hreply
    cases hreply
    constructor
    · intro hcomplete
      have hnot : ¬0 < matching.length :=
        fun hlt => Bool.false_ne_true (hcomplete.truncated_iff.mpr hlt)
      have hnil : matching = [] := List.length_eq_zero_iff.mp (by omega)
      refine ⟨.inr hnil, .inr ?_⟩
      rw [hnil]
      decide
    · rintro ⟨hnone, -⟩
      have hnil := hnone.resolve_left Bool.false_ne_true
      rw [hnil]
      exact ⟨List.take_nil.symm, List.Pairwise.nil, iff_of_false Bool.false_ne_true (Nat.lt_irrefl _)⟩
  | true =>
    rw [hexecutes, if_pos rfl] at hreply
    rw [and_iff_right (.inl rfl)]
    exact complete_of_fetched_iff hordered hlimit hreply

end Completeness

section Samples

/-- A store directory for the samples. -/
def sampleConfig : StoreConfig := ⟨["tp".toList], 0⟩

/-- Row of the sample session. -/
def sampleRow : SessionMeta := ⟨.stopped, none, "/work", 0, 0, none, 0⟩

/-- A database with so many terminal records. -/
def plainDb (n : ℕ) : SessionDb where
  rows := (List.range' 1 n).map fun seq => ⟨seq, "io", 0, none, none, []⟩
  numbered := by
    rw [List.map_map, List.length_map, List.length_range']
    exact List.map_id' _

/-- A store with one session, whose database is open. -/
def oneSession (db : SessionDb) : Store where
  table := SessionTable.empty.put "s" (by decide +kernel) sampleRow
  files := AList.insert (sessionDbPath sampleConfig "s") db ∅
  order := ["s"]

/-- A request for everything. -/
def wholeExport (limit : Option ℤ) : ExportMsg := ⟨some "s", some "json", none, none, none, limit⟩

/-- All rows of the sample session match a request for everything. -/
theorem matchingRecords_oneSession (db : SessionDb) (limit : Option ℤ) :
    matchingRecords sampleConfig (oneSession db) (wholeExport limit) = db.rows := by
  have hfile : (oneSession db).files.lookup (sessionDbPath sampleConfig "s") = some db :=
    AList.lookup_insert _
  have hdb : (oneSession db).dbAt (sessionDbPath sampleConfig "s") = db := by
    rw [Store.dbAt, hfile, Option.getD_some]
  have hsession : (wholeExport limit).session = "s" := rfl
  rw [matchingRecords, hsession, hdb]
  exact List.filter_eq_self.mpr fun _ _ => rfl

/-- A request for everything in the sample session is answered. -/
theorem exported_oneSession (db : SessionDb) {limit : Option ℤ} (hlimit : ∀ l ∈ limit, 0 < l) :
    ∃ format records truncated, handleRelaySessionExport sampleConfig (oneSession db) true
      ⟨true, true, true⟩ (wholeExport limit) = .exported format sampleRow records truncated :=
  exported_of_session hlimit (AList.lookup_insert _) List.mem_cons_self

/-- Three records and a limit of two: the first two come back, flagged as
incomplete. -/
theorem export_complete_short_session : ∃ format records truncated,
    handleRelaySessionExport sampleConfig (oneSession (plainDb 3)) true ⟨true, true, true⟩
      (wholeExport (some 2)) = .exported format sampleRow records truncated ∧
    Complete (wholeExport (some 2)) (plainDb 3).rows records truncated := by
  have hlimit : ∀ l ∈ some (2 : ℤ), 0 < l := by decide
  obtain ⟨format, records, truncated, hreply⟩ := exported_oneSession (plainDb 3) hlimit
  refine ⟨format, records, truncated, hreply, ?_⟩
  have hiff := export_complete_iff hreply
  rw [matchingRecords_oneSession] at hiff
  exact hiff.mpr ⟨.inl rfl, .inl ⟨2, rfl, by decide⟩⟩

/-- One record above the cap and no limit: the export is not complete and
does not say so. -/
theorem export_above_cap_incomplete : ∃ format records truncated,
    handleRelaySessionExport sampleConfig (oneSession (plainDb 50001)) true ⟨true, true, true⟩
      (wholeExport none) = .exported format sampleRow records truncated ∧
    ¬Complete (wholeExport none)
      (matchingRecords sampleConfig (oneSession (plainDb 50001)) (wholeExport none))
      records truncated := by
  have hlimit : ∀ l ∈ (none : Option ℤ), 0 < l := by decide
  obtain ⟨format, records, truncated, hreply⟩ := exported_oneSession (plainDb 50001) hlimit
  refine ⟨format, records, truncated, hreply, ?_⟩
  have hcount : (plainDb 50001).rows.length = 50001 := by
    rw [plainDb, List.length_map, List.length_range']
  obtain ⟨hpositive, hfetched⟩ := of_exported hreply
  have hordered := matchingRecords_ordered sampleConfig (oneSession (plainDb 50001))
    (wholeExport none)
  rw [getRecordsFiltered_eq _ _ _ _ hpositive, if_pos rfl] at hfetched
  rw [complete_of_fetched_iff hordered hpositive hfetched, matchingRecords_oneSession, hcount]
  decide

end Samples

end Teleprompter.SessionExport
