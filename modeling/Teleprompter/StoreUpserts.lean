import Teleprompter.PairingLink
import Teleprompter.RelayManager
import Teleprompter.StoreAgreement

/-!
# The tables of the store

Sessions, pairings, confirmations and push tokens are rows under primary keys.
An insert that meets its key updates some columns and leaves others alone; an
empty identity is stored as null and does not replace a known one. Each
statement either takes effect or fails without a trace; a deletion of a pairing
is one transaction, and the migration of pairing ids is many statements.
-/

namespace Teleprompter.StoreUpserts

open FiniteDictionary PairingCrypto PairingLink SessionStore StepRuns
open KeyExchange (Label)
open RelayManager (Credentials)

/-- The value of a label column. -/
def labelToNullable : Label → Option String
  | .set value => some value
  | .unset => none

/-- A row of the pairings table, under its daemon. -/
structure PairingRow where
  /-- How to reach the daemon and talk to it. -/
  credentials : Credentials
  /-- Time of the first save. -/
  createdAt : ℕ
  /-- Null when the pairing has no label. -/
  label : Option String
  /-- Null in rows of old versions. -/
  pairingId : Option String
  /-- Null when it is not known. -/
  hostname : Option String
  deriving DecidableEq

/-- What a pairing is saved from. -/
structure SavePairingInput where
  /-- The daemon, which is the key of the row. -/
  daemonId : String
  /-- How to reach the daemon and talk to it. -/
  credentials : Credentials
  /-- Absent when the caller has none. -/
  label : Option Label
  /-- Empty when the caller does not know it. -/
  pairingId : String
  /-- Empty when the caller does not know it. -/
  hostname : String
  deriving DecidableEq

/-- A row of the confirmations table, under its daemon and frontend. -/
structure ConfirmationRow where
  /-- The confirmation tag. -/
  pct : Bytes
  /-- Public key of the frontend. -/
  frontendPk : Bytes
  /-- Time of the confirmation. -/
  confirmedAt : ℤ
  deriving DecidableEq

/-- Platform of a push token. -/
inductive PushPlatform where
  | ios
  | android
  deriving DecidableEq

/-- A row of the push tokens table, under its frontend. -/
structure PushTokenRow where
  /-- The daemon that pushes to the frontend. -/
  daemonId : String
  /-- The token, which only the relay opens. -/
  sealedToken : String
  /-- Platform of the device. -/
  platform : PushPlatform
  /-- Time of the last save. -/
  updatedAt : ℕ
  deriving DecidableEq

/-- The tables. -/
structure MetaDb where
  /-- Sessions, with their database files. -/
  store : Store
  /-- Pairings by daemon. -/
  pairings : Dict String PairingRow
  /-- Confirmations by daemon and frontend. -/
  confirmations : Dict (String × String) ConfirmationRow
  /-- Push tokens by frontend. -/
  pushTokens : Dict String PushTokenRow

/-- An empty text is stored as null. -/
def nullIfEmpty (text : String) : Option String := if text = "" then none else some text

/-- The row that saving a pairing leaves. Of a row that is there the time of creation
stays, and an identity that is not known. -/
def savedRow (old : Option PairingRow) (data : SavePairingInput) (now : ℕ) : PairingRow where
  credentials := data.credentials
  createdAt := (old.map PairingRow.createdAt).getD now
  label := data.label.bind labelToNullable
  pairingId := (nullIfEmpty data.pairingId).or (old.bind PairingRow.pairingId)
  hostname := (nullIfEmpty data.hostname).or (old.bind PairingRow.hostname)

/-- Upsert a pairing. -/
def savePairing (db : MetaDb) (data : SavePairingInput) (now : ℕ) : MetaDb :=
  { db with
    pairings := db.pairings.insert data.daemonId
      (savedRow (db.pairings.lookup data.daemonId) data now) }

/-- Change the label of a pairing that has a row. -/
def updatePairingLabel (db : MetaDb) (daemonId : String) (label : Label) : MetaDb :=
  { db with
    pairings := alterKey daemonId (fun row => { row with label := labelToNullable label }) db.pairings }

/-- Delete a pairing with its push tokens and confirmations. -/
def deletePairing (db : MetaDb) (daemonId : String) : MetaDb :=
  { db with
    pushTokens := retain (fun _ row => row.daemonId ≠ daemonId) db.pushTokens
    confirmations := retain (fun key _ => key.1 ≠ daemonId) db.confirmations
    pairings := db.pairings.erase daemonId }

/-- Insert or replace a confirmation. -/
def savePairingConfirmation (db : MetaDb) (daemonId frontendId : String) (row : ConfirmationRow) :
    MetaDb :=
  { db with confirmations := db.confirmations.insert (daemonId, frontendId) row }

/-- Insert or replace the push token of a frontend. -/
def savePushToken (db : MetaDb) (frontendId : String) (row : PushTokenRow) : MetaDb :=
  { db with pushTokens := db.pushTokens.insert frontendId row }

section Migration

variable (genericHash32 : Bytes → Key)

/-- The first bytes of a hash of the daemon, marked as a version 8 UUID. -/
def deriveLegacyPairingId (daemonId : String) : String :=
  let digest := genericHash32 (utf8 "tp-pairing-id-legacy" ++ [1] ++ utf8 daemonId)
  let raw := digest.bytes.take 16
  formatUuid ⟨(raw.set 6 (raw.getD 6 0 &&& 0x0F ||| 0x80)).set 8 (raw.getD 8 0 &&& 0x3F ||| 0x80), by
    rw [List.length_set, List.length_set, List.length_take, digest.size]
    rfl⟩

/-- A pairing without an id. -/
def lacksId (row : PairingRow) : Bool := row.pairingId = none || row.pairingId = some ""

/-- Pairings without an id. -/
def daemonsWithoutId (db : MetaDb) : List String :=
  (db.pairings.entries.filter fun e => lacksId e.2).map Sigma.fst

/-- Give a pairing its derived id. -/
def setLegacyId (pairings : Dict String PairingRow) (daemonId : String) : Dict String PairingRow :=
  alterKey daemonId (fun row =>
    { row with pairingId := some (deriveLegacyPairingId genericHash32 daemonId) }) pairings

/-- Give pairings without an id their derived ones, up to the first update that fails.
Returns how many there were, unless one failed. -/
def migratePairingIds (db : MetaDb) (succeeding : ℕ) : MetaDb × Option ℕ :=
  let daemonIds := daemonsWithoutId db
  ({ db with
    pairings := (daemonIds.take succeeding).foldl (setLegacyId genericHash32) db.pairings },
    if daemonIds.length ≤ succeeding then some daemonIds.length else none)

end Migration

/-- A call of the store. A statement that fails has no effect. -/
inductive MetaCall where
  | createSession (sid cwd : String) (worktreePath claudeVersion : Option String) (now : ℕ)
    (inserts opens : Bool)
  | updateLastSeq (sid : String) (seq now : ℕ) (ok : Bool)
  | savePairing (data : SavePairingInput) (now : ℕ) (ok : Bool)
  | updatePairingLabel (daemonId : String) (label : Label) (ok : Bool)
  | migratePairingIds (selects : Bool) (succeeding : ℕ)
  | savePairingConfirmation (daemonId frontendId : String) (row : ConfirmationRow) (ok : Bool)
  | savePushToken (frontendId : String) (row : PushTokenRow) (ok : Bool)
  | deletePairing (daemonId : String) (ok : Bool)

section Runs

variable (genericHash32 : Bytes → Key) (config : StoreConfig)

/-- The tables after a call. -/
def metaStep (db : MetaDb) : MetaCall → MetaDb
  | .createSession sid cwd worktreePath claudeVersion now inserts opens =>
    { db with store := (createSession config db.store sid cwd worktreePath claudeVersion now inserts
        opens).store }
  | .updateLastSeq sid seq now ok =>
    if ok then { db with store := updateLastSeq db.store sid seq now } else db
  | .savePairing data now ok => if ok then savePairing db data now else db
  | .updatePairingLabel daemonId label ok => if ok then updatePairingLabel db daemonId label else db
  | .migratePairingIds selects succeeding =>
    if selects then (migratePairingIds genericHash32 db succeeding).1 else db
  | .savePairingConfirmation daemonId frontendId row ok =>
    if ok then savePairingConfirmation db daemonId frontendId row else db
  | .savePushToken frontendId row ok => if ok then savePushToken db frontendId row else db
  | .deletePairing daemonId ok => if ok then deletePairing db daemonId else db

/-- The tables after some calls. -/
def afterCalls (db : MetaDb) (calls : List MetaCall) : MetaDb :=
  runFrom (metaStep genericHash32 config) db calls

end Runs

/-- The row of a session. -/
def MetaDb.session (db : MetaDb) (sid : String) : Option SessionMeta := db.store.table.rows.lookup sid

/-- The column has a text that is not empty. -/
def HasText (column : Option String) : Prop := ∃ text, column = some text ∧ text ≠ ""

section Statements

/-- The call sets the last record number of a session. -/
def SetsLastSeq (sid : String) : MetaCall → Prop
  | .updateLastSeq sid' _ _ ok => sid' = sid ∧ ok = true
  | _ => False

/-- The call deletes a pairing. -/
def Deletes (daemonId : String) : MetaCall → Prop
  | .deletePairing daemonId' ok => daemonId' = daemonId ∧ ok = true
  | _ => False

/-- The call saves a pairing with an id. -/
def NamesId (daemonId : String) : MetaCall → Prop
  | .savePairing data _ ok => data.daemonId = daemonId ∧ data.pairingId ≠ "" ∧ ok = true
  | _ => False

/-- The call saves a pairing with a host name. -/
def NamesHost (daemonId : String) : MetaCall → Prop
  | .savePairing data _ ok => data.daemonId = daemonId ∧ data.hostname ≠ "" ∧ ok = true
  | _ => False

/-- A column that has a text keeps having one, and the same unless a new one is named. -/
def KeepsText (old new : Option String) (named : Prop) : Prop :=
  HasText old → HasText new ∧ (¬named → new = old)

/-- The later row of a session still has what identifies the earlier one. -/
structure SameSession (row row' : SessionMeta) (setsLastSeq : Prop) : Prop where
  /-- The time of creation. -/
  createdAt : row'.createdAt = row.createdAt
  /-- The last record number, unless a call sets it. -/
  lastSeq : ¬setsLastSeq → row'.lastSeq = row.lastSeq

/-- The later row of a pairing still has what identifies the earlier one. -/
structure SamePairing (row row' : PairingRow) (namesId namesHost : Prop) : Prop where
  /-- The time of creation. -/
  createdAt : row'.createdAt = row.createdAt
  /-- The id, unless a call names one. -/
  pairingId : KeepsText row.pairingId row'.pairingId namesId
  /-- The host name, unless a call names one. -/
  hostname : KeepsText row.hostname row'.hostname namesHost

/-- A completed migration. -/
structure Migrated (genericHash32 : Bytes → Key) (db db' : MetaDb) : Prop where
  /-- Every row has an id; one that had an id is as it was, the others got their
  derived ids and nothing else. -/
  rows : ∀ daemonId, db'.pairings.lookup daemonId = (db.pairings.lookup daemonId).map fun row =>
    if lacksId row then { row with pairingId := some (deriveLegacyPairingId genericHash32 daemonId) }
    else row
  /-- A second run changes nothing. -/
  again : ∀ succeeding, (migratePairingIds genericHash32 db' succeeding) = (db', some 0)

/-- A step of a migration, up to a failure. -/
structure MigratesOnly (genericHash32 : Bytes → Key) (db db' : MetaDb) : Prop where
  /-- The sessions stay. -/
  store : db'.store = db.store
  /-- The confirmations stay. -/
  confirmations : db'.confirmations = db.confirmations
  /-- The push tokens stay. -/
  pushTokens : db'.pushTokens = db.pushTokens
  /-- Rows with an id are as they were. -/
  kept : ∀ daemonId row, db.pairings.lookup daemonId = some row → lacksId row = false →
    db'.pairings.lookup daemonId = some row
  /-- Rows without one are as they were, or have their derived id. -/
  given : ∀ daemonId row, db.pairings.lookup daemonId = some row → lacksId row = true →
    db'.pairings.lookup daemonId = some row ∨ db'.pairings.lookup daemonId =
      some { row with pairingId := some (deriveLegacyPairingId genericHash32 daemonId) }
  /-- There are no new rows. -/
  absent : ∀ daemonId, db.pairings.lookup daemonId = none → db'.pairings.lookup daemonId = none

/-- A deleted pairing. -/
structure DeletedOnly (daemonId : String) (db db' : MetaDb) : Prop where
  /-- The sessions stay. -/
  store : db'.store = db.store
  /-- No row of the daemon is left. -/
  pairings : db'.pairings.lookup daemonId = none
  /-- No confirmation of the daemon is left. -/
  confirmations : ∀ frontendId, db'.confirmations.lookup (daemonId, frontendId) = none
  /-- No push token of the daemon is left. -/
  pushTokens : ∀ frontendId row, db'.pushTokens.lookup frontendId = some row → row.daemonId ≠ daemonId
  /-- The rows of all others are as they were. -/
  otherPairings : ∀ other, other ≠ daemonId → db'.pairings.lookup other = db.pairings.lookup other
  /-- The confirmations of all others are as they were. -/
  otherConfirmations : ∀ other frontendId, other ≠ daemonId →
    db'.confirmations.lookup (other, frontendId) = db.confirmations.lookup (other, frontendId)
  /-- The push tokens of all others are as they were. -/
  otherTokens : ∀ frontendId row, row.daemonId ≠ daemonId →
    (db'.pushTokens.lookup frontendId = some row ↔ db.pushTokens.lookup frontendId = some row)

/-- What calls of the store leave of the tables they start from. -/
structure KeepsIdentity (genericHash32 : Bytes → Key) (config : StoreConfig) (db : MetaDb)
    (calls : List MetaCall) : Prop where
  /-- Sessions keep their time of creation, and their last record number unless it is set. -/
  sessions : ∀ sid row, db.session sid = some row →
    ∃ row', (afterCalls genericHash32 config db calls).session sid = some row' ∧
      SameSession row row' (∃ call ∈ calls, SetsLastSeq sid call)
  /-- Pairings that are not deleted keep their time of creation and what is known of them. -/
  pairings : ∀ daemonId row, db.pairings.lookup daemonId = some row →
    (∀ call ∈ calls, ¬Deletes daemonId call) →
    ∃ row', (afterCalls genericHash32 config db calls).pairings.lookup daemonId = some row' ∧
      SamePairing row row' (∃ call ∈ calls, NamesId daemonId call) (∃ call ∈ calls, NamesHost daemonId call)
  /-- A migration changes rows without an id only. -/
  migrates : ∀ succeeding, MigratesOnly genericHash32 (afterCalls genericHash32 config db calls)
    (migratePairingIds genericHash32 (afterCalls genericHash32 config db calls) succeeding).1
  /-- One that reports success is complete, and a second one changes nothing. -/
  migrated : ∀ succeeding count,
    (migratePairingIds genericHash32 (afterCalls genericHash32 config db calls) succeeding).2 = some count →
    Migrated genericHash32 (afterCalls genericHash32 config db calls)
      (migratePairingIds genericHash32 (afterCalls genericHash32 config db calls) succeeding).1
  /-- A deletion takes all rows of its daemon and no other. -/
  deletes : ∀ daemonId, DeletedOnly daemonId (afterCalls genericHash32 config db calls)
    (deletePairing (afterCalls genericHash32 config db calls) daemonId)

end Statements

section Sessions

variable {config : StoreConfig} {store : Store} {sid : String} {row : SessionMeta}

/-- Creating a session keeps the rows of sessions. -/
theorem session_createSession (h : store.table.rows.lookup sid = some row) (sid' cwd : String)
    (worktreePath claudeVersion : Option String) (now : ℕ) (inserts opens : Bool) :
    ∃ row', (createSession config store sid' cwd worktreePath claudeVersion now inserts
        opens).store.table.rows.lookup sid = some row' ∧ SameSession row row' False := by
  have hsame : ∃ row', store.table.rows.lookup sid = some row' ∧ SameSession row row' False :=
    ⟨row, h, rfl, fun _ => rfl⟩
  unfold createSession
  split
  · rename_i hsafe
    cases inserts with
    | false => exact hsame
    | true =>
      have hput : ∃ row', (store.table.put sid' hsafe (helloRow (store.table.rows.lookup sid') cwd
          worktreePath claudeVersion now)).rows.lookup sid = some row' ∧ SameSession row row' False := by
        rw [SessionTable.put]
        dsimp only
        rw [lookup_insert_eq]
        split
        · rename_i hsid
          refine ⟨_, rfl, ?_, fun _ => ?_⟩
          · rw [← hsid, h]
            rfl
          · rw [← hsid, h]
            rfl
        · exact hsame
      cases opens with
      | false => exact hput
      | true => exact hput
  · exact hsame

/-- Setting a record number keeps the rows of sessions. -/
theorem session_updateLastSeq (h : store.table.rows.lookup sid = some row) (sid' : String) (seq now : ℕ) :
    ∃ row', (updateLastSeq store sid' seq now).table.rows.lookup sid = some row' ∧
      SameSession row row' (sid' = sid) := by
  rw [updateLastSeq, SessionTable.update]
  dsimp only
  rw [lookup_alterKey, h]
  split
  · rename_i hsid
    exact ⟨_, rfl, rfl, fun hother => absurd hsid.symm hother⟩
  · exact ⟨row, rfl, rfl, fun _ => rfl⟩

/-- Every call keeps the rows of sessions. -/
theorem session_metaStep {genericHash32 : Bytes → Key} {db : MetaDb} (h : db.session sid = some row)
    (call : MetaCall) : ∃ row', (metaStep genericHash32 config db call).session sid = some row' ∧
      SameSession row row' (SetsLastSeq sid call) := by
  have hsame : ∀ p, ∃ row', db.session sid = some row' ∧ SameSession row row' p :=
    fun p => ⟨row, h, rfl, fun _ => rfl⟩
  cases call with
  | createSession sid' cwd worktreePath claudeVersion now inserts opens =>
    exact session_createSession h sid' cwd worktreePath claudeVersion now inserts opens
  | updateLastSeq sid' seq now ok =>
    cases ok with
    | false => exact hsame _
    | true =>
      obtain ⟨row', hrow', hcreated, hseq⟩ := session_updateLastSeq h sid' seq now
      exact ⟨row', hrow', hcreated, fun hother => hseq fun hsid => hother ⟨hsid, rfl⟩⟩
  | savePairing data now ok => cases ok <;> exact hsame _
  | updatePairingLabel daemonId label ok => cases ok <;> exact hsame _
  | migratePairingIds selects succeeding => cases selects <;> exact hsame _
  | savePairingConfirmation daemonId frontendId row ok => cases ok <;> exact hsame _
  | savePushToken frontendId row ok => cases ok <;> exact hsame _
  | deletePairing daemonId ok => cases ok <;> exact hsame _

/-- Sameness of sessions goes through several calls. -/
theorem SameSession.trans {row row' row'' : SessionMeta} {p q : Prop} (h : SameSession row row' p)
    (h' : SameSession row' row'' q) : SameSession row row'' (p ∨ q) where
  createdAt := h'.createdAt.trans h.createdAt
  lastSeq hnot := (h'.lastSeq fun hq => hnot (.inr hq)).trans (h.lastSeq fun hp => hnot (.inl hp))

/-- The row of a session is the same one after any calls. -/
theorem session_afterCalls {genericHash32 : Bytes → Key} {db : MetaDb} (h : db.session sid = some row)
    (calls : List MetaCall) : ∃ row', (afterCalls genericHash32 config db calls).session sid = some row' ∧
      SameSession row row' (∃ call ∈ calls, SetsLastSeq sid call) := by
  induction calls generalizing db row with
  | nil => exact ⟨row, h, rfl, fun _ => rfl⟩
  | cons call calls ih =>
    obtain ⟨row', hrow', hstep⟩ := session_metaStep h call
    obtain ⟨row'', hrow'', hrest⟩ := ih hrow'
    have hboth := hstep.trans hrest
    rw [← List.exists_mem_cons_iff] at hboth
    exact ⟨row'', hrow'', hboth⟩

end Sessions

section Pairings

variable {genericHash32 : Bytes → Key} {config : StoreConfig} {db : MetaDb} {daemonId : String}
  {row : PairingRow}

/-- A column keeps its text while nothing happens. -/
theorem keepsText_refl (column : Option String) (named : Prop) : KeepsText column column named :=
  fun htext => ⟨htext, fun _ => rfl⟩

/-- Keeping a text goes through several calls. -/
theorem KeepsText.trans {a b c : Option String} {p q : Prop} (h : KeepsText a b p)
    (h' : KeepsText b c q) : KeepsText a c (p ∨ q) := by
  intro htext
  obtain ⟨hb, hsame⟩ := h htext
  obtain ⟨hc, hsame'⟩ := h' hb
  exact ⟨hc, fun hnot => (hsame' fun hq => hnot (.inr hq)).trans (hsame fun hp => hnot (.inl hp))⟩

/-- A coalescing update keeps a text. -/
theorem keepsText_coalesce (text : String) (column : Option String) :
    KeepsText column ((nullIfEmpty text).or column) (text ≠ "") := by
  intro htext
  rw [nullIfEmpty]
  split
  · exact ⟨htext, fun _ => rfl⟩
  · rename_i hne
    exact ⟨⟨text, rfl, hne⟩, fun hempty => absurd hne hempty⟩

/-- A row is its own later row. -/
theorem samePairing_refl (row : PairingRow) (p q : Prop) : SamePairing row row p q :=
  ⟨rfl, keepsText_refl _ p, keepsText_refl _ q⟩

/-- Sameness of pairings goes through several calls. -/
theorem SamePairing.trans {row row' row'' : PairingRow} {p q p' q' : Prop}
    (h : SamePairing row row' p q) (h' : SamePairing row' row'' p' q') :
    SamePairing row row'' (p ∨ p') (q ∨ q') where
  createdAt := h'.createdAt.trans h.createdAt
  pairingId := h.pairingId.trans h'.pairingId
  hostname := h.hostname.trans h'.hostname

/-- A pairing with a text for its id has one. -/
theorem lacksId_eq_false_of_hasText (h : HasText row.pairingId) : lacksId row = false := by
  obtain ⟨text, htext, hne⟩ := h
  rw [lacksId, htext]
  simpa using hne

/-- What an update of given rows leaves of one row. -/
theorem lookup_foldl_setLegacyId (daemonIds : List String) (pairings : Dict String PairingRow)
    (daemonId : String) : (daemonIds.foldl (setLegacyId genericHash32) pairings).lookup daemonId =
      (pairings.lookup daemonId).map fun row => if daemonId ∈ daemonIds then
        { row with pairingId := some (deriveLegacyPairingId genericHash32 daemonId) } else row := by
  induction daemonIds generalizing pairings with
  | nil =>
    rw [List.foldl_nil]
    cases pairings.lookup daemonId with
    | none => rfl
    | some row => rfl
  | cons first daemonIds ih =>
    rw [List.foldl_cons, ih, setLegacyId, lookup_alterKey]
    cases pairings.lookup daemonId with
    | none => simp
    | some row =>
      by_cases hfirst : daemonId = first
      · rw [if_pos hfirst, ← hfirst]
        simp
      · rw [if_neg hfirst]
        simp [hfirst]

/-- The daemons without an id are those whose row lacks one. -/
theorem mem_daemonsWithoutId : daemonId ∈ daemonsWithoutId db ↔
    ∃ row, db.pairings.lookup daemonId = some row ∧ lacksId row = true := by
  rw [daemonsWithoutId, List.mem_map]
  constructor
  · rintro ⟨entry, hentry, rfl⟩
    obtain ⟨hmem, hlacks⟩ := List.mem_filter.mp hentry
    exact ⟨entry.2, AList.mem_lookup_iff.mpr hmem, hlacks⟩
  · rintro ⟨row, hrow, hlacks⟩
    exact ⟨⟨daemonId, row⟩, List.mem_filter.mpr ⟨AList.mem_lookup_iff.mp hrow, hlacks⟩, rfl⟩

/-- The migration gives an id to the rows whose update succeeds, and leaves all others. -/
theorem lookup_migratePairingIds (succeeding : ℕ) (daemonId : String) :
    (migratePairingIds genericHash32 db succeeding).1.pairings.lookup daemonId =
      (db.pairings.lookup daemonId).map fun row =>
        if daemonId ∈ (daemonsWithoutId db).take succeeding then
          { row with pairingId := some (deriveLegacyPairingId genericHash32 daemonId) }
        else row := lookup_foldl_setLegacyId _ _ daemonId

/-- Rows with an id are not migrated. -/
theorem notMem_daemonsWithoutId (hrow : db.pairings.lookup daemonId = some row)
    (hid : lacksId row = false) : daemonId ∉ daemonsWithoutId db := by
  intro hmem
  obtain ⟨row', hrow', hlacks⟩ := mem_daemonsWithoutId.mp hmem
  rw [hrow] at hrow'
  rw [← Option.some_inj.mp hrow', hid] at hlacks
  exact Bool.false_ne_true hlacks

/-- The migration changes nothing but the ids of pairings that have none. -/
theorem migratesOnly (succeeding : ℕ) :
    MigratesOnly genericHash32 db (migratePairingIds genericHash32 db succeeding).1 where
  store := rfl
  confirmations := rfl
  pushTokens := rfl
  kept daemonId row hrow hid := by
    rw [lookup_migratePairingIds, hrow, Option.map_some,
      if_neg fun hmem => notMem_daemonsWithoutId hrow hid (List.mem_of_mem_take hmem)]
  given daemonId row hrow _ := by
    rw [lookup_migratePairingIds, hrow, Option.map_some]
    split
    · exact .inr rfl
    · exact .inl rfl
  absent daemonId hnone := by
    rw [lookup_migratePairingIds, hnone, Option.map_none]

/-- A derived id is not empty. -/
theorem deriveLegacyPairingId_ne_empty (daemonId : String) :
    deriveLegacyPairingId genericHash32 daemonId ≠ "" := by
  rw [deriveLegacyPairingId, formatUuid, dashed]
  intro hempty
  have hlength := congrArg String.length hempty
  rw [String.length_ofList] at hlength
  simp at hlength

/-- With no row that lacks an id there is nothing to do. -/
theorem migratePairingIds_of_nil (h : daemonsWithoutId db = []) (succeeding : ℕ) :
    migratePairingIds genericHash32 db succeeding = (db, some 0) := by
  rw [migratePairingIds, h, List.take_nil, List.foldl_nil, List.length_nil, if_pos (Nat.zero_le _)]

/-- A migration that returns a count is complete. -/
theorem migrated_of_some {succeeding count : ℕ}
    (h : (migratePairingIds genericHash32 db succeeding).2 = some count) :
    Migrated genericHash32 db (migratePairingIds genericHash32 db succeeding).1 := by
  have hall : (daemonsWithoutId db).take succeeding = daemonsWithoutId db := by
    rw [migratePairingIds] at h
    dsimp only at h
    split at h
    · rename_i hle
      exact List.take_of_length_le hle
    · cases h
  have hrows : ∀ daemonId, (migratePairingIds genericHash32 db succeeding).1.pairings.lookup daemonId =
      (db.pairings.lookup daemonId).map fun row => if lacksId row then
        { row with pairingId := some (deriveLegacyPairingId genericHash32 daemonId) } else row := by
    intro daemonId
    rw [lookup_migratePairingIds, hall]
    cases hrow : db.pairings.lookup daemonId with
    | none => rfl
    | some row =>
      rw [Option.map_some, Option.map_some]
      cases hid : lacksId row with
      | false => rw [if_neg (notMem_daemonsWithoutId hrow hid), if_neg Bool.false_ne_true]
      | true => rw [if_pos (mem_daemonsWithoutId.mpr ⟨row, hrow, hid⟩), if_pos rfl]
  refine ⟨hrows, migratePairingIds_of_nil (List.eq_nil_iff_forall_not_mem.mpr fun daemonId hmem => ?_)⟩
  obtain ⟨row', hrow', hlacks⟩ := mem_daemonsWithoutId.mp hmem
  rw [hrows] at hrow'
  obtain ⟨row, -, rfl⟩ := Option.map_eq_some_iff.mp hrow'
  cases hid : lacksId row with
  | false =>
    rw [hid, if_neg Bool.false_ne_true, hid] at hlacks
    exact Bool.false_ne_true hlacks
  | true =>
    rw [hid, if_pos rfl, lacksId_eq_false_of_hasText
      ⟨_, rfl, deriveLegacyPairingId_ne_empty daemonId⟩] at hlacks
    exact Bool.false_ne_true hlacks

/-- Saving a pairing keeps the rows of pairings. -/
theorem pairing_savePairing (h : db.pairings.lookup daemonId = some row) (data : SavePairingInput)
    (now : ℕ) : ∃ row', (savePairing db data now).pairings.lookup daemonId = some row' ∧
      SamePairing row row' (data.daemonId = daemonId ∧ data.pairingId ≠ "")
        (data.daemonId = daemonId ∧ data.hostname ≠ "") := by
  rw [savePairing]
  dsimp only
  rw [lookup_insert_eq]
  split
  · rename_i hown
    rw [← hown, h]
    refine ⟨_, rfl, rfl, fun htext => ?_, fun htext => ?_⟩
    · obtain ⟨hkept, hsame⟩ := keepsText_coalesce data.pairingId row.pairingId htext
      exact ⟨hkept, fun hnot => hsame fun hne => hnot ⟨rfl, hne⟩⟩
    · obtain ⟨hkept, hsame⟩ := keepsText_coalesce data.hostname row.hostname htext
      exact ⟨hkept, fun hnot => hsame fun hne => hnot ⟨rfl, hne⟩⟩
  · exact ⟨row, h, samePairing_refl row _ _⟩

/-- A new label keeps the rows of pairings. -/
theorem pairing_updatePairingLabel (h : db.pairings.lookup daemonId = some row) (other : String)
    (label : Label) (p q : Prop) :
    ∃ row', (updatePairingLabel db other label).pairings.lookup daemonId = some row' ∧
      SamePairing row row' p q := by
  rw [updatePairingLabel]
  dsimp only
  rw [lookup_alterKey, h]
  split
  · exact ⟨_, rfl, rfl, keepsText_refl _ p, keepsText_refl _ q⟩
  · exact ⟨row, rfl, samePairing_refl row p q⟩

/-- The migration keeps the rows of pairings. -/
theorem pairing_migratePairingIds (h : db.pairings.lookup daemonId = some row) (succeeding : ℕ)
    (p q : Prop) : ∃ row', (migratePairingIds genericHash32 db succeeding).1.pairings.lookup daemonId =
      some row' ∧ SamePairing row row' p q := by
  have honly : MigratesOnly genericHash32 db _ := migratesOnly succeeding
  cases hid : lacksId row with
  | false => exact ⟨row, honly.kept daemonId row h hid, samePairing_refl row p q⟩
  | true =>
    rcases honly.given daemonId row h hid with hsame | hgiven
    · exact ⟨row, hsame, samePairing_refl row p q⟩
    · refine ⟨_, hgiven, rfl, fun htext => ?_, keepsText_refl _ q⟩
      rw [lacksId_eq_false_of_hasText htext] at hid
      cases hid

/-- Every call that does not delete a pairing keeps its row. -/
theorem pairing_metaStep (h : db.pairings.lookup daemonId = some row) (call : MetaCall)
    (hcall : ¬Deletes daemonId call) :
    ∃ row', (metaStep genericHash32 config db call).pairings.lookup daemonId = some row' ∧
      SamePairing row row' (NamesId daemonId call) (NamesHost daemonId call) := by
  have hsame : ∀ p q, ∃ row', db.pairings.lookup daemonId = some row' ∧ SamePairing row row' p q :=
    fun p q => ⟨row, h, samePairing_refl row p q⟩
  cases call with
  | createSession sid cwd worktreePath claudeVersion now inserts opens => exact hsame _ _
  | updateLastSeq sid seq now ok => cases ok <;> exact hsame _ _
  | savePairingConfirmation daemonId' frontendId row ok => cases ok <;> exact hsame _ _
  | savePushToken frontendId row ok => cases ok <;> exact hsame _ _
  | savePairing data now ok =>
    cases ok with
    | false => exact hsame _ _
    | true =>
      obtain ⟨row', hrow', hcreated, hid, hhost⟩ := pairing_savePairing h data now
      refine ⟨row', hrow', hcreated, fun htext => ?_, fun htext => ?_⟩
      · exact ⟨(hid htext).1, fun hnot => (hid htext).2 fun hnames => hnot ⟨hnames.1, hnames.2, rfl⟩⟩
      · exact ⟨(hhost htext).1, fun hnot => (hhost htext).2 fun hnames => hnot ⟨hnames.1, hnames.2, rfl⟩⟩
  | updatePairingLabel other label ok =>
    cases ok with
    | false => exact hsame _ _
    | true => exact pairing_updatePairingLabel h other label _ _
  | migratePairingIds selects succeeding =>
    cases selects with
    | false => exact hsame _ _
    | true => exact pairing_migratePairingIds h succeeding _ _
  | deletePairing other ok =>
    cases ok with
    | false => exact hsame _ _
    | true =>
      have hother : ¬daemonId = other := fun heq => hcall ⟨heq.symm, rfl⟩
      refine ⟨row, ?_, samePairing_refl row _ _⟩
      rw [metaStep, if_pos rfl, deletePairing]
      dsimp only
      rw [lookup_erase_eq, if_neg hother]
      exact h

/-- The row of a pairing is the same one after any calls that do not delete it. -/
theorem pairing_afterCalls (h : db.pairings.lookup daemonId = some row) (calls : List MetaCall)
    (hcalls : ∀ call ∈ calls, ¬Deletes daemonId call) :
    ∃ row', (afterCalls genericHash32 config db calls).pairings.lookup daemonId = some row' ∧
      SamePairing row row' (∃ call ∈ calls, NamesId daemonId call)
        (∃ call ∈ calls, NamesHost daemonId call) := by
  induction calls generalizing db row with
  | nil => exact ⟨row, h, samePairing_refl row _ _⟩
  | cons call calls ih =>
    obtain ⟨row', hrow', hstep⟩ := pairing_metaStep h
      call (hcalls call List.mem_cons_self)
    obtain ⟨row'', hrow'', hrest⟩ := ih hrow' fun call' hcall' =>
      hcalls call' (List.mem_cons_of_mem call hcall')
    have hboth := hstep.trans hrest
    rw [← List.exists_mem_cons_iff, ← List.exists_mem_cons_iff] at hboth
    exact ⟨row'', hrow'', hboth⟩

end Pairings

section Deletions

/-- Deleting a pairing takes its own rows away and no others. -/
theorem deletedOnly (db : MetaDb) (daemonId : String) : DeletedOnly daemonId db (deletePairing db daemonId) where
  store := rfl
  pairings := AList.lookup_erase _ _
  confirmations frontendId := by
    rw [deletePairing]
    dsimp only
    rw [lookup_retain, Option.filter_eq_none_iff]
    intro row _ hkept
    exact of_decide_eq_true hkept rfl
  pushTokens frontendId row hrow := by
    rw [deletePairing] at hrow
    dsimp only at hrow
    rw [lookup_retain, Option.filter_eq_some_iff] at hrow
    exact of_decide_eq_true hrow.2
  otherPairings other hother := AList.lookup_erase_ne hother
  otherConfirmations other frontendId hother := by
    rw [deletePairing]
    dsimp only
    rw [lookup_retain]
    cases db.confirmations.lookup (other, frontendId) with
    | none => rfl
    | some row => exact if_pos (decide_eq_true hother)
  otherTokens frontendId row hrow := by
    rw [deletePairing]
    dsimp only
    rw [lookup_retain, Option.filter_eq_some_iff]
    exact and_iff_left (decide_eq_true hrow)

end Deletions

/-- Whatever the store is called with, upserts keep identities, a migration changes rows
without an id only and once, and a deletion takes the rows of its pairing and no other. -/
theorem upserts_keep_identity (genericHash32 : Bytes → Key) (config : StoreConfig) (db : MetaDb)
    (calls : List MetaCall) : KeepsIdentity genericHash32 config db calls where
  sessions _ _ hrow := session_afterCalls hrow calls
  pairings _ _ hrow hcalls := pairing_afterCalls hrow calls hcalls
  migrates := migratesOnly
  migrated _ _ hcount := migrated_of_some hcount
  deletes daemonId := deletedOnly _ daemonId

section Manager

/-- What identifies a pairing, as its row is read: a null reads as empty. -/
def MetaDb.identity (db : MetaDb) (daemonId : String) : Option (Credentials × String × String × ℕ) :=
  (db.pairings.lookup daemonId).map fun row =>
    (row.credentials, row.pairingId.getD "", row.hostname.getD "", row.createdAt)

end Manager

end Teleprompter.StoreUpserts
