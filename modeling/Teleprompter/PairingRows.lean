import Teleprompter.StoreUpserts
import Teleprompter.WireGuards

/-!
# Pairings that are read back

A row of the pairings table is checked when it is read: a row without a text
that must be there, or with a key of the wrong length, is left out. The daemon
thinks of pairings as values without nulls. Over every run of the statements on
the table, the daemon finds in it what it thinks of exactly when every pairing
was saved with complete credentials and every label was trimmed.
-/

namespace Teleprompter.PairingRows

open FiniteDictionary PairingCrypto StepRuns StoreUpserts
open JsonValues (Json)
open RelayManager (Credentials Manager RelayClientConfig StoredPairing)
open KeyExchange (Label)
open Wire (LabelTrimmed decodeWireLabel makeLabel)

section Guard

/-- Bytes of a key column. -/
def pairingKeyBytes : ℕ := 32

/-- A row as it is read, with nulls. -/
structure RawPairingRow where
  daemonId : Option String
  relayUrl : Option String
  relayToken : Option String
  registrationProof : Option String
  createdAt : Option ℕ
  publicKey : Option Bytes
  secretKey : Option Bytes
  pairingSecret : Option Bytes
  label : Option String
  pairingId : Option String
  hostname : Option String

def isNonEmpty (s : Option String) : Bool := s.any (· != "")

def toKeyBytes (value : Option Bytes) (len : ℕ) : Option Bytes :=
  value.filter fun bytes => bytes.length == len

/-- The label of a column. -/
def columnLabel (column : Option String) : Label :=
  decodeWireLabel (match column with
    | some s => .string s
    | none => .null)

/-- Check a row. The time of creation, by which rows are ordered, goes with it. -/
def parseStoredPairing (raw : RawPairingRow) : Option StoredPairing :=
  if !isNonEmpty raw.daemonId then none
  else if !isNonEmpty raw.relayUrl then none
  else if !isNonEmpty raw.relayToken then none
  else if !isNonEmpty raw.registrationProof then none
  else do
    let createdAt ← raw.createdAt
    let publicKey ← toKeyBytes raw.publicKey pairingKeyBytes
    let secretKey ← toKeyBytes raw.secretKey pairingKeyBytes
    let pairingSecret ← toKeyBytes raw.pairingSecret pairingKeyBytes
    some
      { daemonId := raw.daemonId.getD ""
        credentials := ⟨raw.relayUrl.getD "", raw.relayToken.getD "",
          raw.registrationProof.getD "", publicKey, secretKey, pairingSecret⟩
        label := columnLabel raw.label
        pairingId := raw.pairingId.getD ""
        hostname := raw.hostname.getD ""
        createdAt }

/-- The columns of a row. -/
def rowToRawPairing (daemonId : String) (row : PairingRow) : RawPairingRow where
  daemonId := some daemonId
  relayUrl := some row.credentials.relayUrl
  relayToken := some row.credentials.relayToken
  registrationProof := some row.credentials.registrationProof
  createdAt := some row.createdAt
  publicKey := some row.credentials.publicKey
  secretKey := some row.credentials.secretKey
  pairingSecret := some row.credentials.pairingSecret
  label := row.label
  pairingId := row.pairingId
  hostname := row.hostname

/-- Entries in the order of their creation. -/
def orderedRows (db : MetaDb) : List (Sigma fun _ : String => PairingRow) :=
  db.pairings.entries.insertionSort fun a b => a.2.createdAt ≤ b.2.createdAt

/-- The pairings that can be read. -/
def loadPairings (db : MetaDb) : List StoredPairing :=
  (orderedRows db).filterMap fun e => parseStoredPairing (rowToRawPairing e.1 e.2)

/-- A pairing in a list for people. -/
structure PairingSummary where
  daemonId : String
  relayUrl : String
  createdAt : ℕ
  label : Label

/-- All pairings, whether they can be read or not. -/
def listPairings (db : MetaDb) : List PairingSummary :=
  (orderedRows db).map fun e =>
    ⟨e.1, e.2.credentials.relayUrl, e.2.createdAt, columnLabel e.2.label⟩

end Guard

section Checks

/-- Credentials that pass the check. -/
structure Complete (daemonId : String) (c : Credentials) : Prop where
  daemonId_ne : daemonId ≠ ""
  relayUrl_ne : c.relayUrl ≠ ""
  relayToken_ne : c.relayToken ≠ ""
  registrationProof_ne : c.registrationProof ≠ ""
  publicKey_length : c.publicKey.length = pairingKeyBytes
  secretKey_length : c.secretKey.length = pairingKeyBytes
  pairingSecret_length : c.pairingSecret.length = pairingKeyBytes

/-- What the daemon makes of a row. -/
def typed (daemonId : String) (row : PairingRow) : StoredPairing :=
  ⟨daemonId, row.credentials, columnLabel row.label, row.pairingId.getD "", row.hostname.getD "",
    row.createdAt⟩

theorem isNonEmpty_some {s : String} : (!isNonEmpty (some s)) = true ↔ s = "" := by
  rw [isNonEmpty, Option.any_some, Bool.not_eq_true', bne_eq_false_iff_eq]

theorem toKeyBytes_eq_some_iff {bytes key : Bytes} {len : ℕ} :
    toKeyBytes (some bytes) len = some key ↔ bytes = key ∧ bytes.length = len := by
  rw [toKeyBytes, Option.filter_eq_some_iff, Option.some.injEq, beq_iff_eq]
  constructor
  · rintro ⟨rfl, hlen⟩
    exact ⟨rfl, hlen⟩
  · rintro ⟨rfl, hlen⟩
    exact ⟨rfl, hlen⟩

theorem isNonEmpty_getD {s : Option String} (h : ¬(!isNonEmpty s) = true) : s.getD "" ≠ "" := by
  cases s with
  | none => exact absurd rfl h
  | some s => exact mt isNonEmpty_some.mpr h

theorem length_of_toKeyBytes {value : Option Bytes} {key : Bytes} {len : ℕ}
    (h : toKeyBytes value len = some key) : key.length = len := by
  rw [toKeyBytes, Option.filter_eq_some_iff, beq_iff_eq] at h
  exact h.2

/-- Whatever a row holds, a pairing that is read from it is complete. -/
theorem complete_of_parseStoredPairing {raw : RawPairingRow} {p : StoredPairing}
    (h : parseStoredPairing raw = some p) :
    Complete p.daemonId p.credentials ∧ LabelTrimmed p.label := by
  rw [parseStoredPairing] at h
  split_ifs at h with hid hurl htoken hproof
  obtain ⟨createdAt, -, h⟩ := Option.bind_eq_some_iff.mp h
  obtain ⟨publicKey, hpublic, h⟩ := Option.bind_eq_some_iff.mp h
  obtain ⟨secretKey, hsecret, h⟩ := Option.bind_eq_some_iff.mp h
  obtain ⟨pairingSecret, hpairing, h⟩ := Option.bind_eq_some_iff.mp h
  obtain rfl := Option.some.inj h
  exact ⟨⟨isNonEmpty_getD hid, isNonEmpty_getD hurl, isNonEmpty_getD htoken,
    isNonEmpty_getD hproof, length_of_toKeyBytes hpublic, length_of_toKeyBytes hsecret,
    length_of_toKeyBytes hpairing⟩, Wire.labelTrimmed_decodeWireLabel _⟩

/-- A row is read exactly when its credentials are complete. -/
theorem parseStoredPairing_row {daemonId : String} {row : PairingRow} {p : StoredPairing} :
    parseStoredPairing (rowToRawPairing daemonId row) = some p ↔
      Complete daemonId row.credentials ∧ p = typed daemonId row := by
  rw [parseStoredPairing, rowToRawPairing]
  dsimp only
  constructor
  · intro h
    split_ifs at h with hid hurl htoken hproof
    rw [isNonEmpty_some] at hid hurl htoken hproof
    obtain ⟨createdAt, hcreated, h⟩ := Option.bind_eq_some_iff.mp h
    obtain ⟨publicKey, hpublic, h⟩ := Option.bind_eq_some_iff.mp h
    obtain ⟨secretKey, hsecret, h⟩ := Option.bind_eq_some_iff.mp h
    obtain ⟨pairingSecret, hpairing, h⟩ := Option.bind_eq_some_iff.mp h
    obtain ⟨rfl, hpublicLen⟩ := toKeyBytes_eq_some_iff.mp hpublic
    obtain ⟨rfl, hsecretLen⟩ := toKeyBytes_eq_some_iff.mp hsecret
    obtain ⟨rfl, hpairingLen⟩ := toKeyBytes_eq_some_iff.mp hpairing
    obtain rfl := Option.some.inj hcreated
    exact ⟨⟨hid, hurl, htoken, hproof, hpublicLen, hsecretLen, hpairingLen⟩,
      (Option.some.inj h).symm⟩
  · rintro ⟨hsound, rfl⟩
    rw [if_neg (mt isNonEmpty_some.mp hsound.daemonId_ne),
      if_neg (mt isNonEmpty_some.mp hsound.relayUrl_ne),
      if_neg (mt isNonEmpty_some.mp hsound.relayToken_ne),
      if_neg (mt isNonEmpty_some.mp hsound.registrationProof_ne),
      toKeyBytes_eq_some_iff.mpr ⟨rfl, hsound.publicKey_length⟩,
      toKeyBytes_eq_some_iff.mpr ⟨rfl, hsound.secretKey_length⟩,
      toKeyBytes_eq_some_iff.mpr ⟨rfl, hsound.pairingSecret_length⟩]
    rfl

/-- The pairing of a daemon that can be read. -/
def loaded (db : MetaDb) (daemonId : String) : Option StoredPairing :=
  (db.pairings.lookup daemonId).bind fun row => parseStoredPairing (rowToRawPairing daemonId row)

theorem loaded_eq_some_iff {db : MetaDb} {daemonId : String} {p : StoredPairing} :
    loaded db daemonId = some p ↔
      ∃ row, db.pairings.lookup daemonId = some row ∧ Complete daemonId row.credentials ∧
        p = typed daemonId row := by
  rw [loaded, Option.bind_eq_some_iff]
  exact exists_congr fun row => and_congr_right fun _ => parseStoredPairing_row

/-- The list holds what can be read, by daemon. -/
theorem mem_loadPairings {db : MetaDb} {p : StoredPairing} :
    p ∈ loadPairings db ↔ loaded db p.daemonId = some p := by
  rw [loadPairings, List.mem_filterMap, loaded_eq_some_iff]
  constructor
  · rintro ⟨e, he, hparse⟩
    obtain ⟨hcomplete, rfl⟩ := parseStoredPairing_row.mp hparse
    exact ⟨e.2, AList.mem_lookup_iff.mpr ((List.mem_insertionSort _).mp he), hcomplete, rfl⟩
  · rintro ⟨row, hrow, hcomplete, heq⟩
    exact ⟨⟨p.daemonId, row⟩, (List.mem_insertionSort _).mpr (AList.mem_lookup_iff.mp hrow),
      parseStoredPairing_row.mpr ⟨hcomplete, heq⟩⟩

theorem nodup_loadPairings (db : MetaDb) : (loadPairings db).Nodup := by
  have hkeys : db.pairings.entries.Pairwise fun a b => a.1 ≠ b.1 :=
    List.pairwise_map.mp db.pairings.nodupKeys
  have hordered : (orderedRows db).Pairwise fun a b => a.1 ≠ b.1 :=
    ((List.perm_insertionSort _ _).pairwise_iff fun h => h.symm).mpr hkeys
  refine List.pairwise_filterMap.mpr (hordered.imp fun hne p hp q hq heq => ?_)
  obtain ⟨-, rfl⟩ := parseStoredPairing_row.mp hp
  obtain ⟨-, rfl⟩ := parseStoredPairing_row.mp hq
  exact hne (congrArg StoredPairing.daemonId heq)

/-- Pairings are read in the order of their creation. -/
theorem ordered_loadPairings (db : MetaDb) :
    (loadPairings db).Pairwise fun p q => p.createdAt ≤ q.createdAt := by
  have hordered : (orderedRows db).Pairwise fun a b => a.2.createdAt ≤ b.2.createdAt :=
    List.pairwise_insertionSort _ _
  refine List.pairwise_filterMap.mpr (hordered.imp fun hle p hp q hq => ?_)
  obtain ⟨-, rfl⟩ := parseStoredPairing_row.mp hp
  obtain ⟨-, rfl⟩ := parseStoredPairing_row.mp hq
  exact hle

/-- What is read is also listed, under the same label. -/
theorem mem_listPairings_of_mem_loadPairings {db : MetaDb} {p : StoredPairing}
    (h : p ∈ loadPairings db) :
    ⟨p.daemonId, p.credentials.relayUrl, p.createdAt, p.label⟩ ∈ listPairings db := by
  obtain ⟨e, he, hparse⟩ := List.mem_filterMap.mp h
  obtain ⟨-, rfl⟩ := parseStoredPairing_row.mp hparse
  exact List.mem_map_of_mem he

end Checks

section Runs

/-- A statement on the pairings table. -/
inductive PairingCall where
  | save (data : SavePairingInput) (now : ℕ)
  | rename (daemonId : String) (label : Label)
  | delete (daemonId : String)
  /-- Every row without an id gets its derived one. -/
  | migrate

/-- The table, and what the daemon thinks of it. -/
structure Both where
  db : MetaDb
  manager : Manager

variable (genericHash32 : Bytes → Key)

/-- The table after a statement. -/
def dbStep (db : MetaDb) : PairingCall → MetaDb
  | .save data now => savePairing db data now
  | .rename daemonId label => updatePairingLabel db daemonId label
  | .delete daemonId => deletePairing db daemonId
  | .migrate => (migratePairingIds genericHash32 db (daemonsWithoutId db).length).1

/-- The values after a statement. -/
def valuesStep (m : Manager) : PairingCall → Manager
  | .save data now =>
    m.savePairing ⟨data.daemonId, data.credentials, data.label, data.pairingId, data.hostname⟩
      (data.label.getD .unset) now
  | .rename daemonId label => m.updatePairingLabel daemonId label
  | .delete daemonId => m.deletePairing daemonId
  | .migrate =>
    { m with rows := mapValues (fun daemonId row =>
        if row.pairingId = "" then
          { row with pairingId := deriveLegacyPairingId genericHash32 daemonId }
        else row) m.rows }

def step (s : Both) (call : PairingCall) : Both :=
  ⟨dbStep genericHash32 s.db call, valuesStep genericHash32 s.manager call⟩

/-- The daemon finds in the table what it thinks of. -/
def Both.Loads (s : Both) : Prop :=
  ∀ daemonId, loaded s.db daemonId = s.manager.rows.lookup daemonId

/-- A pairing is saved with complete credentials, and a label that is stored is trimmed. -/
def Both.Storable (s : Both) : PairingCall → Prop
  | .save data _ =>
    Complete data.daemonId data.credentials ∧ LabelTrimmed (data.label.getD .unset)
  | .rename daemonId label => daemonId ∈ s.manager.rows → LabelTrimmed label
  | .delete _ => True
  | .migrate => True

/-- Both have rows for the same daemons, and values know their daemon. -/
structure Both.Matched (s : Both) : Prop where
  present : ∀ daemonId, (s.db.pairings.lookup daemonId).isSome =
    (s.manager.rows.lookup daemonId).isSome
  keyed : ∀ daemonId p, s.manager.rows.lookup daemonId = some p → p.daemonId = daemonId

/-- The value that saving a pairing leaves. -/
def savedPairing (old : Option StoredPairing) (data : SavePairingInput) (now : ℕ) :
    StoredPairing where
  daemonId := data.daemonId
  credentials := data.credentials
  label := data.label.getD .unset
  pairingId := if data.pairingId = "" then (old.map StoredPairing.pairingId).getD "" else
    data.pairingId
  hostname := if data.hostname = "" then (old.map StoredPairing.hostname).getD "" else
    data.hostname
  createdAt := (old.map StoredPairing.createdAt).getD now

theorem rows_save (m : Manager) (data : SavePairingInput) (now : ℕ) :
    (valuesStep genericHash32 m (.save data now)).rows =
      m.rows.insert data.daemonId (savedPairing (m.rows.lookup data.daemonId) data now) := by
  rw [valuesStep, Manager.savePairing]
  dsimp only
  cases m.rows.lookup data.daemonId with
  | none =>
    have hid (text : String) : (if text = "" then "" else text) = text := by
      split
      · next h => exact h.symm
      · rfl
    rw [savedPairing, Option.map_none, Option.map_none, Option.map_none, Option.getD_none,
      Option.getD_none, hid, hid]
  | some old => rfl

theorem lookup_rename (m : Manager) (daemonId a : String) (label : Label) :
    (valuesStep genericHash32 m (.rename daemonId label)).rows.lookup a =
      (m.rows.lookup a).map fun row => if a = daemonId then { row with label } else row := by
  have hsame : (m.rows.lookup a).map (fun row => row) = m.rows.lookup a := Option.map_id'
  rw [valuesStep, Manager.updatePairingLabel]
  by_cases hmem : daemonId ∈ m.rows
  · rw [if_pos hmem]
    dsimp only
    rw [lookup_alterKey]
    by_cases ha : a = daemonId
    · simp only [if_pos ha]
    · simp only [if_neg ha]
      exact hsame.symm
  · rw [if_neg hmem]
    by_cases ha : a = daemonId
    · rw [ha, AList.lookup_eq_none.mpr hmem, Option.map_none]
    · simp only [if_neg ha]
      exact hsame.symm

/-- The label of a column is the one that was stored exactly when that was trimmed. -/
theorem columnLabel_iff (label : Option Label) :
    columnLabel (label.bind labelToNullable) = label.getD .unset ↔
      LabelTrimmed (label.getD .unset) := by
  cases label with
  | none => exact iff_of_true rfl trivial
  | some label =>
    cases label with
    | unset => exact iff_of_true rfl trivial
    | set value =>
      refine ⟨fun h => ?_, fun h => Wire.makeLabel_of_trimmed h⟩
      rw [Option.getD_some] at h ⊢
      rw [← h]
      exact Wire.labelTrimmed_decodeWireLabel _

theorem columnLabel_rename_iff (label : Label) :
    columnLabel (labelToNullable label) = label ↔ LabelTrimmed label := columnLabel_iff (some label)

/-- What is read of a saved pairing. -/
theorem typed_savedRow (old : Option PairingRow) (data : SavePairingInput) (now : ℕ) :
    typed data.daemonId (savedRow old data now) =
      { savedPairing (old.map (typed data.daemonId)) data now with
        label := columnLabel (data.label.bind labelToNullable) } := by
  have htext (text : String) (column : Option String) :
      ((nullIfEmpty text).or column).getD "" = if text = "" then column.getD "" else text := by
    rw [nullIfEmpty]
    split
    · rw [Option.none_or]
    · rfl
  rw [typed, savedRow, savedPairing]
  dsimp only
  rw [htext, htext]
  cases old with
  | none => rfl
  | some old => rfl

variable {genericHash32}

theorem loaded_save (db : MetaDb) (data : SavePairingInput) (now : ℕ) (a : String) :
    loaded (dbStep genericHash32 db (.save data now)) a =
      if a = data.daemonId then parseStoredPairing (rowToRawPairing data.daemonId
        (savedRow (db.pairings.lookup data.daemonId) data now))
      else loaded db a := by
  rw [loaded, dbStep, savePairing]
  dsimp only
  rw [lookup_insert_eq]
  by_cases ha : a = data.daemonId
  · rw [if_pos ha, if_pos ha, ha, Option.bind_some]
  · rw [if_neg ha, if_neg ha, loaded]

/-- Where the daemon finds what it thinks of, the rows read as the values. -/
theorem map_typed_lookup {s : Both} (hm : s.Matched) (hs : s.Loads) (daemonId : String) :
    (s.db.pairings.lookup daemonId).map (typed daemonId) = s.manager.rows.lookup daemonId := by
  have hpresent := hm.present daemonId
  have hload := hs daemonId
  cases hvalue : s.manager.rows.lookup daemonId with
  | none =>
    rw [hvalue, Option.isSome_none, Option.isSome_eq_false_iff, Option.isNone_iff_eq_none]
      at hpresent
    rw [hpresent, Option.map_none]
  | some p =>
    rw [hvalue, loaded_eq_some_iff] at hload
    obtain ⟨row, hrow, -, rfl⟩ := hload
    rw [hrow, Option.map_some]

theorem matched_step {s : Both} (call : PairingCall) (hm : s.Matched) :
    (step genericHash32 s call).Matched := by
  cases call with
  | save data now =>
    refine ⟨fun a => ?_, fun a p hp => ?_⟩
    · rw [step, rows_save, dbStep, savePairing]
      dsimp only
      rw [lookup_insert_eq, lookup_insert_eq]
      by_cases ha : a = data.daemonId
      · rw [if_pos ha, if_pos ha, Option.isSome_some, Option.isSome_some]
      · rw [if_neg ha, if_neg ha]
        exact hm.present a
    · rw [step, rows_save, lookup_insert_eq] at hp
      by_cases ha : a = data.daemonId
      · rw [if_pos ha] at hp
        rw [ha, ← Option.some.inj hp]
        rfl
      · rw [if_neg ha] at hp
        exact hm.keyed a p hp
  | rename daemonId label =>
    refine ⟨fun a => ?_, fun a p hp => ?_⟩
    · rw [step, lookup_rename, Option.isSome_map, dbStep, updatePairingLabel]
      dsimp only
      rw [lookup_alterKey]
      split
      · rw [Option.isSome_map]
        exact hm.present a
      · exact hm.present a
    · rw [step, lookup_rename] at hp
      obtain ⟨old, hold, rfl⟩ := Option.map_eq_some_iff.mp hp
      have hkey := hm.keyed a old hold
      split
      · exact hkey
      · exact hkey
  | delete daemonId =>
    refine ⟨fun a => ?_, fun a p hp => ?_⟩
    · rw [step, dbStep, valuesStep, deletePairing, Manager.deletePairing]
      dsimp only
      rw [lookup_erase_eq, lookup_erase_eq]
      split
      · rfl
      · exact hm.present a
    · rw [step, valuesStep, Manager.deletePairing] at hp
      dsimp only at hp
      rw [lookup_erase_eq] at hp
      split at hp
      · cases hp
      · exact hm.keyed a p hp
  | migrate =>
    refine ⟨fun a => ?_, fun a p hp => ?_⟩
    · rw [step, dbStep, valuesStep, lookup_migratePairingIds]
      dsimp only
      rw [lookup_mapValues, Option.isSome_map, Option.isSome_map]
      exact hm.present a
    · rw [step, valuesStep] at hp
      dsimp only at hp
      rw [lookup_mapValues] at hp
      obtain ⟨old, hold, rfl⟩ := Option.map_eq_some_iff.mp hp
      have hkey := hm.keyed a old hold
      split
      · exact hkey
      · exact hkey

/-- A save is found again exactly when it was complete. -/
theorem loads_save_iff {s : Both} (hm : s.Matched) (hs : s.Loads) (data : SavePairingInput)
    (now : ℕ) : (step genericHash32 s (.save data now)).Loads ↔ s.Storable (.save data now) := by
  have hold := map_typed_lookup hm hs data.daemonId
  have hvalue : ∀ a, (valuesStep genericHash32 s.manager (.save data now)).rows.lookup a =
      if a = data.daemonId then
        some (savedPairing (s.manager.rows.lookup data.daemonId) data now)
      else s.manager.rows.lookup a := by
    intro a
    rw [rows_save, lookup_insert_eq]
  have hrow : parseStoredPairing (rowToRawPairing data.daemonId
        (savedRow (s.db.pairings.lookup data.daemonId) data now)) =
      some (savedPairing (s.manager.rows.lookup data.daemonId) data now) ↔
        s.Storable (.save data now) := by
    rw [parseStoredPairing_row, typed_savedRow, hold]
    refine and_congr_right fun _ => ?_
    rw [← columnLabel_iff]
    constructor
    · intro h
      exact (congrArg StoredPairing.label h).symm
    · intro h
      rw [h]
      rfl
  rw [← hrow]
  constructor
  · intro h
    have hself := h data.daemonId
    rwa [step, loaded_save, if_pos rfl, hvalue, if_pos rfl] at hself
  · intro h a
    rw [step, loaded_save, hvalue]
    by_cases ha : a = data.daemonId
    · rw [if_pos ha, if_pos ha, h]
    · rw [if_neg ha, if_neg ha]
      exact hs a

theorem loads_rename_iff {s : Both} (hs : s.Loads) (daemonId : String) (label : Label) :
    (step genericHash32 s (.rename daemonId label)).Loads ↔
      s.Storable (.rename daemonId label) := by
  have hloaded : ∀ a, loaded (dbStep genericHash32 s.db (.rename daemonId label)) a =
      (loaded s.db a).map fun p =>
        if a = daemonId then { p with label := columnLabel (labelToNullable label) } else p := by
    intro a
    refine Option.ext fun p => ?_
    rw [Option.map_eq_some_iff, loaded_eq_some_iff, dbStep, updatePairingLabel]
    dsimp only
    rw [lookup_alterKey]
    by_cases ha : a = daemonId
    · rw [if_pos ha]
      constructor
      · rintro ⟨row, hrow, hcomplete, rfl⟩
        obtain ⟨old, hold, rfl⟩ := Option.map_eq_some_iff.mp hrow
        exact ⟨_, loaded_eq_some_iff.mpr ⟨old, hold, hcomplete, rfl⟩, if_pos ha⟩
      · rintro ⟨q, hq, rfl⟩
        obtain ⟨old, hold, hcomplete, rfl⟩ := loaded_eq_some_iff.mp hq
        rw [if_pos ha]
        exact ⟨_, Option.map_eq_some_iff.mpr ⟨old, hold, rfl⟩, hcomplete, rfl⟩
    · simp only [if_neg ha, exists_eq_right]
      exact loaded_eq_some_iff.symm
  constructor
  · intro h hmem
    obtain ⟨p, hp⟩ := Option.isSome_iff_exists.mp (AList.lookup_isSome.mpr hmem)
    have hself := h daemonId
    rw [step, hloaded, lookup_rename, hs, hp, Option.map_some, Option.map_some, if_pos rfl,
      if_pos rfl] at hself
    exact (columnLabel_rename_iff label).mp (congrArg StoredPairing.label (Option.some.inj hself))
  · intro h a
    rw [step, hloaded, lookup_rename, hs]
    cases hp : s.manager.rows.lookup a with
    | none => rfl
    | some p =>
      by_cases ha : a = daemonId
      · have hmem : daemonId ∈ s.manager.rows := ha ▸ AList.lookup_isSome.mp (hp ▸ rfl)
        rw [(columnLabel_rename_iff label).mpr (h hmem)]
      · simp only [if_neg ha]

theorem loads_delete {s : Both} (hs : s.Loads) (daemonId : String) :
    (step genericHash32 s (.delete daemonId)).Loads := by
  intro a
  rw [step, loaded, dbStep, valuesStep, deletePairing, Manager.deletePairing]
  dsimp only
  rw [lookup_erase_eq, lookup_erase_eq]
  by_cases ha : a = daemonId
  · rw [if_pos ha, if_pos ha, Option.bind_none]
  · rw [if_neg ha, if_neg ha]
    exact hs a

theorem loads_migrate {s : Both} (hs : s.Loads) : (step genericHash32 s .migrate).Loads := by
  have hdone : (migratePairingIds genericHash32 s.db (daemonsWithoutId s.db).length).2 =
      some (daemonsWithoutId s.db).length := if_pos (Nat.le_refl _)
  have hrows := (migrated_of_some hdone).rows
  intro a
  refine Option.ext fun p => ?_
  rw [step, dbStep, valuesStep, loaded_eq_some_iff, hrows]
  dsimp only
  rw [lookup_mapValues, ← hs a, Option.map_eq_some_iff]
  have htyped : ∀ row : PairingRow, typed a (if lacksId row then
      { row with pairingId := some (deriveLegacyPairingId genericHash32 a) } else row) =
        if (typed a row).pairingId = "" then
          { typed a row with pairingId := deriveLegacyPairingId genericHash32 a }
        else typed a row := by
    intro row
    have hlacks : lacksId row = true ↔ (typed a row).pairingId = "" := by
      rw [lacksId, typed, Bool.or_eq_true, decide_eq_true_iff, decide_eq_true_iff]
      cases row.pairingId with
      | none => simp
      | some text => simp
    by_cases hid : lacksId row = true
    · rw [if_pos hid, if_pos (hlacks.mp hid)]
      rfl
    · rw [if_neg hid, if_neg (mt hlacks.mpr hid)]
  have hcredentials : ∀ row : PairingRow, (if lacksId row then
      { row with pairingId := some (deriveLegacyPairingId genericHash32 a) } else row).credentials =
        row.credentials := by
    intro row
    split
    · rfl
    · rfl
  constructor
  · rintro ⟨row, hrow, hcomplete, rfl⟩
    obtain ⟨old, hold, rfl⟩ := Option.map_eq_some_iff.mp hrow
    rw [hcredentials] at hcomplete
    exact ⟨typed a old, loaded_eq_some_iff.mpr ⟨old, hold, hcomplete, rfl⟩, (htyped old).symm⟩
  · rintro ⟨q, hq, rfl⟩
    obtain ⟨old, hold, hcomplete, rfl⟩ := loaded_eq_some_iff.mp hq
    refine ⟨_, Option.map_eq_some_iff.mpr ⟨old, hold, rfl⟩, ?_, (htyped old).symm⟩
    rw [hcredentials]
    exact hcomplete

/-- A statement keeps table and values in step exactly when it is storable. -/
theorem loads_step_iff {s : Both} (call : PairingCall) (hm : s.Matched) (hs : s.Loads) :
    (step genericHash32 s call).Loads ↔ s.Storable call := by
  cases call with
  | save data now => exact loads_save_iff hm hs data now
  | rename daemonId label => exact loads_rename_iff hs daemonId label
  | delete daemonId => exact iff_of_true (loads_delete hs daemonId) trivial
  | migrate => exact iff_of_true (loads_migrate hs) trivial

/-- Reading the whole table gives the values in another order of equal times. -/
theorem loads_iff_perm {s : Both} (hm : s.Matched) :
    s.Loads ↔ (loadPairings s.db).Perm s.manager.loadPairings := by
  have hvalues : ∀ p, p ∈ s.manager.loadPairings ↔
      s.manager.rows.lookup p.daemonId = some p := by
    intro p
    rw [Manager.loadPairings, List.mem_insertionSort, List.mem_map]
    constructor
    · rintro ⟨e, he, rfl⟩
      have hlookup : s.manager.rows.lookup e.1 = some e.2 := AList.mem_lookup_iff.mpr he
      rw [hm.keyed e.1 e.2 hlookup, hlookup]
    · intro h
      exact ⟨⟨p.daemonId, p⟩, AList.mem_lookup_iff.mp h, rfl⟩
  have hnodup : s.manager.loadPairings.Nodup := by
    have hkeys : s.manager.rows.entries.Pairwise fun a b => a.1 ≠ b.1 :=
      List.pairwise_map.mp s.manager.rows.nodupKeys
    refine ((List.perm_insertionSort _ _).nodup_iff).mpr (List.pairwise_map.mpr ?_)
    refine hkeys.imp_of_mem fun ha hb hne heq => hne ?_
    have hka := hm.keyed _ _ (AList.mem_lookup_iff.mpr ha)
    have hkb := hm.keyed _ _ (AList.mem_lookup_iff.mpr hb)
    rw [← hka, ← hkb, heq]
  rw [List.perm_ext_iff_of_nodup (nodup_loadPairings s.db) hnodup]
  constructor
  · intro h p
    rw [mem_loadPairings, hvalues, h]
  · intro h daemonId
    refine Option.ext fun p => ?_
    constructor
    · intro hp
      obtain ⟨row, -, -, rfl⟩ := loaded_eq_some_iff.mp hp
      have hmem : typed daemonId row ∈ loadPairings s.db := mem_loadPairings.mpr hp
      exact (hvalues _).mp ((h _).mp hmem)
    · intro hp
      have hkey := hm.keyed daemonId p hp
      have hp' : s.manager.rows.lookup p.daemonId = some p := by rw [hkey, hp]
      have hload := mem_loadPairings.mp ((h p).mpr ((hvalues p).mpr hp'))
      rwa [hkey] at hload

/-- Both at the start, with no pairing; the rest is arbitrary. -/
def Both.start (db : MetaDb) (m : Manager) : Both :=
  ⟨{ db with pairings := ∅ }, { m with rows := ∅ }⟩

theorem matched_start (db : MetaDb) (m : Manager) : (Both.start db m).Matched where
  present _ := rfl
  keyed _ _ h := by cases h

/-- All along a run the pairings are read in the order of their creation, and they are
the ones that the daemon thinks of, exactly when every statement of the run is storable. -/
theorem loadPairings_run_iff (genericHash32 : Bytes → Key) (db : MetaDb) (m : Manager)
    (calls : List PairingCall) :
    (∀ before, before <+: calls →
        (loadPairings (runFrom (step genericHash32) (.start db m) before).db).Pairwise
          fun p q => p.createdAt ≤ q.createdAt) ∧
      ((∀ before, before <+: calls →
          (loadPairings (runFrom (step genericHash32) (.start db m) before).db).Perm
            (runFrom (step genericHash32) (.start db m) before).manager.loadPairings) ↔
        Meets (step genericHash32) Both.Storable (.start db m) calls) := by
  refine ⟨fun before _ => ordered_loadPairings _, ?_⟩
  have hmatched : ∀ before, (runFrom (step genericHash32) (.start db m) before).Matched :=
    runFrom_induction (fun _ call => matched_step call) (matched_start db m)
  have hloads : (Both.start db m).Loads := fun _ => rfl
  have hbase : ∀ s call, Both.Matched s → (step genericHash32 s call).Matched :=
    fun _ call => matched_step call
  have hstep : ∀ s call, Both.Matched s → s.Loads →
      ((step genericHash32 s call).Loads ↔ s.Storable call) := fun _ call => loads_step_iff call
  rw [← forall_prefix_iff_meets hbase hstep (matched_start db m) hloads calls]
  exact forall₂_congr fun before _ => (loads_iff_perm (hmatched before)).symm

end Runs

end Teleprompter.PairingRows
