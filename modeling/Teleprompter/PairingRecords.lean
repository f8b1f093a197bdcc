import Teleprompter.BestPerKey
import Mathlib.Data.List.Nodup
import Mathlib.Data.String.Basic

/-!
# Pairing records of the app

A committed pairing is a blob in the keychain, which other devices share; a
pairing id has one blob. What a device keeps for itself are the ids it hides, the
pointers from daemons to pairing ids, the floor of each daemon's version and the
pending pairings. Reconciliation keeps the newest visible blob of each daemon and
deletes the others. A watch adopts the snapshot that its phone sends.
-/

namespace Teleprompter.PairingRecords

open FiniteDictionary BestPerKey

/-- One committed pairing. -/
structure PairingBlob where
  ps : String
  pk : String
  relay : String
  did : String
  v : ℕ
  pairingId : String
  hostname : String
  /-- Milliseconds at the time of the commitment. -/
  ts : ℤ
  deriving DecidableEq

/-- The blobs that devices share, one for each pairing id. -/
structure RecordStore where
  blobs : List PairingBlob
  nodup : (blobs.map PairingBlob.pairingId).Nodup

/-- A part of the blobs still has distinct ids. -/
theorem nodup_filter (store : RecordStore) (p : PairingBlob → Bool) :
    ((store.blobs.filter p).map PairingBlob.pairingId).Nodup :=
  store.nodup.sublist (List.filter_sublist.map PairingBlob.pairingId)

/-- A blob can be added where its id is not in use. -/
theorem nodup_replace (store : RecordStore) (blob : PairingBlob) :
    ((store.blobs.filter (·.pairingId ≠ blob.pairingId) ++ [blob]).map
      PairingBlob.pairingId).Nodup := by
  rw [List.map_append, List.nodup_append]
  refine ⟨nodup_filter store _, List.nodup_singleton _, ?_⟩
  intro pid hpid other hother heq
  obtain ⟨found, hfound, rfl⟩ := List.mem_map.mp hpid
  have hne := of_decide_eq_true (List.mem_filter.mp hfound).2
  rw [List.map_singleton, List.mem_singleton] at hother
  exact hne (heq.trans hother)

/-- Delete the blob of a pairing id. -/
def RecordStore.remove (store : RecordStore) (pairingId : String) : RecordStore :=
  ⟨store.blobs.filter (·.pairingId ≠ pairingId), nodup_filter store _⟩

/-- Delete the blob of the same id, then add this one. The addition may fail. -/
def RecordStore.save (store : RecordStore) (fails : Bool) (blob : PairingBlob) : RecordStore :=
  if fails then store.remove blob.pairingId
  else ⟨store.blobs.filter (·.pairingId ≠ blob.pairingId) ++ [blob], nodup_replace store blob⟩

/-- Which daemons a device shows, in their order, and under which pairing id. -/
structure Pointers where
  order : List String
  map : Dict String String

/-- A pairing that was scanned and is not confirmed. -/
structure Pending where
  pairingId : String
  did : String
  ps : String
  pk : String
  relay : String
  v : ℕ
  hostname : String
  floor : ℤ
  /-- Milliseconds at the time of the scan. -/
  createdAt : ℤ
  deriving DecidableEq

/-- The shared blobs and what a device keeps for itself. -/
structure Device where
  records : RecordStore
  hidden : List String
  pointers : Pointers
  lastGood : Option Pointers
  /-- The floor in the sidecar of a daemon that has one; zero when it names none. -/
  sidecars : Dict String ℤ
  pending : List Pending

/-- What the keychain and the language leave open: the keychain is locked at some
calls, enumerations come in any order, additions fail, and dictionaries are read in
any order. -/
structure Platform where
  /-- The keychain cannot be read at the given call. -/
  locked : ℕ → Bool
  /-- The order of the enumeration made at the given call. -/
  enumerate : ℕ → List PairingBlob → List PairingBlob
  enumerate_perm : ∀ call blobs, (enumerate call blobs).Perm blobs
  saveFails : PairingBlob → Bool
  arrange : List PairingBlob → List PairingBlob
  arrange_perm : ∀ blobs, (arrange blobs).Perm blobs

/-- Enumerate the blobs; `none` when the keychain cannot be read. -/
def Platform.loadAll (platform : Platform) (call : ℕ) (store : RecordStore) :
    Option (List PairingBlob) :=
  if platform.locked call then none else some (platform.enumerate call store.blobs)

section Hiding

/-- Hide a pairing id on this device. -/
def setLocalHidden (device : Device) (pairingId : String) : Device :=
  if pairingId ∈ device.hidden then device
  else { device with hidden := device.hidden ++ [pairingId] }

/-- Show a pairing id again. -/
def clearLocalHide (device : Device) (pairingId : String) : Device :=
  if pairingId = "" then device
  else { device with hidden := device.hidden.filter (· ≠ pairingId) }

/-- Show the given id and the one that older pairings of the daemon have. -/
def unhideForDaemon (legacyId : String → String) (device : Device) (did pairingId : String) :
    Device :=
  clearLocalHide (clearLocalHide device pairingId) (legacyId did)

end Hiding

section Reconciliation

/-- The stored order without vanished daemons, then the daemons it misses. -/
def readPointers (device : Device) : Pointers :=
  let order := device.pointers.order.filter (· ∈ device.pointers.map)
  ⟨order ++ device.pointers.map.keys.filter (· ∉ order), device.pointers.map⟩

/-- Store the pointers. -/
def writePointers (device : Device) (pointers : Pointers) : Device :=
  { device with pointers, lastGood := some pointers }

/-- Point a daemon to a pairing id. -/
def setPointer (device : Device) (did pairingId : String) : Device :=
  let pointers := readPointers device
  writePointers device
    ⟨if did ∈ pointers.map then pointers.order else pointers.order ++ [did],
      pointers.map.insert did pairingId⟩

/-- Forget the pointer of a daemon. -/
def dropPointer (device : Device) (did : String) : Device :=
  let pointers := readPointers device
  writePointers device ⟨pointers.order.filter (· ≠ did), pointers.map.erase did⟩

/-- A blob replaces the one kept for its daemon only when it is strictly newer. -/
def replaces (blob existing : PairingBlob) : Bool := !decide (existing.ts ≥ blob.ts)

/-- A later time wins, then the larger pairing id. -/
def isNewer (blob existing : PairingBlob) : Bool :=
  if blob.ts ≠ existing.ts then blob.ts > existing.ts else blob.pairingId > existing.pairingId

/-- Delete a blob that lost and its tombstone. -/
def sweep (device : Device) (pairingId : String) : Device :=
  clearLocalHide { device with records := device.records.remove pairingId } pairingId

/-- The visible blobs of an enumeration. -/
def visible (device : Device) (found : List PairingBlob) : List PairingBlob :=
  found.filter (·.pairingId ∉ device.hidden)

/-- Pointers that follow the kept blobs: known daemons keep their place and, without
a blob, their pointer; a hidden one is not shown; new daemons follow in order. -/
def repoint (hidden : List String) (current : Pointers) (kept : Dict String PairingBlob) :
    Pointers :=
  let known := current.order.foldl (fun (pointers : Pointers) did =>
    match ((kept.lookup did).map PairingBlob.pairingId).or (current.map.lookup did) with
    | some pairingId =>
      if pairingId ∈ hidden then pointers
      else ⟨pointers.order ++ [did], pointers.map.insert did pairingId⟩
    | none => ⟨pointers.order ++ [did], pointers.map⟩) ⟨[], ∅⟩
  (kept.keys.mergeSort (· ≤ ·)).foldl (fun (pointers : Pointers) did =>
    if did ∈ pointers.map then pointers
    else
      match kept.lookup did with
      | some blob => ⟨pointers.order ++ [did], pointers.map.insert did blob.pairingId⟩
      | none => ⟨pointers.order ++ [did], pointers.map⟩) known

/-- Reconcile the pointers with an enumeration of the blobs; `none` stands for a
keychain that cannot be read. -/
def reconciledPointers (device : Device) : Option (List PairingBlob) → Device × Pointers
  | none => (device, device.lastGood.getD (readPointers device))
  | some found =>
    let blobs := visible device found
    let current := readPointers device
    if blobs = [] then
      if current.order = [] then (device, current)
      else ({ device with lastGood := some current }, current)
    else
      let ranking := rank PairingBlob.did replaces blobs
      let swept := (ranking.losers.map PairingBlob.pairingId).foldl sweep device
      let pointers := repoint device.hidden current ranking.best
      (writePointers swept pointers, pointers)

end Reconciliation

section Snapshots

/-- What a phone sends to its watch. -/
structure PairingSnapshot where
  schemaVersion : ℕ
  pairings : List PairingBlob
  floors : Dict String ℤ

/-- The newest schema that this build reads. -/
def currentSchemaVersion : ℕ := 1

/-- What became of a snapshot. -/
inductive PeerSnapshotResult where
  | applied (adopted skippedStale hidden : ℕ) (sweptPending : List String)
  | ignoredSmoke
  | unsupportedSchema (version : ℕ)
  | deferredLocked
  deriving DecidableEq

/-- The newest visible blob of each daemon with the floors above zero; nothing when
the keychain cannot be read. -/
def committedSnapshot (device : Device) (found : Option (List PairingBlob)) :
    Option PairingSnapshot :=
  found.map fun all =>
    let newestByDid := (rank PairingBlob.did isNewer (visible device all)).best
    ⟨currentSchemaVersion, (newestByDid.keys.mergeSort (· ≤ ·)).filterMap newestByDid.lookup,
      retain (fun did floor => decide (floor > 0) && decide (did ∈ newestByDid)) device.sidecars⟩

/-- The pairing ids that a daemon has in the keychain, or else its pointer. -/
def pairingIds (device : Device) (found : Option (List PairingBlob)) (did : String) :
    List String :=
  let fromKeychain := ((found.getD []).filter (·.did = did)).map PairingBlob.pairingId
  if fromKeychain ≠ [] then fromKeychain else ((readPointers device).map.lookup did).toList

/-- Hide a daemon on this device and drop its pending pairings. -/
def hideLocally (device : Device) (found : Option (List PairingBlob)) (did : String) :
    Device × List String :=
  let hidden := (pairingIds device found did).foldl setLocalHidden device
  let dropped := dropPointer hidden did
  ({ dropped with pending := dropped.pending.filter (·.did ≠ did) },
    (dropped.pending.filter (·.did = did)).map Pending.pairingId)

/-- Counts of a snapshot that is being adopted. -/
structure Adoption where
  device : Device
  adopted : ℕ
  skippedStale : ℕ

variable (legacyId : String → String) (platform : Platform)

/-- Adopt one blob of a snapshot, given the blobs that the keychain had before. A
copy of one's own hides the other blobs of the daemon; without one, a blob that is
as new keeps the incoming one out. -/
def adoptBlob (held : List PairingBlob) (adoption : Adoption) (incoming : PairingBlob) :
    Adoption :=
  let same := held.filter (·.did = incoming.did)
  let superseded := same.filter (·.pairingId ≠ incoming.pairingId)
  let hide := fun device : Device =>
    (superseded.map PairingBlob.pairingId).foldl setLocalHidden device
  let shown := unhideForDaemon legacyId adoption.device incoming.did incoming.pairingId
  let device := if ∃ mine ∈ same, mine.pairingId = incoming.pairingId then hide shown else shown
  if ∃ mine ∈ same.find? (·.pairingId = incoming.pairingId), isNewer incoming mine = false then
    { adoption with device }
  else if ∃ old ∈ superseded, isNewer incoming old = false then
    { adoption with device, skippedStale := adoption.skippedStale + 1 }
  else
    let saved := { device with records := device.records.save (platform.saveFails incoming) incoming }
    if platform.saveFails incoming then { adoption with device := saved }
    else
      ⟨hide (setPointer saved incoming.did incoming.pairingId), adoption.adopted + 1,
        adoption.skippedStale⟩

/-- Raise the floors of the daemons that the snapshot shows. -/
def mergeFloors (incoming : Dict String PairingBlob) (device : Device) (floors : Dict String ℤ) :
    Device :=
  floors.entries.foldl (fun device entry =>
    if entry.1 ∈ incoming ∧ entry.2 > (device.sidecars.lookup entry.1).getD 0 then
      { device with sidecars := device.sidecars.insert entry.1 entry.2 }
    else device) device

/-- Hide the shown daemons that the snapshot does not have. -/
def hideAbsent (incoming : Dict String PairingBlob) (device : Device) (shown : List String) :
    Device × List String × ℕ :=
  (shown.filter (· ∉ incoming)).foldl (fun (state : Device × List String × ℕ) did =>
    let outcome := hideLocally state.1 (platform.loadAll (2 + state.2.2) state.1.records) did
    (outcome.1, state.2.1 ++ outcome.2, state.2.2 + 1)) (device, [], 0)

/-- Adopt a snapshot of the phone. -/
def applyPeerSnapshot (smoke : Bool) (device : Device) (snapshot : PairingSnapshot) :
    Device × PeerSnapshotResult :=
  if smoke then (device, .ignoredSmoke)
  else if snapshot.schemaVersion > currentSchemaVersion then
    (device, .unsupportedSchema snapshot.schemaVersion)
  else
    let incoming := (rank PairingBlob.did isNewer snapshot.pairings).best
    match platform.loadAll 0 device.records with
    | none => (device, .deferredLocked)
    | some held =>
      let adoption := (platform.arrange (incoming.keys.filterMap incoming.lookup)).foldl
        (adoptBlob legacyId platform held) ⟨device, 0, 0⟩
      let merged := mergeFloors incoming adoption.device snapshot.floors
      let reconciled := reconciledPointers merged (platform.loadAll 1 merged.records)
      let outcome := hideAbsent platform incoming reconciled.1 reconciled.2.order
      (outcome.1, .applied adoption.adopted adoption.skippedStale outcome.2.2 outcome.2.1)

end Snapshots

end Teleprompter.PairingRecords
