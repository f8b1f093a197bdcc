import Teleprompter.PairingRecords
import Teleprompter.StepRuns

/-!
# Clients of pairings and the floors they raise

A scanned pairing is pending until a hello of its daemon confirms it; a client of
the relay runs for each pending and each committed pairing. Clients raise the floor
of the daemon's version in the record of their phase: in the pending record, found
by pairing id, or in the sidecar, found by daemon. A hello without a confirmation
tag is accepted when no source names version 3.
-/

namespace Teleprompter.PairingLifecycle

open FiniteDictionary PairingRecords

section Store

/-- What a scanned code holds. -/
structure PairingData where
  ps : String
  pk : String
  relay : String
  did : String
  v : ℕ
  /-- Empty in codes before version 4. -/
  pairingId : String
  hostname : String

/-- The pending record of a code. Only version 4 starts at floor 3. -/
def decode (legacyId : String → String) (data : PairingData) (now : ℤ) : Pending where
  pairingId := if data.pairingId = "" then legacyId data.did else data.pairingId
  did := data.did
  ps := data.ps
  pk := data.pk
  relay := data.relay
  v := data.v
  hostname := data.hostname
  floor := if data.v ≥ 4 then 3 else 0
  createdAt := now

/-- The pending record of a pairing id. -/
def pendingOf (device : Device) (pairingId : String) : Option Pending :=
  device.pending.find? (·.pairingId = pairingId)

/-- Store a pending record; one of the same id is overwritten. -/
def persistPending (device : Device) (p : Pending) : Device :=
  { device with
    pending :=
      if ∃ q ∈ device.pending, q.pairingId = p.pairingId then
        device.pending.map fun q => if q.pairingId = p.pairingId then p else q
      else device.pending ++ [p] }

/-- Show the daemon of a code again and store its pending record. The keychain may
refuse the secret. -/
def ingest (legacyId : String → String) (device : Device) (data : PairingData) (now : ℤ)
    (fails : Bool) : Device :=
  let p := decode legacyId data now
  let shown := unhideForDaemon legacyId device p.did p.pairingId
  if fails then shown else persistPending shown p

/-- Drop the pending record of a pairing id. -/
def removePending (device : Device) (pairingId : String) : Device :=
  { device with pending := device.pending.filter (·.pairingId ≠ pairingId) }

/-- Drop the pending records from before the cutoff. -/
def gcPending (device : Device) (cutoff : ℤ) : Device :=
  { device with pending := device.pending.filter (·.createdAt ≥ cutoff) }

/-- Raise the floor of a pending record, if there is one. -/
def raisePendingFloor (device : Device) (pairingId : String) (observedV : ℤ) : Device :=
  { device with
    pending := device.pending.map fun p =>
      if p.pairingId = pairingId ∧ observedV > p.floor then { p with floor := observedV } else p }

/-- Raise the floor in the sidecar of a daemon, if there is one. -/
def raiseCommittedFloor (device : Device) (daemonId : String) (observedV : ℤ) : Device :=
  match device.sidecars.lookup daemonId with
  | some current =>
    if observedV > current then
      { device with sidecars := device.sidecars.insert daemonId observedV }
    else device
  | none => device

/-- The floor in the sidecar of a daemon; zero without one. -/
def committedFloor (device : Device) (daemonId : String) : ℤ :=
  (device.sidecars.lookup daemonId).getD 0

/-- The floor in the record of a phase; zero without a record. -/
def storedFloor (device : Device) (pairingId daemonId : String) (pending : Bool) : ℤ :=
  if pending then ((pendingOf device pairingId).map Pending.floor).getD 0
  else committedFloor device daemonId

/-- Commit a blob: save it, point its daemon to it, show it, delete the daemon's
other blobs and keep the higher floor. Nothing but the save happens when that
fails. -/
def persist (legacyId : String → String) (platform : Platform) (device : Device)
    (blob : PairingBlob) (floor : ℤ) : Device :=
  let saved := { device with records := device.records.save (platform.saveFails blob) blob }
  if platform.saveFails blob then saved
  else
    let shown := unhideForDaemon legacyId (setPointer saved blob.did blob.pairingId) blob.did
      blob.pairingId
    let stale := (pairingIds shown (platform.loadAll 0 shown.records) blob.did).filter
      (· ≠ blob.pairingId)
    let swept := stale.foldl sweep shown
    { swept with
      sidecars := swept.sidecars.insert blob.did (max floor (committedFloor swept blob.did)) }

/-- The blob that a pending record is committed as. -/
def committedBlob (p : Pending) (now : ℤ) : PairingBlob :=
  ⟨p.ps, p.pk, p.relay, p.did, p.v, p.pairingId, p.hostname, now⟩

/-- Commit a pending record and drop it. -/
def promote (legacyId : String → String) (platform : Platform) (device : Device) (p : Pending)
    (now : ℤ) : Device :=
  let persisted := persist legacyId platform device (committedBlob p now) p.floor
  if platform.saveFails (committedBlob p now) then persisted else removePending persisted p.pairingId

/-- Remove a daemon's blobs, its sidecar and its pointer. -/
def remove (legacyId : String → String) (device : Device) (found : Option (List PairingBlob))
    (daemonId : String) : Device :=
  let swept := (pairingIds device found daemonId).foldl sweep device
  let shown := clearLocalHide swept (legacyId daemonId)
  dropPointer { shown with sidecars := shown.sidecars.erase daemonId } daemonId

/-- A pairing as a client holds it. -/
structure Pairing where
  pairingId : String
  daemonId : String
  /-- The floor when the pairing was loaded. -/
  minAdvertisedV : ℤ
  deriving DecidableEq

/-- Load the committed pairing that a daemon is pointed to. Pointers are reconciled
first, with an enumeration of its own. -/
def load (decodes : PairingBlob → Bool) (platform : Platform) (device : Device)
    (daemonId : String) : Device × Option Pairing :=
  let reconciled := reconciledPointers device (platform.loadAll 0 device.records)
  (reconciled.1, do
    let pairingId ← reconciled.2.map.lookup daemonId
    let blobs ← platform.loadAll 1 reconciled.1.records
    let blob ← blobs.find? (·.pairingId = pairingId)
    if decodes blob then
      some ⟨blob.pairingId, blob.did, committedFloor reconciled.1 daemonId⟩
    else none)

/-- Load a pending pairing; its secret may not be readable. -/
def loadPending (device : Device) (readable : Bool) (pairingId : String) : Option Pending :=
  if readable then pendingOf device pairingId else none

/-- Turn records of the old split storage into blobs. Their sidecars exist. -/
def migrateLegacyCommittedRecords (platform : Platform) (device : Device)
    (legacy : List PairingBlob) : Device :=
  legacy.foldl (fun device blob =>
    if blob.did ∈ device.sidecars then
      let saved := { device with records := device.records.save (platform.saveFails blob) blob }
      if platform.saveFails blob then saved else setPointer saved blob.did blob.pairingId
    else device) device

end Store

section Clients

/-- What the app queues for a client. -/
inductive Job where
  | setPairingPhase (pending : Bool)
  | setPromotes (promotes : Bool)
  deriving DecidableEq

/-- A client of the relay. -/
structure Client where
  pairing : Pairing
  isPendingPhase : Bool
  epochAdvertisedV : ℤ
  /-- The confirmation tag that this side derived. -/
  epochPct : Option String
  /-- A confirmation makes the app promote the pairing. -/
  promotes : Bool
  jobs : List Job
  deriving DecidableEq

/-- A new client. Its phase is set before it dials. -/
def Client.open (pairing : Pairing) (pending : Bool) : Client :=
  ⟨pairing, pending, 1, none, pending, []⟩

/-- Raise the floor in the record of the client's phase. -/
def raiseFloor (device : Device) (client : Client) (observedV : ℤ) : Device :=
  if client.isPendingPhase then raisePendingFloor device client.pairing.pairingId observedV
  else raiseCommittedFloor device client.pairing.daemonId observedV

/-- The highest version that the epoch, the loaded pairing or the record names. -/
def effectiveV (device : Device) (client : Client) : ℤ :=
  max client.epochAdvertisedV (max client.pairing.minAdvertisedV
    (storedFloor device client.pairing.pairingId client.pairing.daemonId client.isPendingPhase))

/-- How a hello decides a promotion. -/
inductive Decision where
  | confirmed
  | mismatch (detail : String)
  | legacyCommit
  | pctMissing
  deriving DecidableEq

/-- Decide a promotion from the tag of a hello. -/
def resolvePromotion (device : Device) (client : Client) (helloPct : Option String) :
    Device × Decision :=
  match helloPct with
  | some pct =>
    (raiseFloor device client (max (effectiveV device client) 3),
      if client.epochPct = some pct then .confirmed
      else .mismatch (if client.epochPct = none then "no-local-pct" else "pct-mismatch"))
  | none => (device, if effectiveV device client < 3 then .legacyCommit else .pctMissing)

/-- The decisions that report a confirmed pairing. -/
def Decision.confirms : Decision → Bool
  | .confirmed => true
  | .legacyCommit => true
  | .mismatch _ => false
  | .pctMissing => false

end Clients

section App

/-- A device, its clients since launch and the promotions that wait for the main
thread. Clients are named by their position; a disposed one can still handle a
frame that was queued. -/
structure App where
  device : Device
  pool : List Client
  /-- By daemon. -/
  clients : Dict String ℕ
  /-- By pairing id. -/
  pendingClients : Dict String ℕ
  promotions : List String
  migrated : Bool

/-- An app before its first client. -/
def App.start (device : Device) (migrated : Bool) : App := ⟨device, [], ∅, ∅, [], migrated⟩

/-- What happens to an app. -/
inductive Event where
  /-- A client reads the daemon's key exchange and derives its tag. -/
  | kx (client : ℕ) (v : Option ℤ) (pct : Option String)
  | hello (client : ℕ) (pct : Option String)
  /-- A client takes its next job. -/
  | job (client : ℕ)
  /-- The main thread takes the next promotion; the secret is read twice. -/
  | promoteConfirmed (platform : Platform) (readable readableAgain : Bool) (now : ℤ)
  | scan (data : PairingData) (now : ℤ) (fails : Bool)
  | beginPending (pairingId : String) (readable : Bool)
  | connect (platform : Platform) (daemonId : String)
  | cancelPending (pairingId : String)
  | hideLocally (found : Option (List PairingBlob)) (daemonId : String)
  | remove (found : Option (List PairingBlob)) (daemonId : String)
  /-- Another device changes the shared blobs. -/
  | sync (records : RecordStore)
  | snapshot (platform : Platform) (smoke : Bool) (incoming : PairingSnapshot)
  /-- The app starts again, with the old records it can read. -/
  | relaunch (platform : Platform) (cutoff : ℤ) (legacy : List PairingBlob)

/-- A key exchange sets the version of the epoch and raises the floor. -/
def onKeyExchangeFrame (app : App) (i : ℕ) (v : Option ℤ) (pct : Option String) : App :=
  match app.pool[i]? with
  | some client =>
    let keyed := { client with epochAdvertisedV := v.getD 1, epochPct := pct }
    { app with
      device := raiseFloor app.device keyed keyed.epochAdvertisedV
      pool := app.pool.set i keyed }
  | none => app

/-- A hello decides the promotion; a confirmation queues it while the client is
wired to promote. -/
def onHello (app : App) (i : ℕ) (pct : Option String) : App :=
  match app.pool[i]? with
  | some client =>
    let decided := resolvePromotion app.device client pct
    { app with
      device := decided.1
      promotions :=
        if decided.2.confirms && client.promotes then
          app.promotions ++ [client.pairing.pairingId]
        else app.promotions }
  | none => app

/-- Take the next job. -/
def Client.takeJob (client : Client) : Client :=
  match client.jobs with
  | [] => client
  | .setPairingPhase pending :: rest => { client with isPendingPhase := pending, jobs := rest }
  | .setPromotes promotes :: rest => { client with promotes, jobs := rest }

/-- A client takes its next job. -/
def onJob (app : App) (i : ℕ) : App :=
  match app.pool[i]? with
  | some client => { app with pool := app.pool.set i client.takeJob }
  | none => app

/-- Queue the change to the committed phase. -/
def Client.rewire (client : Client) : Client :=
  { client with jobs := client.jobs ++ [.setPairingPhase false, .setPromotes false] }

/-- Promote a pending pairing and move its client to the committed ones. -/
def promoteConfirmed (legacyId : String → String) (platform : Platform)
    (readable readableAgain : Bool) (now : ℤ) (app : App) (pairingId : String) : App :=
  match app.pendingClients.lookup pairingId with
  | none => app
  | some i =>
    match loadPending app.device readable pairingId with
    | none => { app with pendingClients := app.pendingClients.erase pairingId }
    | some p =>
      if readableAgain then
        let device := promote legacyId platform app.device p now
        if platform.saveFails (committedBlob p now) then { app with device }
        else
          { app with
            device
            pool := app.pool.modify i Client.rewire
            clients := app.clients.insert p.did i
            pendingClients := app.pendingClients.erase pairingId }
      else app

/-- Run a client for a pending pairing, unless one runs. -/
def beginPending (app : App) (pairingId : String) (readable : Bool) : App :=
  if pairingId ∈ app.pendingClients then app
  else
    match loadPending app.device readable pairingId with
    | none => app
    | some p =>
      { app with
        pool := app.pool ++ [Client.open ⟨p.pairingId, p.did, p.floor⟩ true]
        pendingClients := app.pendingClients.insert pairingId app.pool.length }

/-- Run a client for a committed pairing. -/
def connect (decodes : PairingBlob → Bool) (app : App) (platform : Platform) (daemonId : String) :
    App :=
  let loaded := load decodes platform app.device daemonId
  match loaded.2 with
  | none => { app with device := loaded.1 }
  | some pairing =>
    { app with
      device := loaded.1
      pool := app.pool ++ [Client.open pairing false]
      clients := app.clients.insert daemonId app.pool.length }

/-- The pending clients that are left after some are disposed. -/
def dispose (pendingClients : Dict String ℕ) (swept : List String) : Dict String ℕ :=
  swept.foldl (fun left pairingId => left.erase pairingId) pendingClients

/-- One event. -/
def step (legacyId : String → String) (decodes : PairingBlob → Bool) (app : App) : Event → App
  | .kx i v pct => onKeyExchangeFrame app i v pct
  | .hello i pct => onHello app i pct
  | .job i => onJob app i
  | .promoteConfirmed platform readable readableAgain now =>
    match app.promotions with
    | [] => app
    | pairingId :: rest =>
      promoteConfirmed legacyId platform readable readableAgain now
        { app with promotions := rest } pairingId
  | .scan data now fails => { app with device := ingest legacyId app.device data now fails }
  | .beginPending pairingId readable => beginPending app pairingId readable
  | .connect platform daemonId => connect decodes app platform daemonId
  | .cancelPending pairingId =>
    { app with
      device := removePending app.device pairingId
      pendingClients := app.pendingClients.erase pairingId }
  | .hideLocally found daemonId =>
    let outcome := PairingRecords.hideLocally app.device found daemonId
    { app with
      device := outcome.1
      clients := app.clients.erase daemonId
      pendingClients := dispose app.pendingClients outcome.2 }
  | .remove found daemonId =>
    { app with
      device := remove legacyId app.device found daemonId
      clients := app.clients.erase daemonId }
  | .sync records => { app with device := { app.device with records } }
  | .snapshot platform smoke incoming =>
    let outcome := applyPeerSnapshot legacyId platform smoke app.device incoming
    { app with
      device := outcome.1
      pendingClients :=
        match outcome.2 with
        | .applied _ _ _ swept => dispose app.pendingClients swept
        | _ => app.pendingClients }
  | .relaunch platform cutoff legacy =>
    let stored := { app.device with lastGood := none }
    let migrated :=
      if app.migrated then stored else migrateLegacyCommittedRecords platform stored legacy
    App.start (gcPending migrated cutoff) true

end App

end Teleprompter.PairingLifecycle
