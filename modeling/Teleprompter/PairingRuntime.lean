import Teleprompter.PairingOrchestrator

/-!
# Pairing requests of several command lines

The daemon serves pairing requests of many command-line connections with one
orchestrator behind a lock. A begin runs in a task of its own: it waits for the
lock, holds it while the relay connects, records the connection as the owner
and then polls the slot until the pairing has ended. Cancel requests and
disconnects of the owner spawn tasks that cancel. Everything between two locks
is one step here. What a pairing was begun for and how it ended is noted
beside the state, by the client that its begin created.
-/

namespace Teleprompter.PairingRuntime

open FiniteDictionary PairingCrypto RelayServer KeyExchange PairingOrchestrator

/-- A connection of a command line. -/
abbrev CliId := ℕ

/-- Messages to a command line. -/
inductive PairFrame where
  | beginOk (info : BeginOutcome)
  | beginErr (err : BeginPairingError)
  | completed (pairingId daemonId : String) (label : Label)
  | cancelled (pairingId : String)
  | error (pairingId message : String)
  deriving DecidableEq

/-- The message ends a pairing. -/
def PairFrame.isTerminal : PairFrame → Bool
  | .completed .. => true
  | .cancelled _ => true
  | .error .. => true
  | _ => false

/-- A message that was sent. -/
structure SentFrame where
  cli : CliId
  /-- The client of the begin it is about. -/
  client : Option ClientId
  frame : PairFrame
  deriving DecidableEq

/-- How a pairing left the slot. -/
inductive Outcome where
  | promoted
  /-- Promoted, but not saved. -/
  | unsaved
  | cancelled
  | cleared
  deriving DecidableEq

/-- Where a begin stands. -/
inductive PairStage (KeyPair : Type) where
  /-- Waits for the lock. -/
  | queued
  /-- Holds the lock and waits for the relay. -/
  | connecting (client : ClientId) (pp : PendingPairing KeyPair)
  /-- The pairing has the slot; its owner is not recorded yet. -/
  | begun (client : ClientId) (info : BeginOutcome)
  /-- Polls the slot. -/
  | watching (client : ClientId) (info : BeginOutcome)
  /-- Saw no pairing in the slot. -/
  | gone (client : ClientId) (info : BeginOutcome)
  /-- Promoted the pairing in the slot. -/
  | promoted (client : ClientId) (info : BeginOutcome) (label : Label)
  /-- The promotion was not saved. -/
  | removing (client : ClientId) (info : BeginOutcome) (message : String)
  | clearing (client : ClientId) (info : BeginOutcome) (message : String)
  /-- The end was told. -/
  | finished (client : ClientId) (info : BeginOutcome) (frame : PairFrame)
  /-- The begin failed. -/
  | refused

/-- A spawned task. -/
inductive RuntimeTask (KeyPair : Type) where
  | pairing (cli : CliId) (request : BeginRequest) (stage : PairStage KeyPair)
  /-- A cancel that waits for the lock. -/
  | cancelling (cli : CliId) (pairingId : Option String)
  | done

/-- The daemon's side of pairing. -/
structure Runtime (KeyPair : Type) where
  orch : Orchestrator KeyPair
  owner : Option CliId
  /-- Error of the last save that failed and was not reported. -/
  lastSaveError : Option String
  /-- Daemon ids of clients. -/
  daemonIds : Dict ClientId String
  /-- Open connections. -/
  clis : List CliId
  nextCli : CliId
  tasks : List (RuntimeTask KeyPair)
  sent : List SentFrame
  /-- Which connection a client was created for. -/
  beganBy : Dict ClientId CliId
  /-- How the pairing of a client left the slot. -/
  outcomes : Dict ClientId Outcome

variable {KeyPair : Type}

/-- Nothing was requested yet. -/
def Runtime.initial : Runtime KeyPair := ⟨.initial, none, none, ∅, [], 0, [], [], ∅, ∅⟩

/-- What is delivered to a task that goes on. -/
structure Draws (KeyPair : Type) where
  begin : BeginDraws KeyPair
  /-- Why a save fails. -/
  saveError : Option String

/-- What can happen. -/
inductive RuntimeEvent (KeyPair : Type) where
  | accept
  | beginRequest (cli : CliId) (request : BeginRequest)
  | cancelRequest (cli : CliId) (pairingId : String)
  | disconnect (cli : CliId)
  | join (client : ClientId) (frontendId : String)
  | advance (task : ℕ) (draws : Draws KeyPair)

/-- The stage waits for the relay with the lock. -/
def PairStage.isConnecting : PairStage KeyPair → Bool
  | .connecting .. => true
  | _ => false

/-- The task holds the orchestrator. -/
def RuntimeTask.holdsLock : RuntimeTask KeyPair → Bool
  | .pairing _ _ stage => stage.isConnecting
  | _ => false

/-- Some task holds the orchestrator. -/
def Runtime.locked (s : Runtime KeyPair) : Bool := s.tasks.any RuntimeTask.holdsLock

/-- The client of the pairing in the slot. -/
def slotClient (orch : Orchestrator KeyPair) : Option ClientId :=
  orch.pending.bind PendingPairing.relay

/-- Send a message. -/
def Runtime.send (s : Runtime KeyPair) (cli : CliId) (client : Option ClientId)
    (frame : PairFrame) : Runtime KeyPair :=
  { s with sent := s.sent ++ [⟨cli, client, frame⟩] }

/-- Spawn a task. -/
def Runtime.spawn (s : Runtime KeyPair) (task : RuntimeTask KeyPair) : Runtime KeyPair :=
  { s with tasks := s.tasks ++ [task] }

/-- The orchestrator after a call; a pairing that left the slot has the given
outcome. -/
def Runtime.setOrch (s : Runtime KeyPair) (orch : Orchestrator KeyPair) (outcome : Outcome) :
    Runtime KeyPair :=
  { s with
    orch := orch
    outcomes := match slotClient s.orch with
      | some client =>
        if orch.pending.isNone then s.outcomes.insert client outcome else s.outcomes
      | none => s.outcomes }

/-- Forget the owner if it is this connection. -/
def Runtime.clearOwnerIf (s : Runtime KeyPair) (cli : CliId) : Runtime KeyPair :=
  if s.owner = some cli then { s with owner := none } else s

/-- Remove a pairing that was not saved: its row, and the first pooled client
of its daemon id. -/
def Runtime.removePairing (s : Runtime KeyPair) (daemonId : String) : Runtime KeyPair :=
  let client := s.orch.pool.find? fun client => s.daemonIds.lookup client = some daemonId
  { s with
    orch := { s.orch with
      saved := s.orch.saved.filter (·.daemonId ≠ daemonId)
      pool := client.elim s.orch.pool s.orch.pool.erase
      disposed := s.orch.disposed ++ client.toList } }

/-- One poll of the slot. -/
def Runtime.poll (s : Runtime KeyPair) (client : ClientId) (info : BeginOutcome)
    (saveError : Option String) : Runtime KeyPair × PairStage KeyPair :=
  let waited := s.orch.waitForJoin
  match waited.resolved with
  | some (.completed completed) =>
    ({ s.setOrch (waited.promote completed saveError.isNone)
        (if saveError.isNone then .promoted else .unsaved) with
        lastSaveError := saveError.or s.lastSaveError }, .promoted client info completed.label)
  | some .cancelled => ({ s with orch := waited }, .gone client info)
  | none =>
    ({ s with orch := waited },
      if waited.pending.isSome then .watching client info else .gone client info)

section Step

variable (deriveRegistrationProof : Bytes → String)

/-- A begin goes on. -/
def Runtime.advancePairing (s : Runtime KeyPair) (cli : CliId) (request : BeginRequest)
    (draws : Draws KeyPair) : PairStage KeyPair → Runtime KeyPair × PairStage KeyPair
  | .queued =>
    if s.locked then (s, .queued)
    else
      match s.orch.beginCreate deriveRegistrationProof request draws.begin with
      | (orch, .ok pp) =>
        ({ s with
            orch := orch
            daemonIds := s.daemonIds.insert s.orch.next pp.opts.daemonId
            beganBy := s.beganBy.insert s.orch.next cli }, .connecting s.orch.next pp)
      | (orch, .error err) => ({ s with orch := orch }.send cli none (.beginErr err), .refused)
  | .connecting client pp =>
    match s.orch.beginConnected pp with
    | (orch, .ok info) => ({ s with orch := orch }, .begun client info)
    | (orch, .error err) => ({ s with orch := orch }.send cli none (.beginErr err), .refused)
  | .begun client info =>
    ({ s with owner := some cli }.send cli (some client) (.beginOk info), .watching client info)
  | .watching client info =>
    if s.locked then (s, .watching client info) else s.poll client info draws.saveError
  | .gone client info =>
    ((s.clearOwnerIf cli).send cli (some client) (.cancelled info.pairingId),
      .finished client info (.cancelled info.pairingId))
  | .promoted client info label =>
    match s.lastSaveError with
    | none =>
      ((s.clearOwnerIf cli).send cli (some client)
          (.completed info.pairingId info.daemonId label),
        .finished client info (.completed info.pairingId info.daemonId label))
    | some message =>
      ({ s.clearOwnerIf cli with lastSaveError := none }, .removing client info message)
  | .removing client info message =>
    (s.removePairing info.daemonId, .clearing client info message)
  | .clearing client info message =>
    if s.locked then (s, .clearing client info message)
    else
      ((s.setOrch s.orch.clearPending .cleared).send cli (some client)
          (.error info.pairingId message),
        .finished client info (.error info.pairingId message))
  | .finished client info frame => (s, .finished client info frame)
  | .refused => (s, .refused)

/-- A task goes on. -/
def Runtime.advanceTask (s : Runtime KeyPair) (draws : Draws KeyPair) :
    RuntimeTask KeyPair → Runtime KeyPair × RuntimeTask KeyPair
  | .pairing cli request stage =>
    let next := s.advancePairing deriveRegistrationProof cli request draws stage
    (next.1, .pairing cli request next.2)
  | .cancelling cli pairingId =>
    if s.locked then (s, .cancelling cli pairingId)
    else (s.setOrch (s.orch.cancel pairingId) .cancelled, .done)
  | .done => (s, .done)

/-- One event. Requests come from open connections only. -/
def runtimeStep (s : Runtime KeyPair) : RuntimeEvent KeyPair → Runtime KeyPair
  | .accept => { s with clis := s.clis ++ [s.nextCli], nextCli := s.nextCli + 1 }
  | .beginRequest cli request =>
    if cli ∈ s.clis then s.spawn (.pairing cli request .queued) else s
  | .cancelRequest cli pairingId =>
    if cli ∈ s.clis ∧ (s.owner = none ∨ s.owner = some cli) then
      s.spawn (.cancelling cli (some pairingId))
    else s
  | .disconnect cli =>
    if cli ∈ s.clis then
      let closed := { s with clis := s.clis.erase cli }
      if s.owner = some cli then { closed with owner := none }.spawn (.cancelling cli none)
      else closed
    else s
  | .join client frontendId => { s with orch := s.orch.record client frontendId }
  | .advance i draws =>
    match s.tasks[i]? with
    | some task =>
      let next := s.advanceTask deriveRegistrationProof draws task
      { next.1 with tasks := next.1.tasks.set i next.2 }
    | none => s

end Step

/-- The client that a begin created. -/
def PairStage.client : PairStage KeyPair → Option ClientId
  | .queued => none
  | .connecting client _ => some client
  | .begun client _ => some client
  | .watching client _ => some client
  | .gone client _ => some client
  | .promoted client _ _ => some client
  | .removing client _ _ => some client
  | .clearing client _ _ => some client
  | .finished client _ _ => some client
  | .refused => none

/-- The state after a task went on. -/
def Runtime.replace (s : Runtime KeyPair) (i : ℕ) (task : RuntimeTask KeyPair) : Runtime KeyPair :=
  { s with tasks := s.tasks.set i task }

section Sample

/-- Registration proof of the sample secret. -/
def sampleProof (_ : Bytes) : String :=
  "8d7ce50fce88b252f47c151e40891e078bc0e9d57bf3731caece9c9110d754cb"

/-- A bundle with the sample keys. -/
def sampleBundle : PairingBundle (Key × Key) where
  keyPair := (sampleDaemonPublic, sampleDaemonSecret)
  pairingSecret := samplePairingSecret
  relayToken := "949e83cc716ed62b122ad37187e69c0fdac0b2b975fc761ca0064702dafb3b7f"
  pairingId := samplePairingId.text
  hostname := "host"
  qrString := "tp://p?d=dHAE"

/-- What is delivered at time 1. -/
def sampleDraws (suffix : ℕ) : Draws (Key × Key) :=
  ⟨⟨1, 1, suffix, some "host", .ok sampleBundle⟩, none⟩

/-- A begin with a daemon id. -/
def sampleRequest (daemonId : String) : BeginRequest := ⟨"wss://relay", some daemonId, none⟩

/-- A task goes on a number of times. -/
def goesOn (task times : ℕ) : List (RuntimeEvent (Key × Key)) :=
  List.replicate times (.advance task (sampleDraws task))

end Sample

end Teleprompter.PairingRuntime
