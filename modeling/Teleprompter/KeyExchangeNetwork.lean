import Teleprompter.KeyedQueues
import Teleprompter.KeyExchange
import Teleprompter.RelayEffects

/-!
# The key exchange across the relay

One daemon client, the relay and any number of app clients of that daemon.
Every connection carries messages in order in each direction, and may break
at any time. The relay decides on an auth by itself, so an accepted auth is
an event; what follows from it, the group membership and the routing of
key-exchange messages, is the relay's own code. Clients read one message at a
time. Each step also returns marks of what happened in it, which a run
collects; nothing reads the marks back.
-/

namespace Teleprompter.KeyExchangeNetwork

open FiniteDictionary KeyedQueues PairingCrypto RelayServer KeyExchange
open RelayEffects

/-- Who opened a connection. -/
inductive Party where
  | daemon
  | app (frontendId : String)
  deriving DecidableEq

/-- The role a party authenticates with. -/
def Party.role : Party → Role
  | .daemon => .daemon
  | .app _ => .frontend

/-- The frontend id a party authenticates with. -/
def Party.frontendId : Party → Option String
  | .daemon => none
  | .app frontendId => some frontendId

/-- Messages of the relay that matter to an exchange. -/
inductive KxDown where
  | authOk (resumed : Bool)
  | kxFrame (ct : String) (sender : Role)
  deriving DecidableEq

/-- What happened in a step. -/
inductive KxMark where
  | appSent (frontendId : String) (payload : KxPayload)
  | appKeyed (frontendId : String)
  | daemonSent
  | daemonProcessed (frontendId : String) (payload : KxPayload)
  | daemonStarted
  deriving DecidableEq

/-- The clients, the relay, and the messages in flight. -/
structure KxSystem (suite : CryptoSuite) where
  /-- Relay state behind the lock. -/
  relay : RelayCore
  /-- The party behind a connection. -/
  owner : Dict ConnId Party
  /-- Next unused connection identifier. -/
  nextConnId : ConnId
  /-- Sealed key exchanges on their way to the relay. -/
  up : Queues ConnId String
  /-- Messages on their way to the clients. -/
  down : Queues ConnId KxDown
  /-- The daemon's client. -/
  daemon : DaemonClient
  /-- App clients by frontend id. -/
  apps : Dict String (AppClient suite)

variable {suite : CryptoSuite}

/-- The client of a frontend; one that never connected is initial. -/
def KxSystem.app (s : KxSystem suite) (frontendId : String) : AppClient suite :=
  (s.apps.lookup frontendId).getD (AppClient.initial suite)

/-- Store the client of a frontend. -/
def KxSystem.setApp (s : KxSystem suite) (frontendId : String) (client : AppClient suite) :
    KxSystem suite :=
  { s with apps := s.apps.insert frontendId client }

/-- Nothing is connected yet. -/
def KxSystem.initial (suite : CryptoSuite) : KxSystem suite :=
  { relay := RelayCore.empty (RecentFrames.withCacheAndKeyCap 10 256) 0
    owner := ∅
    nextConnId := 1
    up := []
    down := []
    daemon := DaemonClient.initial
    apps := ∅ }

/-- What can happen. Seeds and nonces are drawn by the handler of the event;
a resumed auth and the answer of the rate limiters are the relay's. -/
inductive KxEvent where
  | daemonConnect
  | daemonRestart
  | appConnect (frontendId : String)
  | appDisconnect (frontendId : String)
  | appReceiveFailure (frontendId : String)
  | relayAuth (connId : ConnId) (resumed : Bool)
  | relayReceive (connId : ConnId) (admitted : Bool)
  | relayClose (connId : ConnId) (now : ℕ)
  | lost (connId : ConnId)
  | daemonReceive (nonce : Nonce)
  | appReceive (frontendId : String) (connId : ConnId) (seed : Key) (nonce : Nonce)

/-- A new connection of a party reaches the relay. -/
def KxSystem.accept (party : Party) (s : KxSystem suite) : KxSystem suite :=
  { s with
    relay := { s.relay with conns := s.relay.conns.insert s.nextConnId ConnHandle.fresh }
    owner := s.owner.insert s.nextConnId party
    nextConnId := s.nextConnId + 1 }

/-- Put what a client sends on a socket; without a socket it is dropped. -/
def KxSystem.sendUp (socket : Option ConnId) (ct : Option String) (s : KxSystem suite) :
    KxSystem suite :=
  match socket, ct with
  | some connId, some ct => { s with up := s.up ++ [(connId, ct)] }
  | _, _ => s

/-- The key-exchange frames among the relay's actions. -/
def kxDeliveries (actions : List Action) : Queues ConnId KxDown :=
  actions.filterMap fun
    | .send target (.keyExchangeFrame ct sender) => some (target, .kxFrame ct sender)
    | _ => none

/-- What the relay forwards of one sealed key exchange. -/
def relayForward (core : RelayCore) (connId : ConnId) (admitted : Bool) (ct : String) :
    Queues ConnId KxDown :=
  match core.authedState connId with
  | none => []
  | some client => if admitted then kxDeliveries (routeKeyExchange core connId client ct) else []

variable (config : DaemonConfig suite)

/-- The daemon handles one message: its client, its answer, and the marks. -/
def daemonHandle (client : DaemonClient) (nonce : Nonce) :
    KxDown → DaemonClient × Option String × List KxMark
  | .authOk resumed =>
    let handled := handleAuthOk config client resumed nonce
    (handled.1, handled.2, handled.2.toList.map fun _ => .daemonSent)
  | .kxFrame ct sender =>
    let handled := handleKxFrame config client sender ct nonce
    (handled.1, handled.2, (handled.2.toList.map fun _ => .daemonSent) ++
      (readKxFrame suite client sender ct).toList.map fun read =>
        .daemonProcessed read.2.1 read.1)

/-- The mark of an exchange the app has just started. -/
def startedMark (frontendId : String) (client : AppClient suite) : List KxMark :=
  client.kxKeyPair.toList.map fun keyPair =>
    .appSent frontendId (appPayload suite frontendId keyPair.publicKey)

/-- An app handles one message: its client, what it sends, and the marks. -/
def appHandle (pairing : Pairing) (frontendId : String) (client : AppClient suite) (seed : Key)
    (nonce : Nonce) : KxDown → AppClient suite × Option String × List KxMark
  | .authOk _ =>
    let handled := startKeyExchange pairing frontendId client seed nonce
    (handled.1, some handled.2, startedMark frontendId handled.1)
  | .kxFrame ct sender =>
    let handled := onKeyExchangeFrame pairing frontendId client sender ct seed nonce
    (handled.1, handled.2,
      ((acceptDaemonKx pairing client sender ct).toList.map fun _ => .appKeyed frontendId) ++
        if handled.2.isSome then startedMark frontendId handled.1 else [])

/-- One event: the next state, and its marks with the latest first. -/
def kxStepMarks (s : KxSystem suite) : KxEvent → KxSystem suite × List KxMark
  | .daemonConnect =>
    ({ s.accept .daemon with daemon := s.daemon.connect config s.nextConnId }, [])
  | .daemonRestart => ({ s with daemon := DaemonClient.initial }, [.daemonStarted])
  | .appConnect frontendId =>
    let connected := (s.app frontendId).connectOnQueue s.nextConnId
    let next := if connected.2 then s.accept (.app frontendId) else s
    (next.setApp frontendId connected.1, [])
  | .appDisconnect frontendId => (s.setApp frontendId (s.app frontendId).disconnectOnQueue, [])
  | .appReceiveFailure frontendId =>
    (s.setApp frontendId (s.app frontendId).scheduleReconnect, [])
  | .relayAuth connId resumed =>
    match s.owner.lookup connId with
    | none => (s, [])
    | some party =>
      ({ s with
        relay := registerAuthedConn s.relay connId
          ⟨party.role, config.daemonId, party.frontendId, ∅⟩
        down := s.down ++ [(connId, .authOk resumed)] }, [])
  | .relayReceive connId admitted =>
    match pop connId s.up with
    | none => (s, [])
    | some (ct, rest) =>
      ({ s with up := rest, down := s.down ++ relayForward s.relay connId admitted ct }, [])
  | .relayClose connId now => ({ s with relay := (closeConn s.relay connId now).1 }, [])
  | .lost connId => ({ s with up := lose connId s.up, down := lose connId s.down }, [])
  | .daemonReceive nonce =>
    match s.daemon.socket.bind fun connId => pop connId s.down with
    | none => (s, [])
    | some (msg, rest) =>
      let handled := daemonHandle config s.daemon nonce msg
      ({ s with down := rest, daemon := handled.1 }.sendUp s.daemon.socket handled.2.1,
        handled.2.2)
  | .appReceive frontendId connId seed nonce =>
    if s.owner.lookup connId = some (.app frontendId) then
      match pop connId s.down with
      | none => (s, [])
      | some (msg, rest) =>
        let handled := appHandle config.toPairing frontendId (s.app frontendId) seed nonce msg
        (({ s with down := rest }.setApp frontendId handled.1).sendUp
          (s.app frontendId).task handled.2.1, handled.2.2)
    else (s, [])

/-- The state after one event. -/
def kxStep (s : KxSystem suite) (e : KxEvent) : KxSystem suite := (kxStepMarks config s e).1

end Teleprompter.KeyExchangeNetwork
