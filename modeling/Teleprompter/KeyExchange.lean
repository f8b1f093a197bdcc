import Teleprompter.FiniteDictionary
import Teleprompter.PairingCrypto
import Teleprompter.RelayServer

/-!
# Key exchange of the two relay clients

The daemon keeps one key pair for the life of a pairing and one peer entry
per frontend; the app draws a fresh key pair per exchange. Each handler below
handles one relay message and returns the client and the envelope it sends,
if any. Random seeds and nonces are inputs: the system generator delivers
them. A daemon label in the payload and the protocol floor of the pairing
store do not influence the exchange and are left out.

There is one client object per pairing. A client joins the daemon's pool when its
pairing is added or promoted and leaves when the pairing is removed; its connection
and its peers change at any time. Other code sees snapshots of the pool.
-/

namespace Teleprompter.KeyExchange

open FiniteDictionary PairingCrypto RelayServer

/-- What both sides store of a pairing. -/
structure Pairing where
  /-- Identity of the pairing. -/
  pairingId : PairingId
  /-- The daemon, which is also its relay group. -/
  daemonId : String
  /-- Host name shown at pairing time. -/
  hostname : String
  /-- Secret shared through the pairing bundle. -/
  pairingSecret : Bytes

/-- Protocol version both sides advertise. -/
def wsProtocolVersion : ℚ := 3

variable (suite : CryptoSuite)

/-- Configuration of the daemon's relay client. -/
structure DaemonConfig extends Pairing where
  /-- The stored key pair; a restart loads the same one. -/
  keyPair : KxKeyPair suite

/-- What the daemon holds of one frontend. -/
structure FrontendPeer where
  /-- The frontend's key of the last exchange. -/
  publicKey : Key
  /-- Session keys of the last exchange. -/
  sessionKeys : SessionKeys
  /-- Version the frontend advertised. -/
  protocolVersion : ℚ
  /-- Confirmation tag of the last exchange. -/
  pct : Option Key
  /-- Its base64 text. -/
  pctB64 : Option String
  deriving DecidableEq

/-- The daemon's relay client. -/
structure DaemonClient where
  /-- Envelope key, derived at the first connect. -/
  kxKey : Option Key
  /-- Socket of the current generation. -/
  socket : Option ConnId
  /-- The relay accepted this connection. -/
  authenticated : Bool
  /-- Frontend id to its peer entry. -/
  peers : Dict String FrontendPeer

/-- A daemon client before its first connect. -/
def DaemonClient.initial : DaemonClient := ⟨none, none, false, ∅⟩

/-- The app's relay client of one pairing. -/
structure AppClient where
  /-- The owner wants this client connected. -/
  wantsConnection : Bool
  /-- The live socket. -/
  task : Option ConnId
  /-- A reconnect is already scheduled. -/
  reconnectTimer : Bool
  /-- Key pair of the current exchange. -/
  kxKeyPair : Option (KxKeyPair suite)
  /-- Session keys, once a daemon key arrived. -/
  sessionKeys : Option SessionKeys
  /-- Confirmation tag of the current exchange. -/
  epochPctB64 : Option String
  /-- Version the daemon advertised. -/
  epochAdvertisedV : ℤ
  /-- A hello arrived on these keys. -/
  helloReceived : Bool
  /-- The first session was attached automatically. -/
  didAutoAttach : Bool

/-- An app client before its first connect. -/
def AppClient.initial : AppClient suite := ⟨false, none, false, none, none, none, 1, false, false⟩

variable {suite}

section Daemon

variable (config : DaemonConfig suite)

/-- Payload of the daemon's public-key broadcast. -/
def daemonPayload : KxPayload :=
  ⟨some (suite.toBase64 config.keyPair.publicKey.bytes), none, some wsProtocolVersion⟩

/-- The sealed broadcast; nothing before the first connect. -/
def broadcastDaemonPublicKey (client : DaemonClient) (nonce : Nonce) : Option String :=
  client.kxKey.map fun key => sealBlob suite (suite.encodeKx (daemonPayload config)) key nonce

/-- Connect on a fresh socket. -/
def DaemonClient.connect (socket : ConnId) (client : DaemonClient) : DaemonClient :=
  { client with
    kxKey := some (client.kxKey.getD (deriveKxKey suite config.pairingSecret))
    socket := some socket
    authenticated := false }

/-- An accepted auth: broadcast the key unless a resumed connection still
has peers. -/
def handleAuthOk (client : DaemonClient) (resumed : Bool) (nonce : Nonce) :
    DaemonClient × Option String :=
  ({ client with authenticated := true },
    if resumed ∧ client.peers.keys ≠ [] then none
    else broadcastDaemonPublicKey config client nonce)

/-- The frontend and public key of a payload: both texts non-empty, the key
32 bytes. -/
def acceptPayload (suite : CryptoSuite) (payload : KxPayload) : Option (String × Key) :=
  match payload.pk, payload.frontendId with
  | some pk, some frontendId =>
    if pk = "" ∨ frontendId = "" then none
    else ((suite.fromBase64 pk).bind (FixedBytes.ofBytes 32)).map fun key => (frontendId, key)
  | _, _ => none

/-- A frontend's envelope, opened and checked. -/
def readKxFrame (suite : CryptoSuite) (client : DaemonClient) (sender : Role) (ct : String) :
    Option (KxPayload × String × Key) :=
  if sender ≠ .frontend then none
  else (client.kxKey.bind (openBlob suite ct)).bind fun plaintext =>
    (suite.decodeKx plaintext).bind fun payload =>
      (acceptPayload suite payload).map fun accepted => (payload, accepted)

/-- The daemon's tag of an exchange; a pairing without an id has none. -/
def daemonPct (frontendPubKey : Key) (keys : SessionKeys) : Option Key :=
  if config.pairingId.text = "" then none
  else (parseUuid16 config.pairingId.text).map fun raw =>
    derivePairingConfirmationTag suite raw config.daemonId config.hostname
      config.keyPair.publicKey frontendPubKey keys.tx keys.rx

/-- The peer entry of a frontend key. -/
def frontendPeer (frontendPubKey : Key) (v : Option ℚ) : FrontendPeer :=
  let keys := kxServerSessionKeys suite config.keyPair.publicKey config.keyPair.secretKey
    frontendPubKey
  let pct := daemonPct config frontendPubKey keys
  { publicKey := frontendPubKey
    sessionKeys := keys
    protocolVersion := v.getD 1
    pct := pct
    pctB64 := pct.map fun tag => suite.toBase64 tag.bytes }

/-- A frontend's key exchange: replace its peer entry and answer with the
daemon's key. -/
def handleKxFrame (client : DaemonClient) (sender : Role) (ct : String) (nonce : Nonce) :
    DaemonClient × Option String :=
  match readKxFrame suite client sender ct with
  | none => (client, none)
  | some (payload, frontendId, key) =>
    let joined := { client with
      peers := client.peers.insert frontendId (frontendPeer config key payload.v) }
    (joined, broadcastDaemonPublicKey config joined nonce)

end Daemon

section App

variable (pairing : Pairing) (frontendId : String)

/-- Payload of the app's key exchange. -/
def appPayload (suite : CryptoSuite) (frontendId : String) (publicKey : Key) : KxPayload :=
  ⟨some (suite.toBase64 publicKey.bytes), some frontendId, some wsProtocolVersion⟩

/-- Draw a key pair and send its public key. -/
def startKeyExchange (client : AppClient suite) (seed : Key) (nonce : Nonce) :
    AppClient suite × String :=
  let keyPair := kxSeedKeypair suite seed
  ({ client with kxKeyPair := some keyPair },
    sealBlob suite (suite.encodeKx (appPayload suite frontendId keyPair.publicKey))
      (deriveKxKey suite pairing.pairingSecret) nonce)

/-- The app's tag of an exchange. -/
def deriveEpochPct (daemonPk : Key) (keyPair : KxKeyPair suite) (keys : SessionKeys) :
    Option String :=
  (uuid16 pairing.pairingId.text).map fun raw =>
    suite.toBase64 (derivePairingConfirmationTag suite raw pairing.daemonId pairing.hostname
      daemonPk keyPair.publicKey keys.tx keys.rx).bytes

/-- Derive and keep the session keys of a key pair. -/
def adoptKeys (daemonPk : Key) (keyPair : KxKeyPair suite) (client : AppClient suite) :
    AppClient suite :=
  let keys := kxClientSessionKeys suite keyPair.publicKey keyPair.secretKey daemonPk
  { client with
    sessionKeys := some keys
    epochPctB64 := deriveEpochPct pairing daemonPk keyPair keys }

/-- The daemon's key and version in an envelope; an absent version is 1. -/
def readDaemonKx (suite : CryptoSuite) (pairing : Pairing) (ct : String) : Option (Key × ℤ) :=
  (openBlob suite ct (deriveKxKey suite pairing.pairingSecret)).bind fun plaintext =>
    (suite.decodeKx plaintext).bind fun payload =>
      if (payload.v.getD 1).den = 1 then
        ((payload.pk.bind suite.fromBase64).bind (FixedBytes.ofBytes 32)).map fun key =>
          (key, (payload.v.getD 1).num)
      else none

/-- The frame makes the app derive keys: it comes from the daemon, the app
has a key pair, and the envelope opens to a key. -/
def acceptDaemonKx (client : AppClient suite) (sender : Role) (ct : String) :
    Option (KxKeyPair suite × Key × ℤ) :=
  if sender ≠ .daemon then none
  else client.kxKeyPair.bind fun keyPair =>
    (readDaemonKx suite pairing ct).map fun daemon => (keyPair, daemon)

/-- A daemon key arrives. With session keys the exchange is started again
first, and the new keys come from the fresh key pair. -/
def onKeyExchangeFrame (client : AppClient suite) (sender : Role) (ct : String) (seed : Key)
    (nonce : Nonce) : AppClient suite × Option String :=
  match acceptDaemonKx pairing client sender ct with
  | none => (client, none)
  | some (keyPair, daemonPk, v) =>
    let heard := { client with epochAdvertisedV := v }
    if client.sessionKeys.isSome then
      let again := startKeyExchange pairing frontendId
        { heard with helloReceived := false, didAutoAttach := false } seed nonce
      match again.1.kxKeyPair with
      | none => (again.1, some again.2)
      | some freshKp => (adoptKeys pairing daemonPk freshKp again.1, some again.2)
    else (adoptKeys pairing daemonPk keyPair heard, none)

/-- Open a socket unless one is live; returns whether it was opened. -/
def AppClient.connectOnQueue (socket : ConnId) (client : AppClient suite) :
    AppClient suite × Bool :=
  if client.task.isSome then ({ client with wantsConnection := true }, false)
  else ({ client with wantsConnection := true, task := some socket, reconnectTimer := false }, true)

/-- Deliberate disconnect; the keys stay. -/
def AppClient.disconnectOnQueue (client : AppClient suite) : AppClient suite :=
  { client with wantsConnection := false, task := none, reconnectTimer := false }

/-- Connection loss: forget the keys and schedule a reconnect, once. -/
def AppClient.scheduleReconnect (client : AppClient suite) : AppClient suite :=
  if ¬client.wantsConnection ∨ client.reconnectTimer then client
  else { client with
    task := none
    reconnectTimer := true
    kxKeyPair := none
    sessionKeys := none
    helloReceived := false
    didAutoAttach := false }

end App

/-- The daemon's payload survives its envelope on the app's side. -/
theorem readDaemonKx_seal (laws : suite.Lawful) (config : DaemonConfig suite) (nonce : Nonce) :
    readDaemonKx suite config.toPairing (sealBlob suite (suite.encodeKx (daemonPayload config))
      (deriveKxKey suite config.pairingSecret) nonce) = some (config.keyPair.publicKey, 3) := by
  unfold readDaemonKx
  rw [openBlob_sealBlob laws, Option.bind_some, laws.kx_round_trip, Option.bind_some]
  simp only [daemonPayload, wsProtocolVersion, Option.getD_some, Option.bind_some,
    laws.base64_round_trip, FixedBytes.ofBytes_bytes, Option.map_some]
  exact if_pos rfl

/-- The app's tag is the text of the daemon's tag. -/
theorem deriveEpochPct_eq (config : DaemonConfig suite) (keyPair : KxKeyPair suite)
    {daemonKeys appKeys : SessionKeys} (hkeys : daemonKeys = appKeys.mirror) :
    deriveEpochPct config.toPairing config.keyPair.publicKey keyPair appKeys =
      (daemonPct config keyPair.publicKey daemonKeys).map fun tag =>
        suite.toBase64 tag.bytes := by
  unfold deriveEpochPct daemonPct
  rcases config.pairingId.wellFormed with hempty | hcanonical
  · rw [if_pos hempty, hempty]
    rfl
  · obtain ⟨raw, happ, hdaemon⟩ := uuid16_eq_parseUuid16 hcanonical
    have hne : config.pairingId.text ≠ "" := by
      intro h
      rw [h] at hcanonical
      cases hcanonical
    rw [if_neg hne, happ, hdaemon, Option.map_some, Option.map_some, Option.map_some, hkeys,
      derivePairingConfirmationTag_comm]
    rfl

/-- A pairing with an id has a tag. -/
theorem daemonPct_isSome (config : DaemonConfig suite) (hid : config.pairingId.text ≠ "")
    (frontendPubKey : Key) (keys : SessionKeys) :
    (daemonPct config frontendPubKey keys).isSome := by
  obtain ⟨raw, -, hraw⟩ := uuid16_eq_parseUuid16 (config.pairingId.wellFormed.resolve_left hid)
  rw [daemonPct, if_neg hid, hraw, Option.map_some]
  rfl

section Pool

/-- Label of a pairing. -/
inductive Label where
  | set (value : String)
  | unset
  deriving DecidableEq

/-- A relay client object. -/
abbrev ClientId := ℕ

/-- The pooled clients in the order they joined. Each is a new object. -/
structure ClientPool where
  /-- Pooled clients. -/
  ids : List ClientId
  /-- Next unused identifier. -/
  next : ClientId
  /-- Identifiers are handed out once. -/
  fresh : ∀ id ∈ ids, id < next
  /-- No client is pooled twice. -/
  nodup : ids.Nodup

/-- The empty pool. -/
def ClientPool.empty : ClientPool := ⟨[], 0, nofun, List.nodup_nil⟩

/-- A new client joins. -/
def ClientPool.register (pool : ClientPool) : ClientPool where
  ids := pool.ids ++ [pool.next]
  next := pool.next + 1
  fresh id hid := by
    rcases List.mem_append.mp hid with hold | hnew
    · exact (pool.fresh id hold).trans (Nat.lt_succ_self _)
    · exact Nat.lt_succ_of_le (List.mem_singleton.mp hnew).le
  nodup := by
    refine List.nodup_append.mpr ⟨pool.nodup, List.nodup_singleton _, fun a ha b hb => ?_⟩
    have hlt := pool.fresh a ha
    rw [List.mem_singleton.mp hb]
    exact Nat.ne_of_lt hlt

/-- A client leaves. -/
def ClientPool.remove (pool : ClientPool) (id : ClientId) : ClientPool where
  ids := pool.ids.erase id
  next := pool.next
  fresh other hother := pool.fresh other (List.mem_of_mem_erase hother)
  nodup := pool.nodup.erase id

/-- The pool, and the state of every client object. -/
structure RelayClients where
  /-- Clients that are pooled. -/
  pool : ClientPool
  /-- States of all clients, pooled or not. -/
  states : Dict ClientId DaemonClient

/-- The state of a client. -/
def RelayClients.client (relay : RelayClients) (id : ClientId) : DaemonClient :=
  (relay.states.lookup id).getD DaemonClient.initial

/-- A pooled client joins or leaves, or a client's own state changes. -/
inductive ClientEvent where
  | register
  | remove (id : ClientId)
  | change (id : ClientId) (state : DaemonClient)

/-- One event of the pool. -/
def RelayClients.step (relay : RelayClients) : ClientEvent → RelayClients
  | .register => { relay with pool := relay.pool.register }
  | .remove id => { relay with pool := relay.pool.remove id }
  | .change id state => { relay with states := relay.states.insert id state }

/-- One pooled and authenticated client with one peer. -/
def samplePool (frontendId : String) (peer : FrontendPeer) : RelayClients :=
  ⟨ClientPool.empty.register, (∅ : Dict ClientId DaemonClient).insert 0
    ⟨none, some 0, true, (∅ : Dict String FrontendPeer).insert frontendId peer⟩⟩

end Pool

end Teleprompter.KeyExchange
