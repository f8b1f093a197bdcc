import Mathlib.Algebra.Order.Ring.Rat
import Teleprompter.FiniteDictionary
import Teleprompter.RelayRegistry

/-!
# Shared relay state and routing decisions

The two message types of the relay protocol have one constructor per wire type
and the fields the relay reads or writes. JSON numbers that reach a handler are
finite, so they are rational numbers here. Epoch milliseconds that the wire
carries as a double stay natural numbers: every clock value below two to the
fifty-third is represented exactly.

Frames are cached in a ring per text key `daemonId:sid`. A push trims the ring
to the cache depth; a push under a new key first evicts the oldest keys of that
daemon past the key cap. Which keys belong to a daemon is decided by a text
comparison with `daemonId:`, exactly as the relay does it.

All mutable relay state sits behind one lock. Each function below is one
synchronous critical section, or a part of one: it changes the state and
returns the actions that are delivered after the lock is released. A rate
limiter is only its identity here, which is what group sharing depends on;
whether a limiter admits a message is an input of the dispatch.
-/

namespace Teleprompter.RelayServer

open FiniteDictionary RelayRegistry

section Messages

/-- The two sides of a pairing. -/
inductive Role where
  | daemon
  | frontend
  deriving DecidableEq

/-- Push device platform. -/
inductive Platform where
  | ios
  | android
  deriving DecidableEq

/-- Interruption levels the wire guard accepts. -/
inductive InterruptionLevel where
  | active
  | timeSensitive
  deriving DecidableEq

/-- Navigation payload of a push. -/
structure PushData where
  /-- Session the notification opens. -/
  sid : String
  /-- Daemon that owns the session. -/
  daemonId : String
  /-- Hook event behind the notification. -/
  event : String
  deriving DecidableEq

/-- Messages from a client to the relay. -/
inductive RelayClientMessage where
  | auth (role : Role) (daemonId token : String) (v : ℚ) (frontendId : Option String)
  | authResume (token : String) (v : ℚ)
  | register (daemonId proof token : String) (v : ℚ)
  | keyExchange (ct : String) (role : Role)
  | publish (sid ct : String) (seq : ℕ)
  | subscribe (sid : String) (after : Option ℕ)
  | unsubscribe (sid : String)
  | ping (ts : Option ℚ)
  | push (frontendId sealed title body : String) (interruptionLevel : Option InterruptionLevel)
      (data : Option PushData)
  | pushRegister (frontendId token : String) (platform : Platform)
  deriving DecidableEq

/-- A relayed ciphertext frame. -/
structure Frame where
  /-- Session the frame belongs to. -/
  sid : String
  /-- Ciphertext; the relay never opens it. -/
  ct : String
  /-- Sender's sequence number. -/
  seq : ℕ
  /-- Role of the publisher. -/
  sender : Role
  /-- Publisher's frontend id, on frontend frames only. -/
  frontendId : Option String
  deriving DecidableEq

/-- Messages from the relay to a client. -/
inductive RelayServerMessage where
  | authOk (daemonId : String) (resumeToken : Option String) (resumeExpiresAt : Option ℕ)
      (resumed : Option Bool)
  | authErr (e : String)
  | registerOk (daemonId : String)
  | registerErr (e : String)
  | frame (frame : Frame)
  | keyExchangeFrame (ct : String) (sender : Role)
  | presence (daemonId : String) (online : Bool) (sessions : List String) (lastSeen : ℕ)
  | pong (ts : Option ℚ)
  | err (e : String) (m frontendId : Option String)
  | notification (title body : String) (data : Option PushData)
  | pushToken (frontendId sealed : String) (platform : Platform)
  deriving DecidableEq

end Messages

section Ring

/-- The recent-frame cache. -/
structure RecentFrames where
  /-- Text key to its ring, oldest frame first. -/
  buffers : Dict String (List Frame)
  /-- Frames kept per key. -/
  cacheSize : ℕ
  /-- Keys kept per daemon; zero disables the cap. -/
  maxKeysPerDaemon : ℕ
  /-- All recorded keys, oldest first. -/
  keyInsertionOrder : List String

/-- An empty cache with both caps explicit. -/
def RecentFrames.withCacheAndKeyCap (cacheSize maxKeysPerDaemon : ℕ) : RecentFrames :=
  ⟨∅, cacheSize, maxKeysPerDaemon, []⟩

/-- Compose the cache key. -/
def ringKey (daemonId sid : String) : String := daemonId ++ ":" ++ sid

/-- The key starts with the daemon's text and a colon. -/
def ownsKey (daemonId key : String) : Bool := (daemonId ++ ":").toList.isPrefixOf key.toList

/-- Take up to `count` of the daemon's keys out of the order list, oldest
first. Returns the evicted keys and the remaining order. -/
def evictOldest (daemonId : String) : ℕ → List String → List String × List String
  | 0, order => ([], order)
  | _ + 1, [] => ([], [])
  | count + 1, key :: order =>
    if ownsKey daemonId key then
      let rest := evictOldest daemonId count order
      (key :: rest.1, rest.2)
    else
      let rest := evictOldest daemonId (count + 1) order
      (rest.1, key :: rest.2)

/-- Make room for a new key of the daemon and record it. -/
def RecentFrames.admitKey (daemonId key : String) (cache : RecentFrames) : RecentFrames :=
  if key ∉ cache.buffers ∧ 0 < cache.maxKeysPerDaemon then
    let keyCount := countWhere (fun k _ => ownsKey daemonId k) cache.buffers
    let evicted := evictOldest daemonId (keyCount + 1 - cache.maxKeysPerDaemon)
      cache.keyInsertionOrder
    { cache with
      buffers := evicted.1.foldl (fun buffers old => buffers.erase old) cache.buffers
      keyInsertionOrder := evicted.2 ++ [key] }
  else cache

/-- Append a frame to its ring and trim the ring oldest-first. -/
def RecentFrames.push (daemonId : String) (frame : Frame) (cache : RecentFrames) : RecentFrames :=
  let key := ringKey daemonId frame.sid
  let admitted := cache.admitKey daemonId key
  let ring := (admitted.buffers.lookup key).getD [] ++ [frame]
  { admitted with
    buffers := admitted.buffers.insert key (ring.drop (ring.length - admitted.cacheSize)) }

/-- Cached frames of one session with a larger sequence number. -/
def RecentFrames.replayAfter (cache : RecentFrames) (daemonId sid : String) (after : ℕ) :
    List Frame :=
  ((cache.buffers.lookup (ringKey daemonId sid)).getD []).filter fun frame => after < frame.seq

/-- Drop every key that starts with the daemon's text and a colon. -/
def RecentFrames.purgeDaemon (daemonId : String) (cache : RecentFrames) : RecentFrames :=
  { cache with
    buffers := (cache.buffers.keys.filter (ownsKey daemonId)).foldl
      (fun buffers old => buffers.erase old) cache.buffers
    keyInsertionOrder := cache.keyInsertionOrder.filter fun key => !ownsKey daemonId key }

end Ring

/-- Connection identifier from a counter that is never reused. -/
abbrev ConnId := ℕ

/-- Most subscriptions one connection may hold. -/
def maxSubscriptionsPerClient : ℕ := 256

/-- The authenticated identity of a connection. -/
structure AuthState where
  /-- Side of the pairing. -/
  role : Role
  /-- The daemon this connection belongs to; its group key. -/
  daemonId : String
  /-- Frontend id as given in the auth. -/
  frontendId : Option String
  /-- Session ids this connection listens to. -/
  subscriptions : KeySet String

/-- Server-side handle of one connection. -/
structure ConnHandle where
  /-- Identity of the shared group limiter, once authenticated. -/
  groupLimiter : Option ℕ
  /-- Absent until an auth succeeds. -/
  auth : Option AuthState
  /-- Frames received while unauthenticated. -/
  preauthCount : ℕ

/-- The handle of a fresh connection. -/
def ConnHandle.fresh : ConnHandle := ⟨none, none, 0⟩

/-- All shared mutable relay state. -/
structure RelayCore where
  /-- Daemon states, registrations and tokens. -/
  registry : Registry
  /-- Replay cache. -/
  recent : RecentFrames
  /-- Daemon id to the connections of its group. -/
  groups : Dict String (KeySet ConnId)
  /-- Registered connections. -/
  conns : Dict ConnId ConnHandle
  /-- Daemon id to the identity of its group limiter. -/
  groupLimiters : Dict String ℕ
  /-- Next unused limiter identity. -/
  nextLimiter : ℕ

/-- A relay without connections. -/
def RelayCore.empty (recent : RecentFrames) (maxRegistrations : ℕ) : RelayCore :=
  ⟨Registry.withMaxRegistrations maxRegistrations, recent, ∅, ∅, ∅, 0⟩

/-- One side effect of a routing decision. -/
inductive Action where
  | send (target : ConnId) (msg : RelayServerMessage)
  | close (target : ConnId) (code : ℕ) (reason : String)
  deriving DecidableEq

/-- The auth state of a connection, when it is registered and authenticated. -/
def RelayCore.authedState (core : RelayCore) (connId : ConnId) : Option AuthState :=
  (core.conns.lookup connId).bind ConnHandle.auth

/-- The daemon a connection is authenticated for. -/
def RelayCore.authDaemon (core : RelayCore) (connId : ConnId) : Option String :=
  (core.authedState connId).map AuthState.daemonId

/-- The connections of a group, in entry order; an absent group has none. -/
def RelayCore.groupMembers (core : RelayCore) (daemonId : String) : List ConnId :=
  ((core.groups.lookup daemonId).getD ∅).keys

/-- The connection is in the routing group of the daemon. -/
def RelayCore.InGroup (core : RelayCore) (daemonId : String) (connId : ConnId) : Prop :=
  connId ∈ core.groupMembers daemonId

instance (core : RelayCore) (daemonId : String) (connId : ConnId) :
    Decidable (core.InGroup daemonId connId) :=
  inferInstanceAs (Decidable (connId ∈ core.groupMembers daemonId))

/-- Make sure the daemon has a group limiter. -/
def RelayCore.seedGroupLimiter (daemonId : String) (core : RelayCore) : RelayCore :=
  if daemonId ∈ core.groupLimiters then core
  else { core with
    groupLimiters := core.groupLimiters.insert daemonId core.nextLimiter
    nextLimiter := core.nextLimiter + 1 }

/-- Add a connection to a group, creating the group when absent. -/
def RelayCore.addToGroup (daemonId : String) (connId : ConnId) (core : RelayCore) : RelayCore :=
  { core with
    groups := core.groups.insert daemonId
      (((core.groups.lookup daemonId).getD ∅).insert connId ()) }

/-- Remove a connection from a group. The last member takes the group and
its limiter along. -/
def RelayCore.removeFromGroup (daemonId : String) (connId : ConnId) (core : RelayCore) :
    RelayCore :=
  match core.groups.lookup daemonId with
  | none => core
  | some group =>
    if (group.erase connId).keys = [] then
      { core with
        groups := core.groups.erase daemonId
        groupLimiters := core.groupLimiters.erase daemonId }
    else { core with groups := core.groups.insert daemonId (group.erase connId) }

/-- Change the registry under the lock. -/
def RelayCore.alterRegistry (f : Registry → Registry) (core : RelayCore) : RelayCore :=
  { core with registry := f core.registry }

/-- Change the auth state of a connection that has one. -/
def RelayCore.alterAuth (connId : ConnId) (f : AuthState → AuthState) (core : RelayCore) :
    RelayCore :=
  { core with
    conns := alterKey connId (fun handle => { handle with auth := handle.auth.map f })
      core.conns }

/-- The members of a group whose auth passes a test. -/
def RelayCore.peersWhere (core : RelayCore) (daemonId : String) (p : AuthState → Bool) :
    List ConnId :=
  (core.groupMembers daemonId).filter fun peer => (core.authedState peer).any p

/-- The payload built from a cached frame; a daemon frame names no frontend. -/
def framePayload (frame : Frame) : Frame :=
  { frame with frontendId := if frame.sender = .daemon then none else frame.frontendId }

/-- The frame a publisher puts into the cache. -/
def publishedFrame (client : AuthState) (sid ct : String) (seq : ℕ) : Frame :=
  { sid := sid, ct := ct, seq := seq, sender := client.role
    frontendId := if client.role = .daemon then none else client.frontendId }

/-- Route a publish: track daemon traffic, cache the frame, then send it to
the subscribers of the session in the group except the sender. -/
def routePublish (core : RelayCore) (sender : ConnId) (client : AuthState) (sid ct : String)
    (seq now : ℕ) : RelayCore × List Action :=
  let tracked := if client.role = .daemon then
      core.alterRegistry (Registry.daemonPub client.daemonId sid now)
    else core
  let frame := publishedFrame client sid ct seq
  let cached := { tracked with recent := tracked.recent.push client.daemonId frame }
  let targets := (cached.peersWhere client.daemonId fun auth => sid ∈ auth.subscriptions).filter
    fun peer => peer ≠ sender
  (cached, targets.map fun peer => .send peer (.frame (framePayload frame)))

/-- Route a key exchange to every peer of the opposite role in the group. -/
def routeKeyExchange (core : RelayCore) (sender : ConnId) (client : AuthState) (ct : String) :
    List Action :=
  let targets := (core.peersWhere client.daemonId fun auth => auth.role ≠ client.role).filter
    fun peer => peer ≠ sender
  targets.map fun peer => .send peer (.keyExchangeFrame ct client.role)

/-- Route a subscription: cap, set insert, one count for a fresh frontend
subscription, then the replay of cached frames to the subscriber. -/
def routeSubscribe (core : RelayCore) (sender : ConnId) (sid : String) (after : Option ℕ) :
    RelayCore × List Action :=
  match core.authedState sender with
  | none => (core, [])
  | some auth =>
    if maxSubscriptionsPerClient ≤ dictSize auth.subscriptions then
      (core, [.send sender (.err "TOO_MANY_SUBS" (some "Max 256 subscriptions per client") none)])
    else
      let added := core.alterAuth sender fun a =>
        { a with subscriptions := a.subscriptions.insert sid () }
      let counted := if auth.role = .frontend ∧ sid ∉ auth.subscriptions then
          added.alterRegistry (Registry.alterState auth.daemonId (DaemonState.attach sid))
        else added
      let replayed := match after with
        | none => []
        | some seq => counted.recent.replayAfter auth.daemonId sid seq
      (counted, replayed.map fun frame => .send sender (.frame (framePayload frame)))

/-- Route an unsubscription: set removal, and for a frontend one count less
whether or not the session was subscribed. -/
def routeUnsubscribe (core : RelayCore) (sender : ConnId) (sid : String) : RelayCore :=
  match core.authedState sender with
  | none => core
  | some auth =>
    let removed := core.alterAuth sender fun a =>
      { a with subscriptions := a.subscriptions.erase sid }
    if auth.role = .frontend then
      removed.alterRegistry (Registry.alterState auth.daemonId (DaemonState.detach sid))
    else removed

/-- Route a ping: a daemon refreshes its last traffic time; the sender gets a pong. -/
def routePing (core : RelayCore) (sender : ConnId) (client : AuthState) (ts : Option ℚ)
    (now : ℕ) : RelayCore × List Action :=
  (if client.role = .daemon then core.alterRegistry (Registry.daemonPing client.daemonId now)
    else core,
    [.send sender (.pong ts)])

/-- Presence of a daemon for every frontend of its group; the session list is empty. -/
def presenceActions (core : RelayCore) (daemonId : String) : List Action :=
  match core.registry.daemonStates.lookup daemonId with
  | none => []
  | some state =>
    (core.peersWhere daemonId fun auth => auth.role = .frontend).map fun peer =>
      .send peer (.presence daemonId state.online [] state.lastSeen)

/-- Record an authenticated identity: group limiter, group membership, and
the handle when the connection is still registered. -/
def registerAuthedConn (core : RelayCore) (connId : ConnId) (auth : AuthState) : RelayCore :=
  let seeded := core.seedGroupLimiter auth.daemonId
  let grouped := seeded.addToGroup auth.daemonId connId
  { grouped with
    conns := alterKey connId
      (fun handle => { handle with
        auth := some auth
        groupLimiter := seeded.groupLimiters.lookup auth.daemonId }) grouped.conns }

/-- Tear down a connection. Returns the daemon whose presence must be sent. -/
def handleClose (core : RelayCore) (connId : ConnId) (now : ℕ) : RelayCore × Option String :=
  match core.conns.lookup connId with
  | none => (core, none)
  | some handle =>
    let removed := { core with conns := core.conns.erase connId }
    match handle.auth with
    | none => (removed, none)
    | some auth =>
      let released := if auth.role = .frontend then
          removed.alterRegistry (Registry.frontendDisconnect auth.daemonId auth.subscriptions.keys)
        else removed
      let ungrouped := released.removeFromGroup auth.daemonId connId
      if auth.role = .daemon then
        (ungrouped.alterRegistry (Registry.daemonDisconnect auth.daemonId now), some auth.daemonId)
      else (ungrouped, none)

/-- Tear down a connection and compute the presence that follows. -/
def closeConn (core : RelayCore) (connId : ConnId) (now : ℕ) : RelayCore × List Action :=
  let closed := handleClose core connId now
  match closed.2 with
  | none => (closed.1, [])
  | some daemonId => (closed.1, presenceActions closed.1 daemonId)

end Teleprompter.RelayServer
