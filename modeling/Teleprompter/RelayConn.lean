import Teleprompter.RelayServer
import Teleprompter.StepRuns

/-!
# Connections of the relay

A connection is accepted, delivers inbound frames from its read loop, and is
torn down. The relay can also close a connection from outside its read loop;
the loop may then still deliver frames for an identifier that is no longer
registered. Resume tokens and the push sealer are parameters. Each event is
one critical section of the relay; what it emits is delivered afterwards.
-/

namespace Teleprompter.RelayConn

open FiniteDictionary StepRuns RelayServer RelayRegistry

/-- Decoded resume-token payload. -/
inductive ResumePayload where
  | daemon (daemonId : String) (expiresAt : ℕ)
  | frontend (daemonId frontendId : String) (expiresAt : ℕ)
  deriving DecidableEq

/-- The daemon a payload names. -/
def ResumePayload.daemonId : ResumePayload → String
  | .daemon daemonId _ => daemonId
  | .frontend daemonId _ _ => daemonId

/-- The time at which a payload expires, in epoch milliseconds. -/
def ResumePayload.expiresAt : ResumePayload → ℕ
  | .daemon _ expiresAt => expiresAt
  | .frontend _ _ expiresAt => expiresAt

/-- Role, daemon and frontend id of a verified payload. -/
def resumeIdentity : ResumePayload → Role × String × Option String
  | .daemon daemonId _ => (.daemon, daemonId, none)
  | .frontend daemonId frontendId _ => (.frontend, daemonId, some frontendId)

/-- Result of opening a sealed device token. -/
inductive UnsealResult where
  | ok (token : String)
  | legacy
  | parseError
  | unsealFailed
  deriving DecidableEq

/-- Configuration and services of a relay process. -/
structure RelayEnv where
  /-- Issue a resume token at a time: the token and its expiry. -/
  issue : ResumePayload → ℕ → String × ℕ
  /-- Verify a resume token at a time. -/
  verify : String → ℕ → Option ResumePayload
  /-- Seal a device token; absent when sealing fails. -/
  sealToken : String → Option String
  /-- Open a sealed device token. -/
  unsealToken : String → UnsealResult
  /-- Whether push credentials are configured. -/
  pushConfigured : Bool
  /-- Stale-detection timeout in milliseconds. -/
  staleTimeoutMs : ℕ
  /-- Offline-eviction interval in milliseconds. -/
  offlineEvictMs : ℕ
  /-- Frames an unauthenticated connection may send. -/
  maxPreauthMsgs : ℕ
  /-- Largest accepted frame in bytes. -/
  maxFrameSize : ℕ
  /-- Frames cached per session. -/
  cacheSize : ℕ
  /-- Cached sessions per daemon. -/
  maxKeysPerDaemon : ℕ
  /-- Registration cap. -/
  maxRegistrations : ℕ

/-- Actions of one dispatch and an optional close of the sender. -/
structure DispatchOutcome where
  /-- What is delivered after the lock is released. -/
  actions : List Action
  /-- Close code and reason for the sending connection. -/
  close : Option (ℕ × String)

/-- An outcome that only delivers actions. -/
def DispatchOutcome.ofActions (actions : List Action) : DispatchOutcome := ⟨actions, none⟩

/-- The reply to a routing message before auth. -/
def notAuthenticated (connId : ConnId) (m : Option String) : DispatchOutcome :=
  .ofActions [.send connId (.err "NOT_AUTHENTICATED" m none)]

/-- The reply to a message over one of the two rate limits. -/
def rateLimited (connId : ConnId) (m : String) : DispatchOutcome :=
  .ofActions [.send connId (.err "RATE_LIMITED" (some m) none)]

/-- The payload a fresh resume token is issued for. -/
def buildResumePayload (daemonId : String) (isDaemon : Bool) (frontendId : Option String) :
    ResumePayload :=
  if isDaemon then .daemon daemonId 0 else .frontend daemonId (frontendId.getD "") 0

/-- A success reply with a fresh resume token. -/
def authOkReply (env : RelayEnv) (daemonId : String) (isDaemon : Bool)
    (frontendId : Option String) (resumed : Bool) (now : ℕ) : RelayServerMessage :=
  let issued := env.issue (buildResumePayload daemonId isDaemon frontendId) now
  .authOk daemonId (some issued.1) (some issued.2) (some resumed)

/-- Registration request: the registry decides, the reply reports. -/
def handleRegister (registry : Registry) (daemonId token proof : String) (now : ℕ) :
    Registry × RelayServerMessage :=
  match registry.handleRegister daemonId token proof now with
  | .ok registry' => (registry', .registerOk daemonId)
  | .error reason => (registry, .registerErr reason)

/-- Auth request: a frontend must name itself, then the registry decides. -/
def handleAuth (env : RelayEnv) (registry : Registry) (daemonId token : String) (isDaemon : Bool)
    (frontendId : Option String) (now : ℕ) : Registry × Except String RelayServerMessage :=
  if ¬isDaemon ∧ (frontendId = none ∨ frontendId = some "") then
    (registry, .error "frontendId is required for role=frontend")
  else match registry.handleAuth daemonId token isDaemon now with
    | .ok registry' => (registry', .ok (authOkReply env daemonId isDaemon frontendId false now))
    | .error reason => (registry, .error reason)

/-- Resume request: verify the token, then the daemon must still be registered. -/
def handleAuthResume (env : RelayEnv) (registry : Registry) (token : String) (now : ℕ) :
    Registry × Except String (RelayServerMessage × ResumePayload) :=
  match env.verify token now with
  | none => (registry, .error "Resume token invalid or expired")
  | some payload =>
    let identity := resumeIdentity payload
    match registry.handleAuthResume identity.2.1 (identity.1 = .daemon) now with
    | .ok registry' =>
      (registry', .ok (authOkReply env identity.2.1 (identity.1 = .daemon) identity.2.2 true now,
        payload))
    | .error reason => (registry, .error reason)

/-- Finish an accepted auth: join the group, reply, broadcast presence. -/
def finishAuth (core : RelayCore) (connId : ConnId) (reply : RelayServerMessage) (role : Role)
    (daemonId : String) (frontendId : Option String) : RelayCore × DispatchOutcome :=
  let joined := registerAuthedConn core connId ⟨role, daemonId, frontendId, ∅⟩
  (joined, .ofActions (.send connId reply :: presenceActions joined daemonId))

/-- Finish a rejected auth; a frontend without an id is also closed. -/
def rejectAuth (connId : ConnId) (reason : String) (role : Role) (frontendId : Option String) :
    DispatchOutcome :=
  .ofActions (.send connId (.authErr reason) ::
    if role = .frontend ∧ frontendId = none then [.close connId 1008 "frontendId required"] else [])

/-- Seal a frontend's device token and hand it to a daemon of its group under
the authenticated frontend id. -/
def routePushRegister (env : RelayEnv) (core : RelayCore) (connId : ConnId) (token : String)
    (platform : Platform) : DispatchOutcome :=
  match core.authedState connId with
  | none => notAuthenticated connId (some "Send relay.auth first")
  | some client =>
    if client.role ≠ .frontend then
      .ofActions [.send connId
        (.err "UNAUTHORIZED" (some "Only frontends can send relay.push.register") none)]
    else
      match env.sealToken token,
          (core.peersWhere client.daemonId fun auth => auth.role = .daemon).head? with
      | some blob, some daemonConn =>
        .ofActions [.send daemonConn (.pushToken (client.frontendId.getD "") blob platform)]
      | _, _ => .ofActions []

/-- Gate a push, find the frontend it targets, and open its device token. Left
is a final reply; right is the target connection and the token to push to. -/
def resolvePushLocked (env : RelayEnv) (core : RelayCore) (connId : ConnId)
    (frontendId blob : String) : DispatchOutcome ⊕ (Option ConnId × String) :=
  match core.authedState connId with
  | none => .inl (notAuthenticated connId (some "Send relay.auth first"))
  | some client =>
    if client.role ≠ .daemon then
      .inl (.ofActions [.send connId
        (.err "UNAUTHORIZED" (some "Only daemons can send push requests") none)])
    else
      let target := (core.peersWhere client.daemonId fun auth =>
        auth.role = .frontend ∧ auth.frontendId = some frontendId).head?
      match env.unsealToken blob with
      | .ok token => .inr (target, token)
      | .legacy => .inr (target, blob)
      | .parseError | .unsealFailed =>
        .inl (.ofActions [.send connId (.err "PUSH_UNSEAL_FAILED"
          (some ("Push token unseal failed for frontendId " ++ frontendId)) (some frontendId))])

/-- The synchronous part of a push. Without push credentials a connected
frontend is notified in band; with them the send is a task of its own. -/
def handlePush (env : RelayEnv) (core : RelayCore) (connId : ConnId)
    (frontendId blob title body : String) (data : Option PushData) : DispatchOutcome :=
  match resolvePushLocked env core connId frontendId blob with
  | .inl reply => reply
  | .inr (target, _) =>
    if env.pushConfigured then .ofActions []
    else .ofActions (target.toList.map fun conn => .send conn (.notification title body data))

/-- Dispatch of a message that passed the rate limits. -/
def dispatchAdmitted (env : RelayEnv) (core : RelayCore) (connId : ConnId) (now : ℕ) :
    RelayClientMessage → RelayCore × DispatchOutcome
  | .auth role daemonId token _ frontendId =>
    match handleAuth env core.registry daemonId token (role = .daemon) frontendId now with
    | (registry, .ok reply) =>
      finishAuth { core with registry := registry } connId reply role daemonId frontendId
    | (registry, .error reason) =>
      ({ core with registry := registry }, rejectAuth connId reason role frontendId)
  | .authResume token _ =>
    match handleAuthResume env core.registry token now with
    | (registry, .ok (reply, payload)) =>
      let identity := resumeIdentity payload
      finishAuth { core with registry := registry } connId reply identity.1 identity.2.1
        identity.2.2
    | (registry, .error reason) =>
      ({ core with registry := registry }, .ofActions [.send connId (.authErr reason)])
  | .register daemonId proof token _ =>
    let registered := handleRegister core.registry daemonId token proof now
    ({ core with registry := registered.1 }, .ofActions [.send connId registered.2])
  | .publish sid ct seq =>
    match core.authedState connId with
    | none => (core, notAuthenticated connId (some "Send relay.auth first"))
    | some client =>
      let routed := routePublish core connId client sid ct seq now
      (routed.1, .ofActions routed.2)
  | .keyExchange ct _ =>
    match core.authedState connId with
    | none => (core, notAuthenticated connId (some "Send relay.auth first"))
    | some client => (core, .ofActions (routeKeyExchange core connId client ct))
  | .subscribe sid after =>
    match core.authedState connId with
    | none => (core, notAuthenticated connId none)
    | some _ =>
      let routed := routeSubscribe core connId sid after
      (routed.1, .ofActions routed.2)
  | .unsubscribe sid => (routeUnsubscribe core connId sid, .ofActions [])
  | .ping ts =>
    match core.authedState connId with
    | none => (core, .ofActions [])
    | some client =>
      let routed := routePing core connId client ts now
      (routed.1, .ofActions routed.2)
  | .push frontendId blob title body _ data =>
    (core, handlePush env core connId frontendId blob title body data)
  | .pushRegister _ token platform => (core, routePushRegister env core connId token platform)

/-- The message counts against the rate limits. -/
def rateChecked (core : RelayCore) (connId : ConnId) : RelayClientMessage → Bool
  | .ping _ => false
  | _ => (core.authedState connId).isSome

/-- Dispatch under the lock. The two limiter answers are inputs; the group
limiter is consulted only after the client limiter admitted the message. -/
def dispatchLocked (env : RelayEnv) (core : RelayCore) (connId : ConnId)
    (clientOk groupOk : Bool) (now : ℕ) (msg : RelayClientMessage) :
    RelayCore × DispatchOutcome :=
  if rateChecked core connId msg ∧ ¬clientOk then
    (core, rateLimited connId "Too many messages. Slow down.")
  else if rateChecked core connId msg ∧ ¬groupOk then
    (core, rateLimited connId "Daemon group budget exceeded. Slow down.")
  else dispatchAdmitted env core connId now msg

/-- An inbound text frame, as far as the parsers understand it. -/
inductive InboundFrame where
  | oversized (size : ℕ)
  | invalidJson
  | unknownType (t : String)
  | message (msg : RelayClientMessage)

/-- Count a frame of an unauthenticated connection. -/
def countPreauth (core : RelayCore) (connId : ConnId) : RelayCore :=
  { core with
    conns := alterKey connId
      (fun handle => if handle.auth.isNone then
          { handle with preauthCount := handle.preauthCount + 1 }
        else handle) core.conns }

/-- The connection is registered, unauthenticated and over its frame budget. -/
def overPreauthBudget (env : RelayEnv) (core : RelayCore) (connId : ConnId) : Bool :=
  match core.conns.lookup connId with
  | none => false
  | some handle => handle.auth.isNone ∧ env.maxPreauthMsgs < handle.preauthCount

/-- Handle one inbound text frame of a read loop. -/
def handleInbound (env : RelayEnv) (core : RelayCore) (connId : ConnId)
    (clientOk groupOk : Bool) (now : ℕ) : InboundFrame → RelayCore × DispatchOutcome
  | .oversized size =>
    (core, ⟨[.send connId (.err "FRAME_TOO_LARGE"
      (some ("Frame size " ++ toString size ++ " exceeds limit of " ++
        toString env.maxFrameSize ++ " bytes")) none)], some (1009, "Frame too large")⟩)
  | frame =>
    let counted := countPreauth core connId
    if overPreauthBudget env counted connId then
      (counted, ⟨[], some (1008, "Too many pre-auth messages")⟩)
    else match frame with
      | .message msg => dispatchLocked env counted connId clientOk groupOk now msg
      | .unknownType t => (counted, .ofActions [.send connId (.err "UNKNOWN_TYPE"
          (some ("Unknown or malformed message type: " ++ t)) none)])
      | _ => (counted, .ofActions [.send connId
          (.err "PARSE_ERROR" (some "Invalid JSON") none)])

/-- Forget the replay cache of an evicted daemon, and its limiter when no
group remains. -/
def dropEvicted (core : RelayCore) (daemonId : String) : RelayCore :=
  { core with
    recent := core.recent.purgeDaemon daemonId
    groupLimiters := if daemonId ∈ core.groups then core.groupLimiters
      else core.groupLimiters.erase daemonId }

/-- One stale sweep: presence of the daemons that went offline is computed
after the evictions. -/
def staleSweep (env : RelayEnv) (core : RelayCore) (now : ℕ) : RelayCore × List Action :=
  let checked := core.registry.checkStaleDaemons now env.staleTimeoutMs env.offlineEvictMs
  let swept := { core with registry := checked.1 }
  (checked.2.evicted.foldl dropEvicted swept, checked.2.newlyOffline.flatMap (presenceActions swept))

/-- Where the read loop of a socket stands. -/
inductive SocketPhase where
  | reading
  | closing
  deriving DecidableEq

/-- A relay process: shared state, sockets that are not torn down yet, and
the next connection identifier. -/
structure RelayState where
  /-- State behind the lock. -/
  core : RelayCore
  /-- Read loops by connection. -/
  sockets : Dict ConnId SocketPhase
  /-- Next unused connection identifier. -/
  nextConnId : ConnId

/-- A relay process at start. -/
def RelayState.initial (env : RelayEnv) : RelayState :=
  ⟨RelayCore.empty (RecentFrames.withCacheAndKeyCap env.cacheSize env.maxKeysPerDaemon)
    env.maxRegistrations, ∅, 1⟩

/-- What can happen to a relay. A forced close comes from the delivery of
earlier actions; a teardown ends the read loop of a socket. -/
inductive RelayEvent where
  | accept
  | inbound (connId : ConnId) (frame : InboundFrame) (clientOk groupOk : Bool) (now : ℕ)
  | teardown (connId : ConnId) (now : ℕ)
  | forceClose (connId : ConnId) (now : ℕ)
  | sweep (now : ℕ)

/-- One event: the next state and the emitted actions. -/
def relayStepActions (env : RelayEnv) (s : RelayState) : RelayEvent → RelayState × List Action
  | .accept =>
    ({ core := { s.core with conns := s.core.conns.insert s.nextConnId ConnHandle.fresh }
       sockets := s.sockets.insert s.nextConnId .reading
       nextConnId := s.nextConnId + 1 }, [])
  | .inbound connId frame clientOk groupOk now =>
    if s.sockets.lookup connId = some .reading then
      let handled := handleInbound env s.core connId clientOk groupOk now frame
      ({ s with
        core := handled.1
        sockets := if handled.2.close.isSome then s.sockets.insert connId .closing
          else s.sockets }, handled.2.actions)
    else (s, [])
  | .teardown connId now =>
    if connId ∈ s.sockets then
      let closed := closeConn s.core connId now
      ({ s with core := closed.1, sockets := s.sockets.erase connId }, closed.2)
    else (s, [])
  | .forceClose connId now =>
    let closed := closeConn s.core connId now
    ({ s with core := closed.1 }, closed.2)
  | .sweep now =>
    let swept := staleSweep env s.core now
    ({ s with core := swept.1 }, swept.2)

/-- The state after one event. -/
def relayStep (env : RelayEnv) (s : RelayState) (e : RelayEvent) : RelayState :=
  (relayStepActions env s e).1

/-- A relay without push and with tokens that are never resumed. -/
def plainEnv : RelayEnv :=
  { issue := fun _ now => ("", now + 3600000)
    verify := fun _ _ => none
    sealToken := fun _ => none
    unsealToken := fun _ => .legacy
    pushConfigured := false
    staleTimeoutMs := 90000
    offlineEvictMs := 3600000
    maxPreauthMsgs := 30
    maxFrameSize := 1048576
    cacheSize := 10
    maxKeysPerDaemon := 256
    maxRegistrations := 0 }

/-- An inbound message that both rate limiters admit. -/
def say (connId : ConnId) (msg : RelayClientMessage) (now : ℕ) : RelayEvent :=
  .inbound connId (.message msg) true true now

end Teleprompter.RelayConn
