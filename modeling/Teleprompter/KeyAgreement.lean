import Teleprompter.KeyExchangeNetwork
import Teleprompter.StepRuns

/-!
# Agreement of the two sides on keys and tag

A run of the exchange collects its marks. From them follow the last payload
an app sent, the last payload of a frontend that the running daemon process
handled, and whether the app derived keys for its current key pair. In every
state in which those coincide, the daemon's entry for the frontend mirrors
the session keys of the app and both hold the same confirmation tag.
-/

namespace Teleprompter.KeyAgreement

open FiniteDictionary KeyedQueues StepRuns PairingCrypto RelayServer RelayEffects
open KeyExchange KeyExchangeNetwork

/-- The last payload the app of a frontend sent; latest marks stand first. -/
def lastSent (frontendId : String) : List KxMark → Option KxPayload
  | [] => none
  | .appSent sender payload :: earlier =>
    if sender = frontendId then some payload else lastSent frontendId earlier
  | _ :: earlier => lastSent frontendId earlier

/-- The last payload of a frontend the daemon processed since it started. -/
def lastProcessed (frontendId : String) : List KxMark → Option KxPayload
  | [] => none
  | .daemonProcessed sender payload :: earlier =>
    if sender = frontendId then some payload else lastProcessed frontendId earlier
  | .daemonStarted :: _ => none
  | _ :: earlier => lastProcessed frontendId earlier

/-- The app processed a daemon key after it drew its last key pair, or while
it drew it. -/
def KeyedSince (frontendId : String) : List KxMark → Prop
  | [] => False
  | .appKeyed keyed :: earlier => keyed = frontendId ∨ KeyedSince frontendId earlier
  | .appSent sender _ :: earlier => sender ≠ frontendId ∧ KeyedSince frontendId earlier
  | _ :: earlier => KeyedSince frontendId earlier

/-- The app a mark is about. -/
def appOf : KxMark → Option String
  | .appSent frontendId _ => some frontendId
  | .appKeyed frontendId => some frontendId
  | _ => none

/-- Marks about other parties leave the history of an app as it is. -/
theorem history_append_other {frontendId : String} {marks : List KxMark}
    (h : ∀ mark ∈ marks, appOf mark ≠ some frontendId) (history : List KxMark) :
    lastSent frontendId (marks ++ history) = lastSent frontendId history ∧
      (KeyedSince frontendId (marks ++ history) ↔ KeyedSince frontendId history) := by
  induction marks with
  | nil => exact ⟨rfl, Iff.rfl⟩
  | cons mark marks ih =>
    obtain ⟨hhead, htail⟩ := List.forall_mem_cons.mp h
    obtain ⟨hsent, hkeyed⟩ := ih htail
    cases mark with
    | appSent sender payload =>
      have hne : sender ≠ frontendId := fun heq => hhead (congrArg some heq)
      simp only [List.cons_append, lastSent, if_neg hne, KeyedSince, hsent, hkeyed]
      exact ⟨trivial, and_iff_right hne⟩
    | appKeyed keyed =>
      have hne : keyed ≠ frontendId := fun heq => hhead (congrArg some heq)
      simp only [List.cons_append, lastSent, KeyedSince, hsent, hkeyed]
      exact ⟨trivial, or_iff_right hne⟩
    | daemonSent => exact ⟨hsent, hkeyed⟩
    | daemonProcessed sender payload => exact ⟨hsent, hkeyed⟩
    | daemonStarted => exact ⟨hsent, hkeyed⟩

/-- Marks of apps leave the history of the daemon as it is. -/
theorem lastProcessed_append_apps {marks : List KxMark}
    (h : ∀ mark ∈ marks, (appOf mark).isSome) (frontendId : String) (history : List KxMark) :
    lastProcessed frontendId (marks ++ history) = lastProcessed frontendId history := by
  induction marks with
  | nil => rfl
  | cons mark marks ih =>
    obtain ⟨hhead, htail⟩ := List.forall_mem_cons.mp h
    cases mark with
    | appSent sender payload => exact ih htail
    | appKeyed keyed => exact ih htail
    | daemonSent => cases hhead
    | daemonProcessed sender payload => cases hhead
    | daemonStarted => cases hhead

variable {suite : CryptoSuite} (config : DaemonConfig suite)

/-- A sealed key exchange that a party sends. -/
def Envelope : Party → String → Prop
  | .daemon, ct => ∃ nonce, ct = sealBlob suite (suite.encodeKx (daemonPayload config))
      (deriveKxKey suite config.pairingSecret) nonce
  | .app frontendId, ct => ∃ publicKey nonce,
      ct = sealBlob suite (suite.encodeKx (appPayload suite frontendId publicKey))
        (deriveKxKey suite config.pairingSecret) nonce

/-- Connections belong to one party, sockets to their client, and every
sealed key exchange in flight was sent by a party of its role. -/
structure ChannelsSound (s : KxSystem suite) : Prop where
  /-- Identifiers from the counter on are unused. -/
  fresh : ∀ connId, s.nextConnId ≤ connId → s.owner.lookup connId = none
  /-- The daemon's socket is its own. -/
  socket : ∀ connId, s.daemon.socket = some connId → s.owner.lookup connId = some .daemon
  /-- An app's socket is its own. -/
  task : ∀ frontendId connId, (s.app frontendId).task = some connId →
    s.owner.lookup connId = some (.app frontendId)
  /-- The daemon seals with the key of the pairing. -/
  kxKey : ∀ key, s.daemon.kxKey = some key → key = deriveKxKey suite config.pairingSecret
  /-- A connection is authenticated with the role of its owner. -/
  roles : ∀ connId auth, s.relay.authedState connId = some auth →
    ∃ party, s.owner.lookup connId = some party ∧ auth.role = party.role
  /-- Envelopes towards the relay come from the owner. -/
  up : ∀ connId ct, (connId, ct) ∈ s.up →
    ∃ party, s.owner.lookup connId = some party ∧ Envelope config party ct
  /-- Envelopes from the relay name the role of their sender. -/
  down : ∀ connId ct sender, (connId, .kxFrame ct sender) ∈ s.down →
    ∃ party, party.role = sender ∧ Envelope config party ct

/-- An app with a key pair sent its public key last; if it was keyed since,
its keys and tag come from that key pair and the daemon's key. -/
def AppHolds (frontendId : String) (client : AppClient suite) (history : List KxMark) : Prop :=
  ∀ keyPair, client.kxKeyPair = some keyPair →
    lastSent frontendId history = some (appPayload suite frontendId keyPair.publicKey) ∧
    (KeyedSince frontendId history →
      client.sessionKeys = some (kxClientSessionKeys suite keyPair.publicKey keyPair.secretKey
        config.keyPair.publicKey) ∧
      client.epochPctB64 = deriveEpochPct config.toPairing config.keyPair.publicKey keyPair
        (kxClientSessionKeys suite keyPair.publicKey keyPair.secretKey config.keyPair.publicKey))

/-- The daemon's entry for a frontend comes from the last payload it processed. -/
def DaemonHolds (client : DaemonClient) (history : List KxMark) : Prop :=
  ∀ frontendId payload, lastProcessed frontendId history = some payload →
    ∃ key, acceptPayload suite payload = some (frontendId, key) ∧
      client.peers.lookup frontendId = some (frontendPeer config key payload.v)

/-- A system with the marks of its run. -/
structure KxRun (suite : CryptoSuite) where
  /-- The current state. -/
  system : KxSystem suite
  /-- What happened so far, latest first. -/
  history : List KxMark

/-- One event with its marks. -/
def runStep (w : KxRun suite) (e : KxEvent) : KxRun suite :=
  ⟨(kxStepMarks config w.system e).1, (kxStepMarks config w.system e).2 ++ w.history⟩

/-- The start of a run. -/
def KxRun.initial (suite : CryptoSuite) : KxRun suite := ⟨KxSystem.initial suite, []⟩

/-- What every state of a run satisfies. -/
structure ExchangeSound (w : KxRun suite) : Prop where
  /-- Messages in flight are genuine. -/
  channels : ChannelsSound config w.system
  /-- Apps hold what they sent and derived. -/
  apps : ∀ frontendId, AppHolds config frontendId (w.system.app frontendId) w.history
  /-- The daemon holds what it processed. -/
  daemon : DaemonHolds config w.system.daemon w.history

variable {config}

section Views

@[simp] theorem app_setApp (s : KxSystem suite) (g f : String) (client : AppClient suite) :
    (s.setApp g client).app f = if f = g then client else s.app f := by
  unfold KxSystem.setApp KxSystem.app
  dsimp only
  rw [lookup_insert_eq]
  split <;> rfl

@[simp] theorem app_sendUp (s : KxSystem suite) (socket : Option ConnId) (ct : Option String)
    (f : String) : (s.sendUp socket ct).app f = s.app f := by
  unfold KxSystem.sendUp
  split <;> rfl

@[simp] theorem daemon_sendUp (s : KxSystem suite) (socket : Option ConnId) (ct : Option String) :
    (s.sendUp socket ct).daemon = s.daemon := by
  unfold KxSystem.sendUp
  split <;> rfl

@[simp] theorem owner_sendUp (s : KxSystem suite) (socket : Option ConnId) (ct : Option String) :
    (s.sendUp socket ct).owner = s.owner := by
  unfold KxSystem.sendUp
  split <;> rfl

@[simp] theorem down_sendUp (s : KxSystem suite) (socket : Option ConnId) (ct : Option String) :
    (s.sendUp socket ct).down = s.down := by
  unfold KxSystem.sendUp
  split <;> rfl

/-- Nothing sent, nothing changed. -/
@[simp] theorem sendUp_none (s : KxSystem suite) (socket : Option ConnId) :
    s.sendUp socket none = s := by
  cases socket <;> rfl

/-- The relay forwards an admitted envelope to distinct authenticated peers,
with the role of its sender. -/
theorem relayForward_eq {core : RelayCore} {connId : ConnId} {client : AuthState}
    (hclient : core.authedState connId = some client) (admitted : Bool) (ct : String) :
    ∃ targets : List ConnId, targets.Nodup ∧
      (∀ target ∈ targets, ∃ auth, core.authedState target = some auth) ∧
      relayForward core connId admitted ct =
        targets.map fun target => (target, .kxFrame ct client.role) := by
  unfold relayForward
  rw [hclient]
  dsimp only
  split
  · refine ⟨(core.peersWhere client.daemonId fun auth => auth.role ≠ client.role).filter
      fun peer => peer ≠ connId, ?_, ?_, ?_⟩
    · exact (((core.groups.lookup client.daemonId).getD ∅).keys_nodup.filter _).filter _
    · intro target htarget
      have hpeer := List.mem_filter.mp (List.mem_filter.mp htarget).1
      obtain ⟨auth, hauth, -⟩ := (Option.any_eq_true _ _).mp hpeer.2
      exact ⟨auth, hauth⟩
    · unfold kxDeliveries routeKeyExchange
      rw [List.filterMap_map, ← List.filterMap_eq_map]
      rfl
  · exact ⟨[], List.nodup_nil, nofun, rfl⟩

/-- A connection that is not authenticated has nothing forwarded. -/
theorem relayForward_none {core : RelayCore} {connId : ConnId}
    (h : core.authedState connId = none) (admitted : Bool) (ct : String) :
    relayForward core connId admitted ct = [] := by
  rw [relayForward, h]

/-- Frames the relay forwards carry the envelope and the sender's role. -/
theorem mem_relayForward {core : RelayCore} {connId target : ConnId} {admitted : Bool}
    {ct : String} {msg : KxDown} (h : (target, msg) ∈ relayForward core connId admitted ct) :
    ∃ client, core.authedState connId = some client ∧ msg = .kxFrame ct client.role ∧
      ∃ auth, core.authedState target = some auth := by
  cases hclient : core.authedState connId with
  | none =>
    rw [relayForward_none hclient] at h
    cases h
  | some client =>
    obtain ⟨targets, -, hauthed, heq⟩ := relayForward_eq hclient admitted ct
    rw [heq] at h
    obtain ⟨peer, hpeer, hmsg⟩ := List.mem_map.mp h
    cases hmsg
    exact ⟨client, rfl, rfl, hauthed target hpeer⟩

end Views

section Channels

/-- An owned connection is not the next one. -/
theorem ChannelsSound.ne_next {s : KxSystem suite} (h : ChannelsSound config s) {connId : ConnId}
    {party : Party} (howner : s.owner.lookup connId = some party) : connId ≠ s.nextConnId := by
  rintro rfl
  rw [h.fresh _ le_rfl] at howner
  cases howner

/-- A new connection keeps the channels sound. -/
theorem ChannelsSound.accept {s : KxSystem suite} (h : ChannelsSound config s) (party : Party) :
    ChannelsSound config (s.accept party) := by
  have howner : ∀ connId other, s.owner.lookup connId = some other →
      (s.accept party).owner.lookup connId = some other := by
    intro connId other hother
    rw [KxSystem.accept, lookup_insert_eq, if_neg (h.ne_next hother), hother]
  refine ⟨?_, ?_, ?_, h.kxKey, ?_, ?_, h.down⟩
  · intro connId hle
    have hlt : s.nextConnId < connId := hle
    rw [KxSystem.accept, lookup_insert_eq, if_neg (Nat.ne_of_gt hlt)]
    exact h.fresh connId (Nat.le_of_lt hlt)
  · intro connId hs
    exact howner _ _ (h.socket connId hs)
  · intro frontendId connId ht
    exact howner _ _ (h.task frontendId connId ht)
  · intro connId auth hauth
    by_cases hc : connId = s.nextConnId
    · simp only [KxSystem.accept, RelayCore.authedState, lookup_insert_eq, if_pos hc] at hauth
      cases hauth
    · have hold : s.relay.authedState connId = some auth := by
        rw [← hauth]
        simp only [KxSystem.accept, RelayCore.authedState, lookup_insert_eq, if_neg hc]
      obtain ⟨owner, ho, hrole⟩ := h.roles connId auth hold
      exact ⟨owner, howner _ _ ho, hrole⟩
  · intro connId ct hm
    obtain ⟨owner, ho, henv⟩ := h.up connId ct hm
    exact ⟨owner, howner _ _ ho, henv⟩

/-- Sending an envelope on one's own socket keeps the channels sound. -/
theorem ChannelsSound.sendUp {s : KxSystem suite} (h : ChannelsSound config s) {party : Party}
    {socket : Option ConnId} {sent : Option String}
    (hsocket : ∀ connId, socket = some connId → s.owner.lookup connId = some party)
    (hsent : ∀ ct, sent = some ct → Envelope config party ct) :
    ChannelsSound config (s.sendUp socket sent) := by
  unfold KxSystem.sendUp
  split
  · next connId ct =>
    refine ⟨h.fresh, h.socket, h.task, h.kxKey, h.roles, ?_, h.down⟩
    intro c t hm
    rcases List.mem_append.mp hm with hold | hnew
    · exact h.up c t hold
    · cases List.mem_singleton.mp hnew
      exact ⟨party, hsocket connId rfl, hsent ct rfl⟩
  · exact h

/-- A client that stays on its own socket keeps the channels sound. -/
theorem ChannelsSound.setApp {s : KxSystem suite} (h : ChannelsSound config s) {frontendId : String}
    {client : AppClient suite}
    (htask : ∀ connId, client.task = some connId →
      s.owner.lookup connId = some (.app frontendId)) :
    ChannelsSound config (s.setApp frontendId client) := by
  refine ⟨h.fresh, h.socket, ?_, h.kxKey, h.roles, h.up, h.down⟩
  intro f connId ht
  rw [app_setApp] at ht
  split at ht
  · next hf =>
    rw [hf]
    exact htask connId ht
  · exact h.task f connId ht

/-- Taking a message off a queue keeps the channels sound. -/
theorem ChannelsSound.popDown {s : KxSystem suite} (h : ChannelsSound config s) {connId : ConnId}
    {msg : KxDown} {rest : Queues ConnId KxDown} (hpop : pop connId s.down = some (msg, rest)) :
    ChannelsSound config { s with down := rest } :=
  ⟨h.fresh, h.socket, h.task, h.kxKey, h.roles, h.up,
    fun c ct sender hm => h.down c ct sender (subset_of_pop hpop hm)⟩

/-- A daemon client on the same socket and key keeps the channels sound. -/
theorem ChannelsSound.setDaemon {s : KxSystem suite} (h : ChannelsSound config s)
    {client : DaemonClient}
    (hsocket : ∀ connId, client.socket = some connId → s.owner.lookup connId = some .daemon)
    (hkey : ∀ key, client.kxKey = some key → key = deriveKxKey suite config.pairingSecret) :
    ChannelsSound config { s with daemon := client } :=
  ⟨h.fresh, hsocket, h.task, hkey, h.roles, h.up, h.down⟩

/-- Handling a message changes neither socket nor envelope key of the daemon. -/
theorem daemonHandle_frame (config : DaemonConfig suite) (client : DaemonClient) (nonce : Nonce) (msg : KxDown) :
    (daemonHandle config client nonce msg).1.socket = client.socket ∧
      (daemonHandle config client nonce msg).1.kxKey = client.kxKey := by
  cases msg with
  | authOk resumed => exact ⟨rfl, rfl⟩
  | kxFrame ct sender =>
    simp only [daemonHandle, handleKxFrame]
    split <;> exact ⟨rfl, rfl⟩

/-- The daemon only ever sends its public key. -/
theorem broadcast_envelope {client : DaemonClient}
    (hkey : ∀ key, client.kxKey = some key → key = deriveKxKey suite config.pairingSecret)
    {nonce : Nonce} {ct : String} (h : broadcastDaemonPublicKey config client nonce = some ct) :
    Envelope config .daemon ct := by
  obtain ⟨key, hk, rfl⟩ := Option.map_eq_some_iff.mp h
  rw [hkey key hk]
  exact ⟨nonce, rfl⟩

/-- What the daemon answers is its envelope. -/
theorem daemonHandle_envelope {client : DaemonClient}
    (hkey : ∀ key, client.kxKey = some key → key = deriveKxKey suite config.pairingSecret)
    {nonce : Nonce} {msg : KxDown} {ct : String}
    (h : (daemonHandle config client nonce msg).2.1 = some ct) : Envelope config .daemon ct := by
  cases msg with
  | authOk resumed =>
    simp only [daemonHandle, handleAuthOk] at h
    split at h
    · cases h
    · exact broadcast_envelope hkey h
  | kxFrame ct sender =>
    simp only [daemonHandle, handleKxFrame] at h
    split at h
    · cases h
    · exact broadcast_envelope hkey h

/-- What a started exchange sends is the app's envelope. -/
theorem startKeyExchange_envelope (frontendId : String) (client : AppClient suite) (seed : Key)
    (nonce : Nonce) : Envelope config (.app frontendId)
      (startKeyExchange config.toPairing frontendId client seed nonce).2 :=
  ⟨_, nonce, rfl⟩

/-- Handling a message does not change the socket of an app. -/
theorem appHandle_task (pairing : Pairing) (frontendId : String) (client : AppClient suite)
    (seed : Key) (nonce : Nonce) (msg : KxDown) :
    (appHandle pairing frontendId client seed nonce msg).1.task = client.task := by
  cases msg with
  | authOk resumed => rfl
  | kxFrame ct sender =>
    simp only [appHandle, onKeyExchangeFrame]
    split
    · rfl
    · split <;> rfl

/-- What an app sends is its envelope. -/
theorem appHandle_envelope {frontendId : String} {client : AppClient suite} {seed : Key}
    {nonce : Nonce} {msg : KxDown} {ct : String}
    (h : (appHandle config.toPairing frontendId client seed nonce msg).2.1 = some ct) :
    Envelope config (.app frontendId) ct := by
  cases msg with
  | authOk resumed =>
    cases h
    exact startKeyExchange_envelope frontendId client seed nonce
  | kxFrame ct sender =>
    simp only [appHandle, onKeyExchangeFrame] at h
    split at h
    · cases h
    · split at h
      · cases h
        exact startKeyExchange_envelope frontendId _ seed nonce
      · cases h

/-- The relay's answer to an authenticated party keeps the channels sound. -/
theorem ChannelsSound.authenticate {s : KxSystem suite} (h : ChannelsSound config s)
    {connId : ConnId} {party : Party} (howner : s.owner.lookup connId = some party)
    (resumed : Bool) : ChannelsSound config { s with
      relay := registerAuthedConn s.relay connId ⟨party.role, config.daemonId, party.frontendId, ∅⟩
      down := s.down ++ [(connId, .authOk resumed)] } := by
  refine ⟨h.fresh, h.socket, h.task, h.kxKey, ?_, h.up, ?_⟩
  · intro c auth hauth
    rw [authedState_registerAuthedConn] at hauth
    split at hauth
    · next hc =>
      cases hauth
      rw [hc.1]
      exact ⟨party, howner, rfl⟩
    · exact h.roles c auth hauth
  · intro c ct sender hm
    rcases List.mem_append.mp hm with hold | hnew
    · exact h.down c ct sender hold
    · cases List.mem_singleton.mp hnew

/-- A frame that the relay passes on keeps the channels sound. -/
theorem ChannelsSound.forward {s : KxSystem suite} (h : ChannelsSound config s) {connId : ConnId}
    {ct : String} {rest : Queues ConnId String} (hpop : pop connId s.up = some (ct, rest))
    (admitted : Bool) : ChannelsSound config { s with
      up := rest
      down := s.down ++ relayForward s.relay connId admitted ct } := by
  refine ⟨h.fresh, h.socket, h.task, h.kxKey, h.roles,
    fun c t hm => h.up c t (subset_of_pop hpop hm), ?_⟩
  intro c t sender hm
  rcases List.mem_append.mp hm with hold | hnew
  · exact h.down c t sender hold
  · obtain ⟨client, hclient, hmsg, -⟩ := mem_relayForward hnew
    cases hmsg
    obtain ⟨party, howner, hrole⟩ := h.roles connId client hclient
    obtain ⟨party', howner', henv⟩ := h.up connId ct (mem_of_pop hpop)
    cases howner.symm.trans howner'
    exact ⟨party, hrole.symm, henv⟩

/-- A connection that the relay closes keeps the channels sound. -/
theorem ChannelsSound.close {s : KxSystem suite} (h : ChannelsSound config s) (connId : ConnId)
    (now : ℕ) : ChannelsSound config { s with relay := (closeConn s.relay connId now).1 } := by
  refine ⟨h.fresh, h.socket, h.task, h.kxKey, ?_, h.up, h.down⟩
  intro c auth hauth
  refine h.roles c auth ?_
  simp only [RelayCore.authedState, closeConn_core, conns_handleClose, lookup_erase_eq] at hauth
  split at hauth
  · cases hauth
  · exact hauth

/-- Every event keeps the channels sound. -/
theorem kxStep_channels {s : KxSystem suite} (h : ChannelsSound config s) (e : KxEvent) :
    ChannelsSound config (kxStep config s e) := by
  unfold kxStep
  cases e with
  | daemonConnect =>
    have hsocket : ∀ connId, (s.daemon.connect config s.nextConnId).socket = some connId →
        (s.accept .daemon).owner.lookup connId = some .daemon := by
      intro connId hs
      cases hs
      exact AList.lookup_insert _
    refine (h.accept .daemon).setDaemon hsocket fun key hk => ?_
    cases hk
    cases hold : s.daemon.kxKey with
    | none => rfl
    | some old => exact h.kxKey old hold
  | daemonRestart => exact h.setDaemon nofun nofun
  | appConnect frontendId =>
    simp only [kxStepMarks, AppClient.connectOnQueue]
    split
    · exact h.setApp (h.task frontendId)
    · refine (h.accept (.app frontendId)).setApp fun connId ht => ?_
      cases ht
      exact AList.lookup_insert _
  | appDisconnect frontendId => exact h.setApp nofun
  | appReceiveFailure frontendId =>
    refine h.setApp fun connId ht => ?_
    unfold AppClient.scheduleReconnect at ht
    split at ht
    · exact h.task frontendId connId ht
    · cases ht
  | relayAuth connId resumed =>
    simp only [kxStepMarks]
    split
    · exact h
    · next party howner => exact h.authenticate howner resumed
  | relayReceive connId admitted =>
    simp only [kxStepMarks]
    split
    · exact h
    · next ct rest hpop => exact h.forward hpop admitted
  | relayClose connId now => exact h.close connId now
  | lost connId =>
    exact ⟨h.fresh, h.socket, h.task, h.kxKey, h.roles,
      fun c t hm => h.up c t (lose_subset connId s.up hm),
      fun c t sender hm => h.down c t sender (lose_subset connId s.down hm)⟩
  | daemonReceive nonce =>
    simp only [kxStepMarks]
    split
    · exact h
    · next msg rest hpop =>
      obtain ⟨connId, -, hpop⟩ := Option.bind_eq_some_iff.mp hpop
      obtain ⟨hsocket, hkey⟩ := daemonHandle_frame config s.daemon nonce msg
      refine ((h.popDown hpop).setDaemon ?_ ?_).sendUp h.socket fun ct hct =>
        daemonHandle_envelope h.kxKey hct
      · rw [hsocket]
        exact h.socket
      · rw [hkey]
        exact h.kxKey
  | appReceive frontendId connId seed nonce =>
    simp only [kxStepMarks]
    split
    · split
      · exact h
      · next msg rest hpop =>
        refine ((h.popDown hpop).setApp ?_).sendUp (h.task frontendId) fun ct hct =>
          appHandle_envelope hct
        rw [appHandle_task]
        exact h.task frontendId
    · exact h

end Channels

section Holdings

/-- The marks of an app's handler are about that app. -/
theorem appHandle_marks {pairing : Pairing} {frontendId : String} {client : AppClient suite}
    {seed : Key} {nonce : Nonce} {msg : KxDown} {mark : KxMark}
    (h : mark ∈ (appHandle pairing frontendId client seed nonce msg).2.2) :
    appOf mark = some frontendId := by
  have hstarted : ∀ started : AppClient suite, mark ∈ startedMark frontendId started →
      appOf mark = some frontendId := by
    intro started hm
    obtain ⟨keyPair, -, rfl⟩ := List.mem_map.mp hm
    rfl
  cases msg with
  | authOk resumed => exact hstarted _ h
  | kxFrame ct sender =>
    rcases List.mem_append.mp h with hkeyed | hsent
    · obtain ⟨-, -, rfl⟩ := List.mem_map.mp hkeyed
      rfl
    · split at hsent
      · exact hstarted _ hsent
      · cases hsent

/-- The marks of the daemon's handler are about no app. -/
theorem daemonHandle_marks {client : DaemonClient} {nonce : Nonce} {msg : KxDown} {mark : KxMark}
    (h : mark ∈ (daemonHandle config client nonce msg).2.2) : appOf mark = none := by
  cases msg with
  | authOk resumed =>
    obtain ⟨-, -, rfl⟩ := List.mem_map.mp h
    rfl
  | kxFrame ct sender =>
    rcases List.mem_append.mp h with hsent | hprocessed
    · obtain ⟨-, -, rfl⟩ := List.mem_map.mp hsent
      rfl
    · obtain ⟨-, -, rfl⟩ := List.mem_map.mp hprocessed
      rfl

/-- Marks about others keep what an app holds. -/
theorem AppHolds.append_other {frontendId : String} {client : AppClient suite}
    {history marks : List KxMark} (h : AppHolds config frontendId client history)
    (hmarks : ∀ mark ∈ marks, appOf mark ≠ some frontendId) :
    AppHolds config frontendId client (marks ++ history) := by
  obtain ⟨hsent, hkeyed⟩ := history_append_other hmarks history
  intro keyPair hkp
  rw [hsent, hkeyed]
  exact h keyPair hkp

/-- What an accepted daemon frame says about the app and the envelope. -/
theorem acceptDaemonKx_eq_some {pairing : Pairing} {client : AppClient suite} {sender : Role}
    {ct : String} {keyPair : KxKeyPair suite} {daemonPk : Key} {v : ℤ}
    (h : acceptDaemonKx pairing client sender ct = some (keyPair, daemonPk, v)) :
    sender = .daemon ∧ client.kxKeyPair = some keyPair ∧
      readDaemonKx suite pairing ct = some (daemonPk, v) := by
  unfold acceptDaemonKx at h
  split at h
  · cases h
  · next hsender =>
    obtain ⟨keyPair', hkp, hread⟩ := Option.bind_eq_some_iff.mp h
    obtain ⟨daemon, hdaemon, heq⟩ := Option.map_eq_some_iff.mp hread
    cases heq
    exact ⟨not_not.mp hsender, hkp, hdaemon⟩

/-- A handled message keeps what the app holds, when daemon frames carry the
daemon's key. -/
theorem appHandle_holds {frontendId : String} {client : AppClient suite} {history : List KxMark}
    (h : AppHolds config frontendId client history) (seed : Key) (nonce : Nonce) (msg : KxDown)
    (hread : ∀ ct daemonPk v, msg = .kxFrame ct .daemon →
      readDaemonKx suite config.toPairing ct = some (daemonPk, v) →
        daemonPk = config.keyPair.publicKey) :
    AppHolds config frontendId (appHandle config.toPairing frontendId client seed nonce msg).1
      ((appHandle config.toPairing frontendId client seed nonce msg).2.2 ++ history) := by
  cases msg with
  | authOk resumed =>
    intro keyPair hkp
    cases hkp
    exact ⟨if_pos rfl, fun hkeyed => absurd rfl hkeyed.1⟩
  | kxFrame ct sender =>
    cases haccept : acceptDaemonKx config.toPairing client sender ct with
    | none =>
      simp only [appHandle, onKeyExchangeFrame, haccept]
      exact h
    | some accepted =>
      obtain ⟨keyPair, daemonPk, v⟩ := accepted
      obtain ⟨rfl, hkp, hdaemon⟩ := acceptDaemonKx_eq_some haccept
      cases hread ct daemonPk v rfl hdaemon
      cases hkeys : client.sessionKeys with
      | some keys =>
        simp only [appHandle, onKeyExchangeFrame, haccept, hkeys]
        intro fresh hfresh
        cases hfresh
        exact ⟨if_pos rfl, fun _ => ⟨rfl, rfl⟩⟩
      | none =>
        simp only [appHandle, onKeyExchangeFrame, haccept, hkeys]
        intro current hcurrent
        cases hkp.symm.trans hcurrent
        exact ⟨(h keyPair hkp).1, fun _ => ⟨rfl, rfl⟩⟩

/-- A read frontend frame names the accepted frontend and key. -/
theorem readKxFrame_accept {client : DaemonClient} {sender : Role} {ct : String}
    {payload : KxPayload} {frontendId : String} {key : Key}
    (h : readKxFrame suite client sender ct = some (payload, frontendId, key)) :
    acceptPayload suite payload = some (frontendId, key) := by
  unfold readKxFrame at h
  split at h
  · cases h
  · obtain ⟨plaintext, -, hpayload⟩ := Option.bind_eq_some_iff.mp h
    obtain ⟨payload', -, haccept⟩ := Option.bind_eq_some_iff.mp hpayload
    obtain ⟨accepted, hok, heq⟩ := Option.map_eq_some_iff.mp haccept
    cases heq
    exact hok

/-- Marks of a send are skipped. -/
theorem lastProcessed_sent (frontendId : String) (sent : Option String) (history : List KxMark) :
    lastProcessed frontendId ((sent.toList.map fun _ => KxMark.daemonSent) ++ history) =
      lastProcessed frontendId history := by
  cases sent <;> rfl

/-- A handled message keeps what the daemon holds. -/
theorem daemonHandle_holds {client : DaemonClient} {history : List KxMark}
    (h : DaemonHolds config client history) (nonce : Nonce) (msg : KxDown) :
    DaemonHolds config (daemonHandle config client nonce msg).1
      ((daemonHandle config client nonce msg).2.2 ++ history) := by
  cases msg with
  | authOk resumed =>
    intro frontendId payload hlast
    simp only [daemonHandle, lastProcessed_sent] at hlast
    exact h frontendId payload hlast
  | kxFrame ct sender =>
    intro f p hlast
    cases hread : readKxFrame suite client sender ct with
    | none =>
      simp only [daemonHandle, handleKxFrame, hread] at hlast ⊢
      exact h f p hlast
    | some read =>
      obtain ⟨payload, frontendId, key⟩ := read
      simp only [daemonHandle, handleKxFrame, hread, List.append_assoc, lastProcessed_sent]
        at hlast ⊢
      simp only [Option.toList_some, List.map_cons, List.map_nil, List.cons_append,
        List.nil_append, lastProcessed] at hlast
      split at hlast
      · next hf =>
        cases hlast
        subst hf
        exact ⟨key, readKxFrame_accept hread, AList.lookup_insert _⟩
      · next hf =>
        obtain ⟨old, haccept, hpeer⟩ := h f p hlast
        refine ⟨old, haccept, ?_⟩
        rw [lookup_insert_eq, if_neg (Ne.symm hf), hpeer]

/-- A daemon frame in flight carries the daemon's key. -/
theorem ChannelsSound.daemonKey {s : KxSystem suite} (h : ChannelsSound config s)
    (laws : suite.Lawful) {connId : ConnId} {ct : String} {daemonPk : Key} {v : ℤ}
    (hm : (connId, .kxFrame ct .daemon) ∈ s.down)
    (hread : readDaemonKx suite config.toPairing ct = some (daemonPk, v)) :
    daemonPk = config.keyPair.publicKey := by
  obtain ⟨party, hrole, henv⟩ := h.down connId ct .daemon hm
  cases party with
  | daemon =>
    obtain ⟨nonce, rfl⟩ := henv
    rw [readDaemonKx_seal laws] at hread
    cases hread
    rfl
  | app frontendId => cases hrole

/-- Every event keeps what the apps hold. -/
theorem runStep_apps (laws : suite.Lawful) {w : KxRun suite} (h : ExchangeSound config w)
    (e : KxEvent) (frontendId : String) :
    AppHolds config frontendId ((runStep config w e).system.app frontendId)
      (runStep config w e).history := by
  have hold := h.apps frontendId
  unfold runStep
  cases e with
  | daemonConnect => exact hold
  | daemonRestart => exact hold
  | appConnect g =>
    simp only [kxStepMarks, List.nil_append, app_setApp, AppClient.connectOnQueue]
    by_cases hf : frontendId = g
    · subst hf
      rw [if_pos rfl]
      split <;> exact hold
    · rw [if_neg hf]
      split <;> exact hold
  | appDisconnect g =>
    simp only [kxStepMarks, List.nil_append, app_setApp]
    split
    · next hf =>
      subst hf
      exact hold
    · exact hold
  | appReceiveFailure g =>
    simp only [kxStepMarks, List.nil_append, app_setApp]
    split
    · next hf =>
      subst hf
      unfold AppClient.scheduleReconnect
      split
      · exact hold
      · exact nofun
    · exact hold
  | relayAuth connId resumed =>
    simp only [kxStepMarks]
    split <;> exact hold
  | relayReceive connId admitted =>
    simp only [kxStepMarks]
    split <;> exact hold
  | relayClose connId now => exact hold
  | lost connId => exact hold
  | daemonReceive nonce =>
    simp only [kxStepMarks]
    split
    · exact hold
    · next msg rest hpop =>
      dsimp only
      rw [app_sendUp]
      refine hold.append_other fun mark hm => ?_
      rw [daemonHandle_marks hm]
      exact nofun
  | appReceive g connId seed nonce =>
    simp only [kxStepMarks]
    split
    · split
      · exact hold
      · next msg rest hpop =>
        dsimp only
        rw [app_sendUp, app_setApp]
        split
        · next hf =>
          subst hf
          refine appHandle_holds hold seed nonce msg fun ct daemonPk v hmsg hread => ?_
          subst hmsg
          exact h.channels.daemonKey laws (mem_of_pop hpop) hread
        · next hf =>
          refine AppHolds.append_other hold fun mark hm => ?_
          rw [appHandle_marks hm]
          exact fun heq => hf (Option.some_inj.mp heq).symm
    · exact hold

/-- Every event keeps what the daemon holds. -/
theorem runStep_daemon {w : KxRun suite} (h : DaemonHolds config w.system.daemon w.history)
    (e : KxEvent) :
    DaemonHolds config (runStep config w e).system.daemon (runStep config w e).history := by
  unfold runStep
  cases e with
  | daemonConnect => exact h
  | daemonRestart => exact nofun
  | appConnect frontendId =>
    simp only [kxStepMarks]
    split <;> exact h
  | appDisconnect frontendId => exact h
  | appReceiveFailure frontendId => exact h
  | relayAuth connId resumed =>
    simp only [kxStepMarks]
    split <;> exact h
  | relayReceive connId admitted =>
    simp only [kxStepMarks]
    split <;> exact h
  | relayClose connId now => exact h
  | lost connId => exact h
  | daemonReceive nonce =>
    simp only [kxStepMarks]
    split
    · exact h
    · next msg rest hpop =>
      dsimp only
      rw [daemon_sendUp]
      exact daemonHandle_holds h nonce msg
  | appReceive frontendId connId seed nonce =>
    simp only [kxStepMarks]
    split
    · split
      · exact h
      · next msg rest hpop =>
        dsimp only
        rw [daemon_sendUp]
        intro f payload hlast
        rw [lastProcessed_append_apps fun mark hm => by rw [appHandle_marks hm]; rfl] at hlast
        exact h f payload hlast
    · exact h

end Holdings

/-- Nothing is connected or known at the start. -/
theorem initial_sound : ExchangeSound config (KxRun.initial suite) where
  channels := ⟨fun _ _ => rfl, nofun, nofun, nofun, nofun, nofun, nofun⟩
  apps := nofun
  daemon := nofun

/-- Every event keeps the exchange sound. -/
theorem runStep_sound (laws : suite.Lawful) (w : KxRun suite) (e : KxEvent)
    (h : ExchangeSound config w) : ExchangeSound config (runStep config w e) where
  channels := kxStep_channels h.channels e
  apps := runStep_apps laws h e
  daemon := runStep_daemon h.daemon e

/-- In every reachable state in which the last payload the daemon processed
for a frontend is the last one its app sent, and the app derived keys for its
current key pair, the daemon's session keys are those of the app with the
directions swapped, and both hold the same confirmation tag. -/
theorem keys_agree (laws : suite.Lawful) (config : DaemonConfig suite) (events : List KxEvent)
    (frontendId : String) (payload : KxPayload)
    (hprocessed : lastProcessed frontendId
      (runFrom (runStep config) (KxRun.initial suite) events).history = some payload)
    (hsent : lastSent frontendId
      (runFrom (runStep config) (KxRun.initial suite) events).history = some payload)
    (hkeyPair : ((runFrom (runStep config) (KxRun.initial suite) events).system.app
      frontendId).kxKeyPair.isSome)
    (hkeyed : KeyedSince frontendId
      (runFrom (runStep config) (KxRun.initial suite) events).history) :
    ∃ peer keys,
      (runFrom (runStep config) (KxRun.initial suite) events).system.daemon.peers.lookup
        frontendId = some peer ∧
      ((runFrom (runStep config) (KxRun.initial suite) events).system.app
        frontendId).sessionKeys = some keys ∧
      peer.sessionKeys = keys.mirror ∧
      peer.pctB64 = ((runFrom (runStep config) (KxRun.initial suite) events).system.app
        frontendId).epochPctB64 ∧
      peer.pctB64 = peer.pct.map (fun tag => suite.toBase64 tag.bytes) ∧
      (config.pairingId.text ≠ "" → peer.pct.isSome) := by
  have hsound : ExchangeSound config (runFrom (runStep config) (KxRun.initial suite) events) :=
    runFrom_induction (runStep_sound laws) initial_sound events
  obtain ⟨keyPair, hkp⟩ := Option.isSome_iff_exists.mp hkeyPair
  obtain ⟨hlast, hderived⟩ := hsound.apps frontendId keyPair hkp
  obtain ⟨hkeys, hpct⟩ := hderived hkeyed
  obtain ⟨key, haccept, hpeer⟩ := hsound.daemon frontendId payload hprocessed
  have hpayload : payload = appPayload suite frontendId keyPair.publicKey :=
    Option.some_inj.mp (hsent.symm.trans hlast)
  have hkey : key = keyPair.publicKey := by
    rw [hpayload] at haccept
    simp only [acceptPayload, appPayload, laws.base64_round_trip, Option.bind_some,
      FixedBytes.ofBytes_bytes, Option.map_some] at haccept
    split at haccept
    · cases haccept
    · cases haccept
      rfl
  have hmirror := kxServerSessionKeys_mirror laws config.keyPair keyPair
  refine ⟨_, _, hpeer, hkeys, ?_, ?_, rfl, fun hid => daemonPct_isSome config hid key _⟩
  · rw [hkey]
    exact hmirror
  · rw [hpct, deriveEpochPct_eq config keyPair hmirror, hkey]
    rfl

/-- The daemon of the sample pairing. -/
def sampleConfig : DaemonConfig sampleSuite where
  pairingId := samplePairingId
  daemonId := "daemon-1"
  hostname := "host"
  pairingSecret := samplePairingSecret
  keyPair := ⟨sampleDaemonPublic, sampleDaemonSecret, rfl⟩

/-- Both sides connect, the app's key reaches the daemon and the daemon's
key reaches the app. -/
def sampleEvents : List KxEvent :=
  [.daemonConnect, .relayAuth 1 false, .appConnect "f", .relayAuth 2 false,
    .daemonReceive sampleDaemonNonce, .appReceive "f" 2 sampleSeed sampleAppNonce,
    .relayReceive 2 true, .daemonReceive sampleDaemonNonce, .relayReceive 1 true,
    .appReceive "f" 2 sampleSeed sampleAppNonce]

/-- The sample exchange ends with mirrored keys and one tag. -/
theorem keys_agree_sample : ∃ peer keys,
    (runFrom (runStep sampleConfig) (KxRun.initial sampleSuite)
      sampleEvents).system.daemon.peers.lookup "f" = some peer ∧
    ((runFrom (runStep sampleConfig) (KxRun.initial sampleSuite)
      sampleEvents).system.app "f").sessionKeys = some keys ∧
    peer.sessionKeys = keys.mirror ∧
    peer.pctB64 = ((runFrom (runStep sampleConfig) (KxRun.initial sampleSuite)
      sampleEvents).system.app "f").epochPctB64 ∧
    peer.pctB64 = peer.pct.map (fun tag => sampleSuite.toBase64 tag.bytes) ∧
    (sampleConfig.pairingId.text ≠ "" → peer.pct.isSome) := by
  have hhistory : (runFrom (runStep sampleConfig) (KxRun.initial sampleSuite)
      sampleEvents).history =
      [.appKeyed "f", .daemonSent, .daemonProcessed "f" ⟨some sampleAppPk, some "f", some 3⟩,
        .appSent "f" ⟨some sampleAppPk, some "f", some 3⟩, .daemonSent] := by
    decide +kernel
  refine keys_agree sampleSuite_lawful sampleConfig sampleEvents "f"
    ⟨some sampleAppPk, some "f", some 3⟩ ?_ ?_ ?_ ?_
  · rw [hhistory]
    rfl
  · rw [hhistory]
    rfl
  · decide +kernel
  · rw [hhistory]
    exact Or.inl rfl

end Teleprompter.KeyAgreement
