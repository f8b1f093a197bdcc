import Teleprompter.KeyExchange
import Teleprompter.StepRuns

/-!
# The manager of saved pairings

The daemon keeps a row for every pairing, a pool of relay clients, and the
push tokens of the apps, in the store and in the memory of the notifier.
Removing, renaming and reconnecting pairings, greeting a frontend and sending
pushes are tasks; each of their stages is one lock section or one await, and
between two stages any other task may run. Labels are kept as values of the
label type, which are trimmed and not empty.
-/

namespace Teleprompter.RelayManager

open FiniteDictionary KeyExchange PairingCrypto

/-- What connects to the relay and to the apps of a pairing. -/
structure Credentials where
  relayUrl : String
  relayToken : String
  registrationProof : String
  publicKey : Bytes
  secretKey : Bytes
  pairingSecret : Bytes
  deriving DecidableEq

/-- A row of the pairings table; an unknown identity is empty. -/
structure StoredPairing where
  daemonId : String
  credentials : Credentials
  label : Label
  pairingId : String
  hostname : String
  createdAt : ℕ
  deriving DecidableEq

/-- What a relay client is created with. Its callbacks capture label and
daemon. -/
structure RelayClientConfig where
  daemonId : String
  credentials : Credentials
  label : Option Label
  pairingId : String
  hostname : String
  deriving DecidableEq

/-- A relay client object. -/
structure Client where
  config : RelayClientConfig
  disposed : Bool
  /-- The relay accepted it. -/
  authenticated : Bool
  /-- It has a sender to write to. -/
  isOpen : Bool
  /-- Frontends that exchanged keys with it. -/
  peers : List String
  deriving DecidableEq

/-- A client object before it connects. -/
def Client.new (config : RelayClientConfig) : Client := ⟨config, false, false, false, []⟩

/-- The label that a client puts into its messages. -/
def Client.label (c : Client) : Label := c.config.label.getD .unset

/-- A sealed push token, and the pairing it was registered under. -/
structure TokenEntry where
  sealed : String
  platform : String
  daemonId : String
  deriving DecidableEq

/-- A push that a hook event asks for. -/
structure PushRequest where
  frontendId : String
  sealed : String
  daemonId : String
  deriving DecidableEq

/-- A label that was sent, with what was stored at that moment. -/
structure LabelSent where
  daemonId : String
  label : Label
  /-- The label of the row. -/
  stored : Option Label
  /-- A rename of the pairing has been stored. -/
  renamed : Bool
  deriving DecidableEq

/-- A push that was sent. -/
structure PushSent where
  request : PushRequest
  client : ClientId
  /-- The pairing of the token was removed, and none was registered since. -/
  removed : Bool
  deriving DecidableEq

/-- What the tasks share, and a record of what they did. -/
structure Manager where
  /-- The pairings table. -/
  rows : Dict String StoredPairing
  /-- The push tokens table, by frontend. -/
  pushTokens : Dict String TokenEntry
  /-- The tokens that the notifier holds, by frontend. -/
  tokens : Dict String TokenEntry
  /-- Client objects in the order of their creation. -/
  clients : List Client
  /-- Pooled clients. -/
  pool : List ClientId
  /-- Daemons whose removal is under way. -/
  removing : List String
  /-- Record: pairings deleted from the store. -/
  removed : List String
  /-- Record: the last rename stored for each pairing. -/
  renamed : Dict String Label
  /-- Record: daemons whose removal has finished and for which no token was
  registered since. -/
  tokenless : List String
  /-- Record: labels sent in key exchanges and hellos. -/
  labelsSent : List LabelSent
  /-- Record: pushes sent. -/
  pushesSent : List PushSent

namespace Manager

/-- A pooled client belongs to a daemon. -/
def isOf (s : Manager) (daemonId : String) (id : ClientId) : Bool :=
  s.clients[id]?.any fun c => c.config.daemonId == daemonId

/-- The first pooled client of a daemon. -/
def findClient (s : Manager) (daemonId : String) : Option ClientId :=
  s.pool.find? (s.isOf daemonId)

/-- Changes a client object. -/
def modifyClient (s : Manager) (id : ClientId) (f : Client → Client) : Manager :=
  { s with clients := s.clients.modify id f }

/-- A client is disposed. -/
def dispose (s : Manager) (id : ClientId) : Manager :=
  s.modifyClient id fun c => { c with disposed := true, isOpen := false }

/-- Rows in the order of their creation. -/
def loadPairings (s : Manager) : List StoredPairing :=
  (s.rows.entries.map Sigma.snd).insertionSort fun a b => a.createdAt ≤ b.createdAt

/-- A row is inserted or refreshed; an unknown identity does not replace a
known one. -/
def savePairing (s : Manager) (config : RelayClientConfig) (label : Label) (now : ℕ) : Manager :=
  let row : StoredPairing := match s.rows.lookup config.daemonId with
    | none => ⟨config.daemonId, config.credentials, label, config.pairingId, config.hostname, now⟩
    | some old => ⟨config.daemonId, config.credentials, label,
        if config.pairingId = "" then old.pairingId else config.pairingId,
        if config.hostname = "" then old.hostname else config.hostname, old.createdAt⟩
  { s with rows := s.rows.insert config.daemonId row }

/-- The label of a row is changed, if there is one. -/
def updatePairingLabel (s : Manager) (daemonId : String) (label : Label) : Manager :=
  if daemonId ∈ s.rows then
    { s with
      rows := alterKey daemonId (fun row => { row with label }) s.rows
      renamed := s.renamed.insert daemonId label }
  else s

/-- A row and the push tokens of its daemon are deleted. -/
def deletePairing (s : Manager) (daemonId : String) : Manager :=
  { s with
    rows := s.rows.erase daemonId
    pushTokens := (s.pushTokens.entries.filter fun e => e.2.daemonId = daemonId).foldl
      (fun table e => table.erase e.1) s.pushTokens
    removed := daemonId :: s.removed }

/-- A client can send: it is accepted and has a sender. -/
def canSend (s : Manager) (id : ClientId) : Bool :=
  s.clients[id]?.any fun c => c.authenticated && c.isOpen

/-- A client knows a frontend. -/
def hasPeer (s : Manager) (id : ClientId) (frontendId : String) : Bool :=
  s.clients[id]?.any fun c => c.peers.contains frontendId

/-- A label was sent for a daemon. -/
def recordLabel (s : Manager) (daemonId : String) (label : Label) : Manager :=
  { s with labelsSent := s.labelsSent ++
      [⟨daemonId, label, (s.rows.lookup daemonId).map StoredPairing.label, daemonId ∈ s.renamed⟩] }

/-- A client broadcasts its public key, and with it its label. -/
def broadcastDaemonPublicKey (s : Manager) (id : ClientId) : Manager :=
  match s.clients[id]? with
  | some c => if c.isOpen then s.recordLabel c.config.daemonId c.label else s
  | none => s

/-- A removal has finished. -/
def removalFinished (s : Manager) (daemonId : String) : Manager :=
  { s with tokenless := daemonId :: s.tokenless }

/-- The notifier takes a token into memory and store. -/
def registerSealedToken (s : Manager) (frontendId daemonId sealed platform : String)
    (saved : Bool) : Manager :=
  { s with
    tokens := s.tokens.insert frontendId ⟨sealed, platform, daemonId⟩
    pushTokens := if saved then s.pushTokens.insert frontendId ⟨sealed, platform, daemonId⟩
      else s.pushTokens
    tokenless := s.tokenless.filter (· != daemonId) }

/-- The notifier drops a token that the relay reported as useless. -/
def dropToken (s : Manager) (frontendId : String) (deleted : Bool) : Manager :=
  if frontendId ∈ s.tokens then
    { s with
      tokens := s.tokens.erase frontendId
      pushTokens := if deleted then s.pushTokens.erase frontendId else s.pushTokens }
  else s

/-- A push goes to the client of its token's daemon, and to all clients when
there is none. -/
def pushTargets (s : Manager) (request : PushRequest) : List ClientId :=
  if request.daemonId = "" then s.pool
  else match s.findClient request.daemonId with
    | some id => [id]
    | none => s.pool

/-- A client sends a push, if it can. -/
def sendPush (s : Manager) (request : PushRequest) (id : ClientId) : Manager :=
  if s.canSend id then
    { s with pushesSent := s.pushesSent ++ [⟨request, id, request.daemonId ∈ s.tokenless⟩] }
  else s

end Manager

/-- The outcome of a step that the store or the socket decides. -/
structure Env where
  /-- The statement succeeds. -/
  storeOk : Bool
  /-- The message is handed to the channel. -/
  delivered : Bool
  /-- The clock. -/
  now : ℕ
  deriving DecidableEq

/-- Where a removal stands. -/
inductive RemoveStage where
  | start
  /-- Another removal of the daemon is under way: only the store is left. -/
  | reentrant
  | finding
  | found (client : Option ClientId)
  | notifying (client : ClientId) (peers : List String) (notified : ℕ)
  | deleting (client : Option ClientId) (notified : ℕ)
  | disposing (client : ClientId) (notified : ℕ)
  | dropping (client : ClientId) (notified : ℕ)
  | releasing (notified : ℕ)
  | returned (notified : ℕ)
  deriving DecidableEq

/-- A call of remove_pairing. -/
structure RemoveTask where
  daemonId : String
  notifyPeer : Bool
  stage : RemoveStage
  /-- It met another removal of the daemon. -/
  reentrant : Bool
  /-- Whether the store deleted the row, once it was asked. -/
  deleted : Option Bool
  deriving DecidableEq

/-- A call that has just been made. -/
def RemoveTask.new (daemonId : String) (notifyPeer : Bool) : RemoveTask :=
  ⟨daemonId, notifyPeer, .start, false, none⟩

/-- A notice is sent to a peer, and counted if it was handed on. -/
def Manager.noticed (s : Manager) (id : ClientId) (env : Env) (notified : ℕ) : ℕ :=
  if s.canSend id && env.delivered then notified + 1 else notified

/-- The store is asked to delete the row; an error is not looked at. -/
def Manager.tryDelete (s : Manager) (daemonId : String) (env : Env) : Manager :=
  if env.storeOk then s.deletePairing daemonId else s

/-- One stage of a removal. -/
def RemoveTask.next (t : RemoveTask) (s : Manager) (env : Env) : Manager × RemoveTask :=
  match t.stage with
  | .start =>
    if t.daemonId ∈ s.removing then (s, { t with stage := .reentrant, reentrant := true })
    else ({ s with removing := t.daemonId :: s.removing }, { t with stage := .finding })
  | .reentrant =>
    ((s.tryDelete t.daemonId env).removalFinished t.daemonId,
      { t with stage := .returned 0, deleted := some env.storeOk })
  | .finding => (s, { t with stage := .found (s.findClient t.daemonId) })
  | .found client =>
    (s, { t with stage := match client with
      | some id =>
        if t.notifyPeer then .notifying id ((s.clients[id]?.map Client.peers).getD []) 0
        else .deleting (some id) 0
      | none => .deleting none 0 })
  | .notifying id [] notified => (s, { t with stage := .deleting (some id) notified })
  | .notifying id (_ :: peers) notified =>
    (s, { t with stage := .notifying id peers (s.noticed id env notified) })
  | .deleting client notified =>
    (s.tryDelete t.daemonId env, { t with
      deleted := some env.storeOk
      stage := match client with
        | some id => .disposing id notified
        | none => .releasing notified })
  | .disposing id notified => (s.dispose id, { t with stage := .dropping id notified })
  | .dropping id notified =>
    ({ s with pool := s.pool.erase id }, { t with stage := .releasing notified })
  | .releasing notified =>
    ({ s with removing := s.removing.erase t.daemonId }.removalFinished t.daemonId,
      { t with stage := .returned notified })
  | .returned _ => (s, t)

/-- The answer of the daemon to a pair.remove. -/
inductive PairRemoveAnswer where
  | pairRemoveOk (notifiedPeers : ℕ)
  | pairRemoveErr (message : String)
  deriving DecidableEq

/-- What the caller of a removal is told: the number of peers. -/
def RemoveTask.answer (t : RemoveTask) : Option PairRemoveAnswer :=
  match t.stage with
  | .returned notified => some (.pairRemoveOk notified)
  | _ => none

/-- The call has returned. -/
def RemoveTask.isReturned (t : RemoveTask) : Bool :=
  match t.stage with
  | .returned _ => true
  | _ => false

/-- What the call has found, until it has taken it out of the pool. -/
def RemoveTask.client (t : RemoveTask) : Option (Option ClientId) :=
  match t.stage with
  | .found client | .deleting client _ => some client
  | .notifying id _ _ | .disposing id _ | .dropping id _ => some (some id)
  | _ => none

/-- Where a rename stands. -/
inductive RenameStage where
  | start
  | finding
  | found (client : ClientId)
  | notifying (client : ClientId) (peers : List String) (notified : ℕ)
  | returned (notified : ℕ)
  deriving DecidableEq

/-- A call of rename_pairing. -/
structure RenameTask where
  daemonId : String
  label : Label
  stage : RenameStage
  deriving DecidableEq

/-- The store is asked for a new label; an error is not looked at. -/
def Manager.tryRename (s : Manager) (daemonId : String) (label : Label) (storeOk : Bool) : Manager :=
  if storeOk then s.updatePairingLabel daemonId label else s

/-- One stage of a rename. -/
def RenameTask.next (t : RenameTask) (s : Manager) (env : Env) : Manager × RenameTask :=
  match t.stage with
  | .start => (s.tryRename t.daemonId t.label env.storeOk, { t with stage := .finding })
  | .finding =>
    (s, { t with stage := match s.findClient t.daemonId with
      | some id => .found id
      | none => .returned 0 })
  | .found id => (s, { t with stage := .notifying id ((s.clients[id]?.map Client.peers).getD []) 0 })
  | .notifying _ [] notified => (s, { t with stage := .returned notified })
  | .notifying id (_ :: peers) notified =>
    (s, { t with stage := .notifying id peers (s.noticed id env notified) })
  | .returned _ => (s, t)

/-- Where the reconnect of all saved pairings stands. -/
inductive ReconnectTask where
  | start
  | adding (rest : List StoredPairing) (count : ℕ)
  | connecting (client : ClientId) (config : RelayClientConfig) (rest : List StoredPairing) (count : ℕ)
  | saving (client : ClientId) (config : RelayClientConfig) (rest : List StoredPairing) (count : ℕ)
  | pushing (client : ClientId) (config : RelayClientConfig) (rest : List StoredPairing) (count : ℕ)
  | failing (client : ClientId) (rest : List StoredPairing) (count : ℕ)
  | returned (count : ℕ)
  deriving DecidableEq

/-- The configuration of a saved pairing, with the label it was saved with. -/
def StoredPairing.config (row : StoredPairing) : RelayClientConfig :=
  ⟨row.daemonId, row.credentials, some row.label, row.pairingId, row.hostname⟩

/-- The label that add_client saves: that of the configuration, or the one
that is stored already. -/
def Manager.labelToSave (s : Manager) (config : RelayClientConfig) : Label :=
  config.label.getD (((s.rows.lookup config.daemonId).map StoredPairing.label).getD .unset)

/-- One stage of the reconnect: a snapshot of the rows, and then for each of
them a new client that connects and subscribes, is saved, and joins the pool. -/
def ReconnectTask.next (t : ReconnectTask) (s : Manager) (env : Env) : Manager × ReconnectTask :=
  match t with
  | .start => (s, .adding s.loadPairings 0)
  | .adding [] count => (s, .returned count)
  | .adding (row :: rest) count =>
    ({ s with clients := s.clients ++ [Client.new row.config] },
      .connecting s.clients.length row.config rest count)
  | .connecting id config rest count => (s, .saving id config rest count)
  | .saving id config rest count =>
    if env.storeOk then
      (s.savePairing config (s.labelToSave config) env.now, .pushing id config rest count)
    else (s, .failing id rest count)
  | .pushing id _ rest count => ({ s with pool := s.pool ++ [id] }, .adding rest (count + 1))
  | .failing id rest count => (s.dispose id, .adding rest count)
  | .returned _ => (s, t)

/-- Where the greeting of a frontend stands. -/
inductive HelloStage where
  | finding
  | asking (candidates : List ClientId)
  | publishing (client : ClientId)
  | finished
  deriving DecidableEq

/-- Whose label a greeting carries. -/
inductive Greeting where
  /-- To a frontend that joins: label and daemon as its client's callback
  captured them. -/
  | joined (label : Option Label) (daemonId : String)
  /-- To a frontend that asked: the label of the client that is found, if it
  has one. -/
  | asked
  deriving DecidableEq

/-- The greeting of a frontend. -/
structure HelloTask where
  frontendId : String
  greeting : Greeting
  stage : HelloStage
  deriving DecidableEq

/-- A client sends a greeting, and with it the label. -/
def Manager.greet (s : Manager) (id : ClientId) : Greeting → Manager
  | .joined label daemonId => s.recordLabel daemonId (label.getD .unset)
  | .asked =>
    match s.clients[id]? with
    | some c =>
      match c.config.label with
      | some label => s.recordLabel c.config.daemonId label
      | none => s
    | none => s

/-- One stage of a greeting. -/
def HelloTask.next (t : HelloTask) (s : Manager) : Manager × HelloTask :=
  match t.stage with
  | .finding => (s, { t with stage := .asking s.pool })
  | .asking [] => (s, { t with stage := .finished })
  | .asking (id :: candidates) =>
    (s, { t with stage := if s.hasPeer id t.frontendId then .publishing id else .asking candidates })
  | .publishing id =>
    (if s.canSend id && s.hasPeer id t.frontendId then s.greet id t.greeting else s,
      { t with stage := .finished })
  | .finished => (s, t)

/-- A push on its way: to be aimed, or with the clients still to send it. -/
structure PushTask where
  request : PushRequest
  targets : Option (List ClientId)
  deriving DecidableEq

/-- One stage of a push. -/
def PushTask.next (t : PushTask) (s : Manager) : Manager × PushTask :=
  match t.targets with
  | none => (s, { t with targets := some (s.pushTargets t.request) })
  | some [] => (s, t)
  | some (id :: targets) => (s.sendPush t.request id, { t with targets := some targets })

/-- A task of the daemon. -/
inductive Task where
  | remove (task : RemoveTask)
  | rename (task : RenameTask)
  | reconnect (task : ReconnectTask)
  | hello (task : HelloTask)
  | push (task : PushTask)
  deriving DecidableEq

/-- One stage of a task. -/
def Task.next (t : Task) (s : Manager) (env : Env) : Manager × Task :=
  match t with
  | .remove task => ((task.next s env).1, .remove (task.next s env).2)
  | .rename task => ((task.next s env).1, .rename (task.next s env).2)
  | .reconnect task => ((task.next s env).1, .reconnect (task.next s env).2)
  | .hello task => ((task.next s).1, .hello (task.next s).2)
  | .push task => ((task.next s).1, .push (task.next s).2)

/-- The daemon: shared data and tasks. Finished tasks stay. -/
structure Daemon where
  manager : Manager
  tasks : List Task

/-- A removal of the daemon is under way. -/
def UnderWay (s : Daemon) (daemonId : String) : Prop :=
  ∃ t, Task.remove t ∈ s.tasks ∧ t.daemonId = daemonId ∧ t.isReturned = false

/-- Hook events that ask for a push. -/
def notifyEvents : List String := ["Notification", "PermissionRequest", "Elicitation"]

/-- The pushes that a record asks for: one for each token, if it is a hook
event of the right kind. -/
def Manager.onRecord (s : Manager) (isEvent : Bool) (name : Option String) : List PushRequest :=
  if isEvent && name.any (notifyEvents.contains ·) then
    s.tokens.entries.map fun e => ⟨e.1, e.2.sealed, e.2.daemonId⟩
  else []

/-- What can happen to a daemon. -/
inductive ManagerEvent where
  | removePairing (daemonId : String) (notifyPeer : Bool)
  | renamePairing (daemonId : String) (label : Label)
  | reconnectSaved
  /-- A new pairing is completed: its client is pooled and it is saved. -/
  | promote (config : RelayClientConfig) (storeOk : Bool) (now : ℕ)
  /-- The connection of a client changes. -/
  | connection (client : ClientId) (authenticated isOpen : Bool)
  /-- The relay accepts a client. -/
  | authOk (client : ClientId) (resumed : Bool)
  /-- A frontend exchanges keys with a client, whose read loop a dispose
  ends. -/
  | frontendJoined (client : ClientId) (frontendId : String)
  /-- A frontend asks for a hello. -/
  | helloAsked (frontendId : String)
  /-- A client receives a sealed token. -/
  | pushToken (client : ClientId) (frontendId sealed platform : String) (storeOk : Bool)
  /-- The relay reports a token as useless. -/
  | pushTokenUseless (frontendId : String) (storeOk : Bool)
  /-- A frontend of a client sends control.unpair. -/
  | peerUnpair (client : ClientId)
  /-- A frontend of a client sends control.rename. -/
  | peerRename (client : ClientId) (label : Label) (storeOk : Bool)
  /-- A runner reports a record. -/
  | record (isEvent : Bool) (name : Option String)
  /-- A task goes on. -/
  | run (i : ℕ) (env : Env)
  deriving DecidableEq

namespace Daemon

/-- Starts tasks. -/
def spawn (s : Daemon) (tasks : List Task) : Daemon := { s with tasks := s.tasks ++ tasks }

/-- A task goes on. -/
def run (s : Daemon) (i : ℕ) (env : Env) : Daemon :=
  match s.tasks[i]? with
  | none => s
  | some t => ⟨(t.next s.manager env).1, s.tasks.set i (t.next s.manager env).2⟩

/-- A completed pairing: its client is pooled and its row is saved; when that
fails, it is removed again. -/
def promote (s : Daemon) (config : RelayClientConfig) (storeOk : Bool) (now : ℕ) : Daemon :=
  let pooled := { s.manager with
    clients := s.manager.clients ++ [Client.new config]
    pool := s.manager.pool ++ [s.manager.clients.length]
    renamed := s.manager.renamed.erase config.daemonId }
  if storeOk then { s with manager := pooled.savePairing config (config.label.getD .unset) now }
  else { s with manager := pooled }.spawn [.remove (RemoveTask.new config.daemonId false)]

end Daemon

/-- One event. -/
def managerStep (s : Daemon) : ManagerEvent → Daemon
  | .removePairing daemonId notifyPeer =>
    s.spawn [.remove (RemoveTask.new daemonId notifyPeer)]
  | .renamePairing daemonId label => s.spawn [.rename ⟨daemonId, label, .start⟩]
  | .reconnectSaved => s.spawn [.reconnect .start]
  | .promote config storeOk now => s.promote config storeOk now
  | .connection id authenticated isOpen =>
    { s with manager := s.manager.modifyClient id fun c =>
        if c.disposed then c else { c with authenticated, isOpen } }
  | .authOk id resumed =>
    match s.manager.clients[id]? with
    | some c =>
      if resumed && !c.peers.isEmpty then s
      else { s with manager := s.manager.broadcastDaemonPublicKey id }
    | none => s
  | .frontendJoined id frontendId =>
    match s.manager.clients[id]? with
    | some c =>
      if c.disposed then s
      else { s with manager := (s.manager.modifyClient id fun c =>
          { c with peers := c.peers.insert frontendId }).broadcastDaemonPublicKey id }.spawn
        [.hello ⟨frontendId, .joined c.config.label c.config.daemonId, .finding⟩]
    | none => s
  | .helloAsked frontendId => s.spawn [.hello ⟨frontendId, .asked, .finding⟩]
  | .pushToken id frontendId sealed platform storeOk =>
    match s.manager.clients[id]? with
    | some c => { s with manager :=
        s.manager.registerSealedToken frontendId c.config.daemonId sealed platform storeOk }
    | none => s
  | .pushTokenUseless frontendId storeOk =>
    { s with manager := s.manager.dropToken frontendId storeOk }
  | .peerUnpair id =>
    match s.manager.clients[id]? with
    | some c => s.spawn [.remove (RemoveTask.new c.config.daemonId false)]
    | none => s
  | .peerRename id label storeOk =>
    match s.manager.clients[id]? with
    | some c => { s with manager := s.manager.tryRename c.config.daemonId label storeOk }
    | none => s
  | .record isEvent name =>
    s.spawn ((s.manager.onRecord isEvent name).map fun request => .push ⟨request, none⟩)
  | .run i env => s.run i env

section Frames

variable {s s' : Manager}

/-- Pool, owners and removals under way stay, and no row appears. -/
structure Settled (s s' : Manager) : Prop where
  pool : s'.pool = s.pool
  isOf : ∀ daemonId id, s'.isOf daemonId id = s.isOf daemonId id
  removing : s'.removing = s.removing
  rows : ∀ daemonId, s.rows.lookup daemonId = none → s'.rows.lookup daemonId = none

/-- Nothing happens. -/
theorem Settled.refl (s : Manager) : Settled s s := ⟨rfl, fun _ _ => rfl, rfl, fun _ h => h⟩

/-- One thing after the other. -/
theorem Settled.trans {s'' : Manager} (h : Settled s s') (h' : Settled s' s'') : Settled s s'' :=
  ⟨h'.pool.trans h.pool, fun d id => (h'.isOf d id).trans (h.isOf d id),
    h'.removing.trans h.removing, fun d hd => h'.rows d (h.rows d hd)⟩

/-- A rename changes a row that is there. -/
theorem settled_tryRename (s : Manager) (daemonId : String) (label : Label) (storeOk : Bool) :
    Settled s (s.tryRename daemonId label storeOk) := by
  unfold Manager.tryRename Manager.updatePairingLabel
  split
  · split
    · refine ⟨rfl, fun _ _ => rfl, rfl, fun d hd => ?_⟩
      dsimp only
      rw [lookup_alterKey]
      split
      · rw [hd, Option.map_none]
      · exact hd
    · exact Settled.refl s
  · exact Settled.refl s

/-- A delete removes a row. -/
theorem settled_tryDelete (s : Manager) (daemonId : String) (env : Env) :
    Settled s (s.tryDelete daemonId env) := by
  unfold Manager.tryDelete Manager.deletePairing
  split
  · refine ⟨rfl, fun _ _ => rfl, rfl, fun d hd => ?_⟩
    dsimp only
    rw [lookup_erase_eq]
    split
    · rfl
    · exact hd
  · exact Settled.refl s

/-- Nothing happens to the pairings at all. -/
structure Calm (s s' : Manager) : Prop where
  pool : s'.pool = s.pool
  configs : s'.clients.map Client.config = s.clients.map Client.config
  removing : s'.removing = s.removing
  rows : s'.rows = s.rows
  removed : s'.removed = s.removed
  renamed : s'.renamed = s.renamed

/-- Nothing happens. -/
theorem Calm.refl (s : Manager) : Calm s s := ⟨rfl, rfl, rfl, rfl, rfl, rfl⟩

/-- One thing after the other. -/
theorem Calm.trans {s'' : Manager} (h : Calm s s') (h' : Calm s' s'') : Calm s s'' :=
  ⟨h'.pool.trans h.pool, h'.configs.trans h.configs, h'.removing.trans h.removing,
    h'.rows.trans h.rows, h'.removed.trans h.removed, h'.renamed.trans h.renamed⟩

/-- Whose client it is depends on the configurations. -/
theorem isOf_eq (s : Manager) (daemonId : String) (id : ClientId) : s.isOf daemonId id =
    (s.clients.map Client.config)[id]?.any fun config => config.daemonId == daemonId := by
  rw [Manager.isOf, List.getElem?_map, Option.any_map]

/-- What is calm is settled. -/
theorem Calm.settled (h : Calm s s') : Settled s s' :=
  ⟨h.pool, fun d id => by rw [isOf_eq, isOf_eq, h.configs], h.removing, fun d hd => by rw [h.rows, hd]⟩

/-- A change of a client object that keeps its configuration. -/
theorem calm_modifyClient {f : Client → Client} (hf : ∀ c, (f c).config = c.config)
    (s : Manager) (id : ClientId) : Calm s (s.modifyClient id f) := by
  refine ⟨rfl, ?_, rfl, rfl, rfl, rfl⟩
  refine List.ext_getElem? fun j => ?_
  rw [Manager.modifyClient, List.getElem?_map, List.getElem?_map, List.getElem?_modify]
  cases s.clients[j]? with
  | none => rfl
  | some c =>
    simp only [Option.map_eq_map, Option.map_some, Option.some.injEq]
    split
    · exact hf c
    · rfl

/-- A dispose. -/
theorem calm_dispose (s : Manager) (id : ClientId) : Calm s (s.dispose id) := by
  apply calm_modifyClient
  exact fun _ => rfl

/-- A broadcast only sends. -/
theorem calm_broadcast (s : Manager) (id : ClientId) : Calm s (s.broadcastDaemonPublicKey id) := by
  unfold Manager.broadcastDaemonPublicKey
  split
  · split
    · exact ⟨rfl, rfl, rfl, rfl, rfl, rfl⟩
    · exact Calm.refl s
  · exact Calm.refl s

/-- Tokens are kept apart from pairings. -/
theorem calm_dropToken (s : Manager) (frontendId : String) (storeOk : Bool) :
    Calm s (s.dropToken frontendId storeOk) := by
  unfold Manager.dropToken
  split
  · exact ⟨rfl, rfl, rfl, rfl, rfl, rfl⟩
  · exact Calm.refl s

/-- What a greeting sends changes no pairing. -/
theorem calm_greet (s : Manager) (id : ClientId) (greeting : Greeting) :
    Calm s (s.greet id greeting) := by
  unfold Manager.greet
  split
  · exact ⟨rfl, rfl, rfl, rfl, rfl, rfl⟩
  · split
    · split
      · exact ⟨rfl, rfl, rfl, rfl, rfl, rfl⟩
      · exact Calm.refl s
    · exact Calm.refl s

/-- A greeting only sends. -/
theorem calm_hello (t : HelloTask) (s : Manager) : Calm s (t.next s).1 := by
  unfold HelloTask.next
  split
  case h_4 =>
    dsimp only
    split
    · exact calm_greet s _ _
    · exact Calm.refl s
  all_goals exact Calm.refl s

/-- A push only sends. -/
theorem calm_push (t : PushTask) (s : Manager) : Calm s (t.next s).1 := by
  unfold PushTask.next
  split
  case h_3 =>
    dsimp only [Manager.sendPush]
    split
    · exact ⟨rfl, rfl, rfl, rfl, rfl, rfl⟩
    · exact Calm.refl s
  all_goals exact Calm.refl s

/-- Renames, greetings and pushes. -/
def Task.isOther : Task → Bool
  | .remove _ | .reconnect _ => false
  | _ => true

/-- Renames, greetings and pushes leave pool and removals alone. -/
theorem settled_next {t : Task} (env : Env) (ht : t.isOther = true) :
    Settled s (t.next s env).1 := by
  cases t with
  | remove task | reconnect task => exact absurd ht Bool.false_ne_true
  | rename task =>
    dsimp only [Task.next]
    unfold RenameTask.next
    split
    · exact settled_tryRename s _ _ _
    all_goals exact Settled.refl s
  | hello task => exact (calm_hello task s).settled
  | push task => exact (calm_push task s).settled

/-- Events that may bring new clients. -/
def ManagerEvent.addsClients : ManagerEvent → Bool
  | .reconnectSaved | .promote .. => true
  | _ => false

/-- Tasks that such events do not start, and removals that have just been
called. -/
def Task.isFresh : Task → Prop
  | .remove task => task = RemoveTask.new task.daemonId task.notifyPeer
  | .reconnect _ => False
  | _ => True

/-- An event that brings no clients lets one task go on, or stores the label
that a peer gave, or starts tasks and does nothing to the pairings. -/
theorem managerStep_cases {s : Daemon} {e : ManagerEvent} (he : e.addsClients = false) :
    (∃ i env t, e = .run i env ∧ s.tasks[i]? = some t ∧ managerStep s e =
      ⟨(t.next s.manager env).1, s.tasks.set i (t.next s.manager env).2⟩) ∨
    (∃ id label c, e = .peerRename id label true ∧ s.manager.clients[id]? = some c ∧
      managerStep s e = { s with manager := s.manager.tryRename c.config.daemonId label true }) ∨
    Calm s.manager (managerStep s e).manager ∧
      ∃ new, (managerStep s e).tasks = s.tasks ++ new ∧ ∀ t ∈ new, t.isFresh := by
  have hsame : ∀ s' : Daemon, Calm s.manager s'.manager → s'.tasks = s.tasks →
      Calm s.manager s'.manager ∧ ∃ new, s'.tasks = s.tasks ++ new ∧ ∀ t ∈ new, t.isFresh :=
    fun s' hm ht => ⟨hm, [], by rw [ht, List.append_nil], fun t h => absurd h List.not_mem_nil⟩
  have hrefl := Calm.refl s.manager
  cases e with
  | reconnectSaved | promote _ _ _ => exact absurd he (by simp [ManagerEvent.addsClients])
  | run i env =>
    cases ht : s.tasks[i]? with
    | none =>
      refine .inr (.inr (hsame _ ?_ ?_))
      · simpa only [managerStep, Daemon.run, ht] using hrefl
      · simp only [managerStep, Daemon.run, ht]
    | some t => exact .inl ⟨i, env, t, rfl, ht, by simp only [managerStep, Daemon.run, ht]⟩
  | peerRename id label storeOk =>
    refine .inr ?_
    cases hc : s.manager.clients[id]? with
    | none =>
      refine .inr (hsame _ ?_ ?_)
      · simpa only [managerStep, hc] using hrefl
      · simp only [managerStep, hc]
    | some c =>
      cases storeOk with
      | true => exact .inl ⟨id, label, c, rfl, hc, by simp only [managerStep, hc]⟩
      | false =>
        refine .inr (hsame _ ?_ ?_)
        · simpa [managerStep, hc, Manager.tryRename] using hrefl
        · simp only [managerStep, hc]
  | removePairing daemonId notifyPeer =>
    exact .inr (.inr ⟨hrefl, _, rfl, fun t h => by rw [List.mem_singleton.mp h]; rfl⟩)
  | renamePairing daemonId label =>
    exact .inr (.inr ⟨hrefl, _, rfl, fun t h => by rw [List.mem_singleton.mp h]; trivial⟩)
  | connection id authenticated isOpen =>
    refine .inr (.inr (hsame _ (calm_modifyClient (fun c => ?_) s.manager id) rfl))
    split <;> rfl
  | authOk id resumed =>
    refine .inr (.inr ?_)
    dsimp only [managerStep]
    split
    · split
      · exact hsame s hrefl rfl
      · exact hsame _ (calm_broadcast s.manager id) rfl
    · exact hsame s hrefl rfl
  | frontendJoined id frontendId =>
    refine .inr (.inr ?_)
    dsimp only [managerStep]
    split
    · split
      · exact hsame s hrefl rfl
      · have hpeers : Calm s.manager (s.manager.modifyClient id fun c =>
            { c with peers := c.peers.insert frontendId }) := by
          apply calm_modifyClient
          exact fun _ => rfl
        refine ⟨hpeers.trans (calm_broadcast _ id), _, rfl, fun t h => ?_⟩
        rw [List.mem_singleton.mp h]
        trivial
    · exact hsame s hrefl rfl
  | helloAsked frontendId =>
    exact .inr (.inr ⟨hrefl, _, rfl, fun t h => by rw [List.mem_singleton.mp h]; trivial⟩)
  | pushToken id frontendId sealed platform storeOk =>
    refine .inr (.inr ?_)
    dsimp only [managerStep]
    split
    · exact hsame _ ⟨rfl, rfl, rfl, rfl, rfl, rfl⟩ rfl
    · exact hsame s hrefl rfl
  | pushTokenUseless frontendId storeOk =>
    exact .inr (.inr (hsame _ (calm_dropToken s.manager frontendId storeOk) rfl))
  | peerUnpair id =>
    refine .inr (.inr ?_)
    dsimp only [managerStep]
    split
    · exact ⟨hrefl, _, rfl, fun t h => by rw [List.mem_singleton.mp h]; rfl⟩
    · exact hsame s hrefl rfl
  | record isEvent name =>
    refine .inr (.inr ⟨hrefl, _, rfl, fun t h => ?_⟩)
    obtain ⟨request, _, rfl⟩ := List.mem_map.mp h
    trivial

end Frames

section Samples

/-- Credentials of an example. -/
def sampleCredentials : Credentials := ⟨"wss://relay", "token", "proof", [1], [2], [3]⟩

/-- A pairing of an example. -/
def samplePairing (daemonId : String) : RelayClientConfig :=
  ⟨daemonId, sampleCredentials, some (.set "desk"), "", ""⟩

/-- A daemon without pairings. -/
def emptyDaemon : Daemon := ⟨⟨∅, ∅, ∅, [], [], [], [], ∅, [], [], []⟩, []⟩

/-- A daemon with some pairings, each saved and with a pooled client. -/
def pairedDaemon (daemonIds : List String) : Daemon :=
  StepRuns.runFrom managerStep emptyDaemon (daemonIds.map fun d => .promote (samplePairing d) true 0)

/-- A task runs some times, the store answering as given. -/
def runs (task times : ℕ) (storeOk : Bool) : List ManagerEvent :=
  List.replicate times (.run task ⟨storeOk, true, 0⟩)

end Samples

end Teleprompter.RelayManager
