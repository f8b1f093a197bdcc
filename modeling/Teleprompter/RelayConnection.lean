import Teleprompter.StepRuns

/-!
# The connection of a relay client

A relay client connects, reads, pings, reconnects and is disposed in tasks
that run side by side. The state they share is behind one lock and the list
of abortable tasks behind another, and between two lock sections of one task
any other may run. Outgoing messages pass through a bounded channel to the
writer task of the connection, which hands them to the socket.
-/

namespace Teleprompter.RelayConnection

section Plan

/-- First delay of the backoff. -/
def reconnectBaseMs : ℕ := 1000

/-- Cap of the backoff. -/
def reconnectMaxMs : ℕ := 30000

/-- Largest exponent of the backoff. -/
def maxReconnectAttempt : ℕ := 5

/-- Connections without a frontend after which a pairing counts as dead. -/
def peerlessReconnectThreshold : ℕ := 3

/-- Delay of a dead pairing: half an hour. -/
def peerlessReconnectMs : ℕ := 30 * 60000

/-- When to connect again, and the exponent after that. -/
structure ReconnectPlan where
  /-- Delay in milliseconds. -/
  delayMs : ℕ
  /-- Next exponent. -/
  nextAttempt : ℕ
  deriving DecidableEq

/-- Exponential backoff up to a cap, or the long delay of a dead pairing. -/
def computeReconnectPlan (attempt peerlessReconnects : ℕ) : ReconnectPlan :=
  if peerlessReconnectThreshold ≤ peerlessReconnects then ⟨peerlessReconnectMs, attempt⟩
  else
    let scaled := Nat.pow 2 attempt * reconnectBaseMs
    let checked := if scaled < 18446744073709551616 then scaled else reconnectMaxMs
    ⟨min checked reconnectMaxMs, min (attempt + 1) maxReconnectAttempt⟩

/-- The counter after a connection that had a frontend or had none; it has 32
bits. -/
def nextPeerlessReconnects (current : ℕ) (hadPeer : Bool) : ℕ :=
  if hadPeer then 0 else (current + 1) % 4294967296

end Plan

/-- Messages to the relay. -/
inductive Outgoing where
  | register
  | authResume (token : String)
  | auth
  | subscribe (sid : String)
  | keyExchange
  | ping
  /-- A frame that the owner of the client publishes. -/
  | publish (ct : String)
  deriving DecidableEq

/-- Messages from the relay, as far as the connection reacts to them. -/
inductive Incoming where
  | registerOk
  | registerErr
  | authOk (resume : Option (String × ℕ)) (resumed : Bool)
  | authErr
  /-- A key-exchange envelope, which opens to a frontend's key or not. -/
  | keyExchange (opens : Bool)
  /-- Frames and notices that are passed on. -/
  | other
  deriving DecidableEq

/-- What a task does between two of its stages. Every action is one lock
section, but for sending, which takes two steps. -/
inductive Action where
  | send (msg : Outgoing)
  | closeSocket
  | authenticate (resume : Option (String × ℕ))
  | resubscribe
  | broadcastUnless (resumed : Bool)
  | startPing
  | checkResuming
  | dropResume
  | insertPeer
  | markPeer
  | publishToPeers (ct : String)
  deriving DecidableEq

/-- The state behind the lock. -/
structure ConnState where
  /-- Sender of the live channel. -/
  wsTx : Option ℕ
  /-- The relay accepted this connection. -/
  authenticated : Bool
  /-- The owner gave the client up. -/
  disposed : Bool
  /-- Exponent of the backoff. -/
  reconnectAttempt : ℕ
  /-- Counter of the dead-pairing throttle. -/
  peerlessReconnects : ℕ
  /-- A frontend completed a key exchange on this connection. -/
  hadPeerThisConnection : Bool
  /-- Token to resume with, and until when. -/
  resume : Option (String × ℕ)
  /-- An auth by token is under way. -/
  resuming : Bool
  /-- Sessions to subscribe to after an auth. -/
  subscribedSessions : List String
  /-- Counts connections and clean-ups. -/
  generation : ℕ
  deriving DecidableEq

/-- A client before its first connect. -/
def ConnState.new : ConnState := ⟨none, false, false, 0, 0, false, none, false, [], 0⟩

namespace ConnState

/-- The state section of a clean-up. -/
def cleanup (st : ConnState) : ConnState :=
  { st with hadPeerThisConnection := false, wsTx := none, generation := st.generation + 1 }

/-- A connect counts its generation. -/
def nextGeneration (st : ConnState) : ConnState := { st with generation := st.generation + 1 }

/-- The disposed flag and the generation that a connect looks at after its
dial. -/
def stale (st : ConnState) (generation : ℕ) : Bool :=
  st.disposed || st.generation != generation

/-- The sender of a new channel is installed. -/
def install (st : ConnState) (channel : ℕ) : ConnState := { st with wsTx := some channel }

/-- The accounting of a scheduled reconnect, with its delay. -/
def account (st : ConnState) : ConnState × ℕ :=
  let peerless := nextPeerlessReconnects st.peerlessReconnects st.hadPeerThisConnection
  let plan := computeReconnectPlan st.reconnectAttempt peerless
  ({ st with peerlessReconnects := peerless, reconnectAttempt := plan.nextAttempt }, plan.delayMs)

/-- A frontend completed a key exchange. -/
def keyExchanged (st : ConnState) : ConnState :=
  { st with peerlessReconnects := 0, hadPeerThisConnection := true }

/-- The token to resume with, if it is still good. -/
def resumeToken (st : ConnState) (now : ℕ) : Option String :=
  (st.resume.filter fun r => now < r.2).map Prod.fst

/-- What an action changes. -/
def after (st : ConnState) : Action → ConnState
  | .closeSocket => { st with wsTx := none }
  | .authenticate resume =>
    { st with authenticated := true, resume := resume.or st.resume, resuming := false }
  | .dropResume => { st with resuming := false, resume := none }
  | .markPeer => st.keyExchanged
  | _ => st

/-- What is done next after an action, by what it reads. -/
def followUps (st : ConnState) (hasPeers : Bool) : Action → List Action
  | .resubscribe => st.subscribedSessions.map fun sid => .send (.subscribe sid)
  | .broadcastUnless resumed => if resumed && hasPeers then [] else [.send .keyExchange]
  | .checkResuming => if st.resuming then [.dropResume, .closeSocket] else [.closeSocket]
  | .publishToPeers ct => if hasPeers then [.send (.publish ct)] else []
  | _ => []

end ConnState

/-- The actions in answer to a message from the relay. -/
def Incoming.actions : Incoming → List Action
  | .registerOk => [.send .auth]
  | .registerErr => [.closeSocket]
  | .authOk resume resumed =>
    [.authenticate resume, .resubscribe, .broadcastUnless resumed, .startPing]
  | .authErr => [.checkResuming]
  | .keyExchange opens => if opens then [.insertPeer, .markPeer, .send .keyExchange] else []
  | .other => []

/-- Where a writer task stands. -/
inductive WriterPhase where
  /-- Waits for a message or for the runtime. -/
  | idle
  /-- In the middle of a poll, in which it may hand on several messages. -/
  | polling
  | ended
  deriving DecidableEq

/-- The outgoing channel of a connection and its writer task. -/
structure Channel where
  /-- Messages that were not handed to the socket yet. -/
  queue : List Outgoing
  /-- The writer task. -/
  writer : WriterPhase
  /-- The writer was told to stop, which it does between two polls. -/
  aborted : Bool
  deriving DecidableEq

/-- The channel of a new connection. -/
def Channel.new : Channel := ⟨[], .idle, false⟩

/-- Messages that a channel holds at most. -/
def channelCapacity : ℕ := 256

/-- A message is put into the channel, if there is room and a receiver. -/
def Channel.trySend (c : Channel) (msg : Outgoing) : Channel :=
  if c.queue.length < channelCapacity ∧ c.writer ≠ .ended then { c with queue := c.queue ++ [msg] }
  else c

/-- What a task does next. Every stage is one lock section or one await. -/
inductive Stage where
  | connectStart
  | connectKeyed
  | connectChecked
  | connectCleared
  | connectDrained
  | dialing (generation : ℕ)
  | dialed (generation : ℕ)
  | rechecked (generation : ℕ)
  /-- The channel is installed and its tasks are spawned, not registered. -/
  | installed (channel reader : ℕ)
  | registered
  | opened
  | resuming (token : String)
  | disposeStart
  | disposeFlagged
  | disposeCleared
  | reconnectStart
  | reconnectChecked
  | sleeping (generation : ℕ)
  | reading (generation : ℕ)
  | received (generation : ℕ) (msg : Option Incoming)
  | closing (generation : ℕ)
  | pingStart
  | pingArmed
  | pinging (generation : ℕ)
  | finished
  deriving DecidableEq

/-- A task of the client. Its actions come before its stage. -/
structure Proc where
  /-- What it does next. -/
  stage : Stage
  /-- Actions to perform first. -/
  todo : List Action
  /-- The sender it cloned for the first of them. -/
  clone : Option ℕ
  /-- It was told to stop. -/
  aborted : Bool
  deriving DecidableEq

/-- A task that starts at a stage. -/
def Proc.start (stage : Stage) : Proc := ⟨stage, [], none, false⟩

/-- Abortable tasks: writers by their channel, readers by their place. -/
inductive Handle where
  | writer (channel : ℕ)
  | reader (proc : ℕ)
  deriving DecidableEq

/-- A relay client with all its tasks. -/
structure RelayClient where
  /-- The state behind the lock. -/
  conn : ConnState
  /-- Tasks that a clean-up aborts. -/
  tasks : List Handle
  /-- Channels in the order of their connections. -/
  channels : List Channel
  /-- Tasks in the order of their start; finished ones stay. -/
  procs : List Proc
  /-- A frontend exchanged keys at some time. -/
  hasPeers : Bool
  /-- A dispose has emptied the state. -/
  cleared : Bool
  /-- A dispose has returned. -/
  returned : Bool
  /-- Messages handed to a socket after that. -/
  handedAfter : List Outgoing
  deriving DecidableEq

/-- A client that nothing was done with. -/
def RelayClient.new : RelayClient := ⟨ConnState.new, [], [], [], false, false, false, []⟩

/-- What the world outside contributes to a step. -/
structure Env where
  /-- The dial succeeds. -/
  dials : Bool
  /-- What the socket delivers; none when it is closed. -/
  incoming : Option Incoming
  /-- The clock. -/
  now : ℕ
  deriving DecidableEq

namespace RelayClient

/-- Replaces a task. -/
def setProc (s : RelayClient) (i : ℕ) (p : Proc) : RelayClient :=
  { s with procs := s.procs.set i p }

/-- Starts a task. -/
def spawn (s : RelayClient) (stage : Stage) : RelayClient :=
  { s with procs := s.procs ++ [Proc.start stage] }

/-- Starts a task that only performs actions. -/
def spawnActions (s : RelayClient) (todo : List Action) : RelayClient :=
  { s with procs := s.procs ++ [⟨.finished, todo, none, false⟩] }

/-- The second section of a clean-up aborts the registered tasks. -/
def drain (s : RelayClient) : RelayClient :=
  { s with
    tasks := []
    channels := s.channels.mapIdx fun ch c =>
      if Handle.writer ch ∈ s.tasks then { c with aborted := true } else c
    procs := s.procs.mapIdx fun i p =>
      if Handle.reader i ∈ s.tasks then { p with aborted := true } else p }

/-- A task sends a message: it clones the sender, and then puts the message
into the channel. -/
def sendStep (s : RelayClient) (i : ℕ) (p : Proc) (msg : Outgoing) (todo : List Action) :
    RelayClient :=
  match p.clone with
  | none =>
    match s.conn.wsTx with
    | none => s.setProc i { p with todo }
    | some ch => s.setProc i { p with clone := some ch }
  | some ch =>
    { s with channels := s.channels.modify ch fun c => c.trySend msg }.setProc i
      { p with todo, clone := none }

/-- A task performs the first of its actions. -/
def perform (s : RelayClient) (i : ℕ) (p : Proc) (action : Action) (todo : List Action) :
    RelayClient :=
  let next := { s with
    conn := s.conn.after action
    hasPeers := s.hasPeers || action == Action.insertPeer }.setProc i
      { p with todo := s.conn.followUps s.hasPeers action ++ todo }
  match action with
  | .send msg => s.sendStep i p msg todo
  | .startPing => next.spawn .pingStart
  | _ => next

/-- The next stage of a task that has nothing to perform first. -/
def advance (s : RelayClient) (i : ℕ) (p : Proc) (env : Env) : RelayClient :=
  let goto := fun (s : RelayClient) (stage : Stage) => s.setProc i { p with stage }
  match p.stage with
  | .connectStart => goto s (if s.conn.disposed then .finished else .connectKeyed)
  | .connectKeyed => goto s (if s.conn.disposed then .finished else .connectChecked)
  | .connectChecked => goto { s with conn := s.conn.cleanup } .connectCleared
  | .connectCleared => (goto s .connectDrained).drain
  | .connectDrained =>
    goto { s with conn := s.conn.nextGeneration } (.dialing (s.conn.generation + 1))
  | .dialing generation =>
    if env.dials then goto s (.dialed generation)
    else (goto s .finished).spawn .reconnectStart
  | .dialed generation =>
    goto s (if s.conn.stale generation then .finished else .rechecked generation)
  | .rechecked generation =>
    (goto { s with
        conn := s.conn.install s.channels.length
        channels := s.channels ++ [Channel.new] }
      (.installed s.channels.length s.procs.length)).spawn (.reading generation)
  | .installed ch reader =>
    goto { s with tasks := s.tasks ++ [.writer ch, .reader reader] } .registered
  | .registered => goto { s with conn := { s.conn with reconnectAttempt := 0 } } .opened
  | .opened =>
    match s.conn.resumeToken env.now with
    | some token => goto s (.resuming token)
    | none => s.setProc i { p with stage := .finished, todo := [.send .register] }
  | .resuming token =>
    { s with conn := { s.conn with resuming := true } }.setProc i
      { p with stage := .finished, todo := [.send (.authResume token)] }
  | .disposeStart => goto { s with conn := { s.conn with disposed := true } } .disposeFlagged
  | .disposeFlagged =>
    goto { s with conn := s.conn.cleanup, cleared := true } .disposeCleared
  | .disposeCleared => { (goto s .finished).drain with returned := true }
  | .reconnectStart => goto s (if s.conn.disposed then .finished else .reconnectChecked)
  | .reconnectChecked => goto { s with conn := s.conn.account.1 } (.sleeping s.conn.generation)
  | .sleeping generation =>
    goto s (if s.conn.stale generation then .finished else .connectStart)
  | .reading generation => goto s (.received generation env.incoming)
  | .received generation msg =>
    if s.conn.generation ≠ generation then goto s .finished
    else match msg with
      | some msg => s.setProc i { p with stage := .reading generation, todo := msg.actions }
      | none => goto s (.closing generation)
  | .closing generation =>
    if s.conn.generation ≠ generation then goto s .finished
    else (goto { s with conn := { s.conn with authenticated := false } } .finished).spawn
      .reconnectStart
  | .pingStart => goto s (if s.conn.disposed then .finished else .pingArmed)
  | .pingArmed => goto s (.pinging s.conn.generation)
  | .pinging generation =>
    if s.conn.stale generation then goto s .finished
    else s.setProc i { p with todo := [.send .ping] }
  | .finished => s

/-- A task goes on. -/
def run (s : RelayClient) (i : ℕ) (env : Env) : RelayClient :=
  match s.procs[i]? with
  | none => s
  | some p =>
    match p.todo with
    | action :: todo => s.perform i p action todo
    | [] => s.advance i p env

/-- Changes the channel of a writer. -/
def modifyChannel (s : RelayClient) (ch : ℕ) (f : Channel → Channel) : RelayClient :=
  { s with channels := s.channels.modify ch f }

/-- A writer is polled, unless it was aborted: then it ends. -/
def pollWriter (s : RelayClient) (ch : ℕ) : RelayClient :=
  s.modifyChannel ch fun c =>
    if c.writer = .idle then
      if c.aborted then { c with writer := .ended, queue := [] } else { c with writer := .polling }
    else c

/-- Within a poll, a writer hands its next message to the socket. A socket
that fails ends it. -/
def handMessage (s : RelayClient) (ch : ℕ) (accepts : Bool) : RelayClient :=
  match s.channels[ch]? with
  | some ⟨msg :: queue, .polling, aborted⟩ =>
    if accepts then
      { s.modifyChannel ch fun _ => ⟨queue, .polling, aborted⟩ with
        handedAfter := if s.returned then s.handedAfter ++ [msg] else s.handedAfter }
    else s.modifyChannel ch fun _ => ⟨[], .ended, aborted⟩
  | _ => s

/-- Someone can still send into the channel. -/
def hasSender (s : RelayClient) (ch : ℕ) : Bool :=
  s.conn.wsTx == some ch || s.procs.any fun p => p.clone == some ch

/-- The poll of a writer ends, and the writer with it if it was aborted or
has nothing left to wait for. -/
def parkWriter (s : RelayClient) (ch : ℕ) : RelayClient :=
  s.modifyChannel ch fun c =>
    if c.writer = .polling then
      if c.aborted || c.queue.isEmpty && !s.hasSender ch then { c with writer := .ended, queue := [] }
      else { c with writer := .idle }
    else c

/-- An aborted task stops at an await. -/
def cancel (s : RelayClient) (i : ℕ) : RelayClient :=
  { s with procs := s.procs.modify i fun p =>
      if p.aborted then { p with stage := .finished, todo := [], clone := none } else p }

end RelayClient

/-- What can happen to a client. -/
inductive ClientEvent where
  /-- The owner connects. -/
  | connect
  /-- The owner disposes of the client. -/
  | dispose
  /-- The owner publishes a frame. -/
  | publish (ct : String)
  /-- The owner subscribes a session. -/
  | subscribe (sid : String)
  /-- A task goes on. -/
  | run (i : ℕ) (env : Env)
  /-- An aborted task stops. -/
  | cancel (i : ℕ)
  | pollWriter (ch : ℕ)
  | handMessage (ch : ℕ) (accepts : Bool)
  | parkWriter (ch : ℕ)
  deriving DecidableEq

/-- One event. -/
def clientStep (s : RelayClient) : ClientEvent → RelayClient
  | .connect => s.spawn .connectStart
  | .dispose => s.spawn .disposeStart
  | .publish ct => s.spawnActions (if s.conn.authenticated then [.publishToPeers ct] else [])
  | .subscribe sid => { s with
      conn := { s.conn with subscribedSessions := s.conn.subscribedSessions.insert sid }
    }.spawnActions (if s.conn.authenticated then [.send (.subscribe sid)] else [])
  | .run i env => s.run i env
  | .cancel i => s.cancel i
  | .pollWriter ch => s.pollWriter ch
  | .handMessage ch accepts => s.handMessage ch accepts
  | .parkWriter ch => s.parkWriter ch

end Teleprompter.RelayConnection
