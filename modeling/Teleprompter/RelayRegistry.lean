import Teleprompter.FiniteDictionary
import Teleprompter.StepRuns

/-!
# The relay's connection registry

The registry keeps three maps: daemon id to live state, daemon id to
registration, and token to daemon id. Each operation below follows the
registry's own code path, including the guards that reject a registration
and the two phases of the stale sweep. Times are epoch milliseconds, so a
saturating subtraction is natural subtraction. A rejected call leaves the
registry as it was and is returned as an error with the reason the relay sends.
-/

namespace Teleprompter.RelayRegistry

open FiniteDictionary StepRuns

/-- Longest session list a daemon keeps; older entries are evicted first. -/
def maxSessionsPerDaemon : ℕ := 256

/-- Largest subscription count a 32-bit counter holds. -/
def maxAttachedCount : ℕ := 4294967295

/-- One entry of the registrations map. -/
structure Registration where
  /-- The relay auth token string. -/
  token : String
  /-- Absent when seeded by a token-only auth, else the registered proof. -/
  proof : Option String
  deriving DecidableEq

/-- Per-daemon connection state. -/
structure DaemonState where
  /-- Set by a daemon auth, cleared by a disconnect or a stale sweep. -/
  online : Bool
  /-- Session ids in insertion order, oldest first. -/
  sessions : List String
  /-- Last daemon-own traffic or disconnect, in epoch milliseconds. -/
  lastSeen : ℕ
  /-- Session id to live frontend subscription count; absent counts as zero. -/
  attached : Dict String ℕ
  /-- Token most recently registered by this daemon. -/
  registrationToken : Option String

/-- State of a daemon that has registered but not connected yet. -/
def DaemonState.seedOffline (nowMs : ℕ) : DaemonState := ⟨false, [], nowMs, ∅, none⟩

/-- Add a session id at the tail and evict from the front past the cap. -/
def DaemonState.addSession (sid : String) (state : DaemonState) : DaemonState :=
  let sessions := if sid ∈ state.sessions then state.sessions else state.sessions ++ [sid]
  { state with sessions := sessions.drop (sessions.length - maxSessionsPerDaemon) }

/-- The subscription count of one session, zero when the key is absent. -/
def DaemonState.attachedCount (state : DaemonState) (sid : String) : ℕ :=
  (state.attached.lookup sid).getD 0

/-- Count one more subscription, saturating at the 32-bit maximum. -/
def DaemonState.attach (sid : String) (state : DaemonState) : DaemonState :=
  { state with
    attached := state.attached.insert sid (min (state.attachedCount sid + 1) maxAttachedCount) }

/-- Count one subscription less; the key is removed at zero, absent keys stay absent. -/
def DaemonState.detach (sid : String) (state : DaemonState) : DaemonState :=
  match state.attached.lookup sid with
  | none => state
  | some count =>
    if count ≤ 1 then { state with attached := state.attached.erase sid }
    else { state with attached := state.attached.insert sid (count - 1) }

/-- The central registry. -/
structure Registry where
  /-- Daemon id to state. -/
  daemonStates : Dict String DaemonState
  /-- Daemon id to registration. -/
  registrations : Dict String Registration
  /-- Token to the daemon id it authenticates. -/
  validTokens : Dict String String
  /-- Cap on distinct registrations; zero disables it. -/
  maxRegistrations : ℕ

/-- An empty registry with an explicit registration cap. -/
def Registry.withMaxRegistrations (cap : ℕ) : Registry := ⟨∅, ∅, ∅, cap⟩

/-- The state of one daemon is changed in place when it exists. -/
def Registry.alterState (daemonId : String) (f : DaemonState → DaemonState) (r : Registry) :
    Registry := { r with daemonStates := alterKey daemonId f r.daemonStates }

/-- Effect of a daemon-role auth on its state. A supplied token is recorded
only when the state has none. -/
def DaemonState.connect (regToken : Option String) (nowMs : ℕ) (state : DaemonState) :
    DaemonState :=
  { state with
    online := true
    lastSeen := nowMs
    registrationToken :=
      match regToken, state.registrationToken with
      | some token, none => some token
      | _, current => current }

/-- Seed the daemon state when absent; a daemon role also marks it online. -/
def Registry.upsertDaemonState (daemonId : String) (isDaemon : Bool) (regToken : Option String)
    (nowMs : ℕ) (r : Registry) : Registry :=
  let seeded := { r with
    daemonStates := orInsert daemonId (DaemonState.seedOffline nowMs) r.daemonStates }
  if isDaemon then seeded.alterState daemonId (DaemonState.connect regToken nowMs) else seeded

/-- A new daemon id meets a full registry. -/
def Registry.capacityReached (r : Registry) (daemonId : String) : Bool :=
  daemonId ∉ r.registrations ∧ 0 < r.maxRegistrations ∧
    r.maxRegistrations ≤ dictSize r.registrations

/-- The daemon id is registered with a recorded proof that is not this one. -/
def Registry.differentCredentials (r : Registry) (daemonId proof : String) : Bool :=
  match (r.registrations.lookup daemonId).bind Registration.proof with
  | some stored => stored ≠ proof
  | none => false

/-- Stale-token cleanup: rotating away from a token invalidates the old one
and moves the state's token, when the daemon has a state. -/
def Registry.dropStaleToken (daemonId token : String) (r : Registry) : Registry :=
  match r.registrations.lookup daemonId with
  | none => r
  | some existing =>
    if existing.token = token then r
    else { r with
      validTokens := r.validTokens.erase existing.token
      daemonStates := alterKey daemonId
        (fun state => { state with registrationToken := some token }) r.daemonStates }

/-- Record the token, the registration and a state for the daemon. -/
def Registry.recordRegistration (daemonId token proof : String) (nowMs : ℕ) (r : Registry) :
    Registry :=
  { r with
    validTokens := r.validTokens.insert token daemonId
    registrations := r.registrations.insert daemonId ⟨token, some proof⟩
    daemonStates := alterKey daemonId
      (fun state => { state with
        registrationToken := some (state.registrationToken.getD token) })
      (orInsert daemonId (DaemonState.seedOffline nowMs) r.daemonStates) }

/-- Process a registration: capacity, credentials guard, then the mutation. -/
def Registry.handleRegister (r : Registry) (daemonId token proof : String) (nowMs : ℕ) :
    Except String Registry :=
  if r.capacityReached daemonId then .error "Relay registration capacity reached"
  else if r.differentCredentials daemonId proof then
    .error "Daemon ID already registered with different credentials"
  else .ok ((r.dropStaleToken daemonId token).recordRegistration daemonId token proof nowMs)

/-- Validate an auth token against the token map, then upsert the state. A
daemon-role auth also seeds a missing registration without a proof. -/
def Registry.handleAuth (r : Registry) (daemonId token : String) (isDaemon : Bool) (nowMs : ℕ) :
    Except String Registry :=
  if r.validTokens.lookup token = some daemonId then
    let upserted := r.upsertDaemonState daemonId isDaemon
      (if isDaemon then some token else none) nowMs
    if isDaemon ∧ daemonId ∉ upserted.registrations then
      .ok { upserted with
        registrations := upserted.registrations.insert daemonId ⟨token, none⟩ }
    else .ok upserted
  else .error "Invalid token or daemon ID"

/-- Resume only asks whether the daemon is still registered. -/
def Registry.handleAuthResume (r : Registry) (daemonId : String) (isDaemon : Bool) (nowMs : ℕ) :
    Except String Registry :=
  if daemonId ∈ r.registrations then .ok (r.upsertDaemonState daemonId isDaemon none nowMs)
  else .error "Daemon no longer registered"

/-- A closed daemon socket marks the daemon offline and starts its eviction clock. -/
def Registry.daemonDisconnect (daemonId : String) (nowMs : ℕ) (r : Registry) : Registry :=
  r.alterState daemonId fun state => { state with online := false, lastSeen := nowMs }

/-- Release every subscription a closing frontend held. -/
def Registry.frontendDisconnect (daemonId : String) (subscriptions : List String)
    (r : Registry) : Registry :=
  r.alterState daemonId fun state => subscriptions.foldl (fun st sid => st.detach sid) state

/-- A daemon-role publish tracks its session and refreshes the last traffic time. -/
def Registry.daemonPub (daemonId sid : String) (nowMs : ℕ) (r : Registry) : Registry :=
  r.alterState daemonId fun state => { state.addSession sid with lastSeen := nowMs }

/-- A daemon ping refreshes the last traffic time and nothing else. -/
def Registry.daemonPing (daemonId : String) (nowMs : ℕ) (r : Registry) : Registry :=
  r.alterState daemonId fun state => { state with lastSeen := nowMs }

/-- Remove all state of a daemon, its recorded token included. -/
def Registry.evictDaemon (r : Registry) (daemonId : String) : Registry :=
  { r with
    validTokens :=
      match (r.daemonStates.lookup daemonId).bind DaemonState.registrationToken with
      | some token => r.validTokens.erase token
      | none => r.validTokens
    registrations := r.registrations.erase daemonId
    daemonStates := r.daemonStates.erase daemonId }

/-- Online without traffic for longer than the stale timeout. -/
def DaemonState.isStale (nowMs staleTimeoutMs : ℕ) (state : DaemonState) : Bool :=
  state.online ∧ staleTimeoutMs < nowMs - state.lastSeen

/-- Offline for longer than the eviction interval. -/
def DaemonState.isExpired (nowMs offlineEvictMs : ℕ) (state : DaemonState) : Bool :=
  ¬state.online ∧ offlineEvictMs < nowMs - state.lastSeen

/-- First sweep phase: stale daemons go offline, their last traffic time stays. -/
def Registry.markStale (nowMs staleTimeoutMs : ℕ) (r : Registry) : Registry :=
  { r with
    daemonStates := mapValues
      (fun _ state => if state.isStale nowMs staleTimeoutMs then { state with online := false }
        else state) r.daemonStates }

/-- The two transition lists of a sweep. -/
structure StaleCheckResult where
  /-- Daemons that went from online to offline in this sweep. -/
  newlyOffline : List String
  /-- Daemons removed in this sweep. -/
  evicted : List String

/-- The daemon ids whose state passes a test, in entry order. -/
def Registry.daemonsWhere (p : DaemonState → Bool) (r : Registry) : List String :=
  (r.daemonStates.entries.filter fun e => p e.2).map Sigma.fst

/-- Mark stale daemons offline, then evict the expired ones. -/
def Registry.checkStaleDaemons (r : Registry) (nowMs staleTimeoutMs offlineEvictMs : ℕ) :
    Registry × StaleCheckResult :=
  let marked := r.markStale nowMs staleTimeoutMs
  let evicted := marked.daemonsWhere (DaemonState.isExpired nowMs offlineEvictMs)
  (evicted.foldl Registry.evictDaemon marked,
    ⟨r.daemonsWhere (DaemonState.isStale nowMs staleTimeoutMs), evicted⟩)

/-- One call of the registry's public operations, with its arguments. -/
inductive RegistryOp where
  | register (daemonId token proof : String) (nowMs : ℕ)
  | auth (daemonId token : String) (isDaemon : Bool) (nowMs : ℕ)
  | authResume (daemonId : String) (isDaemon : Bool) (nowMs : ℕ)
  | daemonDisconnect (daemonId : String) (nowMs : ℕ)
  | frontendDisconnect (daemonId : String) (subscriptions : List String)
  | daemonPub (daemonId sid : String) (nowMs : ℕ)
  | daemonPing (daemonId : String) (nowMs : ℕ)
  | evict (daemonId : String)
  | checkStale (nowMs staleTimeoutMs offlineEvictMs : ℕ)

/-- The registry after a fallible call: a rejected one changes nothing. -/
def Registry.commit (r : Registry) (result : Except String Registry) : Registry :=
  match result with
  | .ok r' => r'
  | .error _ => r

/-- The registry after one call. -/
def Registry.apply (r : Registry) : RegistryOp → Registry
  | .register daemonId token proof nowMs =>
    r.commit (r.handleRegister daemonId token proof nowMs)
  | .auth daemonId token isDaemon nowMs => r.commit (r.handleAuth daemonId token isDaemon nowMs)
  | .authResume daemonId isDaemon nowMs => r.commit (r.handleAuthResume daemonId isDaemon nowMs)
  | .daemonDisconnect daemonId nowMs => r.daemonDisconnect daemonId nowMs
  | .frontendDisconnect daemonId subscriptions => r.frontendDisconnect daemonId subscriptions
  | .daemonPub daemonId sid nowMs => r.daemonPub daemonId sid nowMs
  | .daemonPing daemonId nowMs => r.daemonPing daemonId nowMs
  | .evict daemonId => r.evictDaemon daemonId
  | .checkStale nowMs staleTimeoutMs offlineEvictMs =>
    (r.checkStaleDaemons nowMs staleTimeoutMs offlineEvictMs).1

/-- The daemon id a call is about; a sweep is about none in particular. -/
def RegistryOp.daemonId : RegistryOp → Option String
  | .register daemonId _ _ _ => some daemonId
  | .auth daemonId _ _ _ => some daemonId
  | .authResume daemonId _ _ => some daemonId
  | .daemonDisconnect daemonId _ => some daemonId
  | .frontendDisconnect daemonId _ => some daemonId
  | .daemonPub daemonId _ _ => some daemonId
  | .daemonPing daemonId _ => some daemonId
  | .evict daemonId => some daemonId
  | .checkStale _ _ _ => none

/-- Registries that some sequence of calls builds from an empty one. -/
def Reachable (r : Registry) : Prop :=
  ∃ cap ops, r = runFrom Registry.apply (Registry.withMaxRegistrations cap) ops

end Teleprompter.RelayRegistry
