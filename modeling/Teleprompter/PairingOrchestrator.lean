import Teleprompter.KeyExchange
import Teleprompter.StepRuns

/-!
# The pending pairing and its slot

A pairing is begun by creating a relay client and completed by the first
frontend that joins it. The orchestrator has one slot for it. A completed
pairing is promoted: it is saved and its client joins the pool. Any other way
out of the slot disposes the client. Begin holds the orchestrator while it
waits for the relay, so what happens to the slot is a sequence of calls; joins
are recorded from outside at any time. Key pairs and bundles are drawn by an
external generator and are only carried along.
-/

namespace Teleprompter.PairingOrchestrator

open FiniteDictionary StepRuns PairingCrypto RelayServer KeyExchange

/-- Digits of a number in base 16. -/
def hex (n : ℕ) : String := String.ofList (Nat.toDigits 16 n)

/-- A host name, unless it is unreadable or over 255 bytes. -/
def safeHostname (host : Option String) : String :=
  match host with
  | some h => if h.utf8ByteSize ≤ 255 then h else ""
  | none => ""

/-- What is drawn for a new pairing. -/
structure PairingBundle (KeyPair : Type) where
  keyPair : KeyPair
  pairingSecret : Bytes
  relayToken : String
  pairingId : String
  hostname : String
  qrString : String

/-- What a pending pairing is made for. -/
structure PendingPairingOptions where
  relayUrl : String
  daemonId : String
  label : Label
  hostname : String

/-- All that is saved of a completed pairing. -/
structure PendingPairingCompleted (KeyPair : Type) where
  frontendId : String
  daemonId : String
  relayUrl : String
  relayToken : String
  registrationProof : String
  keyPair : KeyPair
  pairingSecret : Bytes
  label : Label
  pairingId : String
  hostname : String

/-- How a pending pairing ended. -/
inductive PendingPairingResult (KeyPair : Type) where
  | completed (completed : PendingPairingCompleted KeyPair)
  | cancelled

/-- A pairing that waits for its frontend. -/
structure PendingPairing (KeyPair : Type) where
  /-- Name of the slot, not of the pairing. -/
  pairingId : String
  opts : PendingPairingOptions
  /-- The client it owns. -/
  relay : Option ClientId
  keyPair : Option KeyPair
  pairingSecret : Option Bytes
  relayToken : String
  registrationProof : String
  qrString : String
  wirePairingId : String
  wireHostname : String
  settled : Bool
  resolved : Option (PendingPairingResult KeyPair)

/-- What a successful begin answers. -/
structure BeginOutcome where
  pairingId : String
  qrString : String
  daemonId : String
  deriving DecidableEq

/-- Why a begin fails. -/
inductive BeginPairingError where
  | alreadyPending
  | daemonIdTaken
  | relayUnreachable (message : String)
  deriving DecidableEq

variable {KeyPair : Type}

/-- A fresh pending pairing; its name is a time and a random number. -/
def PendingPairing.new (opts : PendingPairingOptions) (now suffix : ℕ) : PendingPairing KeyPair where
  pairingId := "pp-" ++ hex now ++ "-" ++ hex suffix
  opts := opts
  relay := none
  keyPair := none
  pairingSecret := none
  relayToken := ""
  registrationProof := ""
  qrString := ""
  wirePairingId := ""
  wireHostname := ""
  settled := false
  resolved := none

/-- The first half of begin: take the bundle and create the client. -/
def PendingPairing.start (deriveRegistrationProof : Bytes → String)
    (bundle : Except String (PairingBundle KeyPair)) (client : ClientId)
    (pp : PendingPairing KeyPair) : PendingPairing KeyPair × Option String :=
  match bundle with
  | .error message => (pp, some message)
  | .ok drawn =>
    let taken := { pp with
      keyPair := some drawn.keyPair
      pairingSecret := some drawn.pairingSecret
      relayToken := drawn.relayToken
      wirePairingId := drawn.pairingId
      wireHostname := drawn.hostname
      registrationProof := deriveRegistrationProof drawn.pairingSecret
      qrString := drawn.qrString }
    if taken.settled then (taken, some "pairing cancelled before relay creation")
    else ({ taken with relay := some client }, none)

/-- The second half of begin, after the client connected. -/
def PendingPairing.connected (pp : PendingPairing KeyPair) : Except String BeginOutcome :=
  if pp.settled then .error "pairing cancelled during relay connect"
  else .ok ⟨pp.pairingId, pp.qrString, pp.opts.daemonId⟩

/-- The first frontend completes the pairing. -/
def PendingPairing.markCompleted (frontendId : String) (pp : PendingPairing KeyPair) :
    PendingPairing KeyPair :=
  if pp.settled then pp
  else
    match pp.keyPair, pp.pairingSecret with
    | some keyPair, some pairingSecret =>
      { pp with
        settled := true
        resolved := some (.completed
          { frontendId := frontendId
            daemonId := pp.opts.daemonId
            relayUrl := pp.opts.relayUrl
            relayToken := pp.relayToken
            registrationProof := pp.registrationProof
            keyPair := keyPair
            pairingSecret := pairingSecret
            label := pp.opts.label
            pairingId := pp.wirePairingId
            hostname := pp.wireHostname }) }
    | _, _ => pp

/-- The pairing has ended as completed. -/
def PendingPairing.completed (pp : PendingPairing KeyPair) : Bool :=
  match pp.resolved with
  | some (.completed _) => true
  | _ => false

/-- Cancel; returns the client to dispose. -/
def PendingPairing.cancel (pp : PendingPairing KeyPair) :
    PendingPairing KeyPair × Option ClientId :=
  if pp.settled then (pp, none)
  else ({ pp with
      settled := true, relay := none, keyPair := none, pairingSecret := none,
      resolved := some .cancelled }, pp.relay)

/-- Hand the client over, once. -/
def PendingPairing.releaseRelay (pp : PendingPairing KeyPair) :
    PendingPairing KeyPair × Option ClientId :=
  ({ pp with relay := none }, pp.relay)

/-- The slot, and everything that a begun pairing can end in. -/
structure Orchestrator (KeyPair : Type) where
  pending : Option (PendingPairing KeyPair)
  /-- The client whose joins the slot waits for. -/
  joinSignal : Option ClientId
  /-- The first frontend that joined each client. -/
  joins : Dict ClientId String
  /-- Saved pairings. -/
  saved : List (PendingPairingCompleted KeyPair)
  /-- Clients handed to the pool. -/
  pool : List ClientId
  /-- Clients disposed. -/
  disposed : List ClientId
  /-- Next unused client. -/
  next : ClientId
  /-- Pending pairings that left the slot, in the order they left. -/
  dropped : List (PendingPairing KeyPair)

/-- An empty slot and no clients. -/
def Orchestrator.initial : Orchestrator KeyPair := ⟨none, none, ∅, [], [], [], 0, []⟩

/-- What a begin asks for. -/
structure BeginRequest where
  relayUrl : String
  daemonId : Option String
  label : Option Label

/-- What the clock, the system and the generator deliver to a begin. -/
structure BeginDraws (KeyPair : Type) where
  /-- Time for the default daemon id. -/
  now : ℕ
  /-- Time and random number for the name of the slot. -/
  slotNow : ℕ
  suffix : ℕ
  host : Option String
  bundle : Except String (PairingBundle KeyPair)

/-- A pending pairing leaves the slot or never reached it; the client it gave
up, if any, is disposed. -/
def Orchestrator.discard (s : Orchestrator KeyPair)
    (left : PendingPairing KeyPair × Option ClientId) : Orchestrator KeyPair :=
  { s with dropped := s.dropped ++ [left.1], disposed := s.disposed ++ left.2.toList }

/-- Free the slot. -/
def Orchestrator.vacate (s : Orchestrator KeyPair) : Orchestrator KeyPair :=
  { s with pending := none, joinSignal := none }

section Begin

variable (deriveRegistrationProof : Bytes → String)

/-- The daemon id asked for, or one from the clock. -/
def chosenDaemonId (request : BeginRequest) (now : ℕ) : String :=
  request.daemonId.getD ("daemon-" ++ hex now)

/-- Begin up to the wait for the relay. -/
def Orchestrator.beginCreate (s : Orchestrator KeyPair) (request : BeginRequest)
    (draws : BeginDraws KeyPair) :
    Orchestrator KeyPair × Except BeginPairingError (PendingPairing KeyPair) :=
  if s.pending.isSome then (s, .error .alreadyPending)
  else
    let daemonId := chosenDaemonId request draws.now
    if s.saved.any (·.daemonId = daemonId) then (s, .error .daemonIdTaken)
    else
      let started := (PendingPairing.new ⟨request.relayUrl, daemonId, request.label.getD .unset,
        safeHostname draws.host⟩ draws.slotNow draws.suffix).start deriveRegistrationProof
          draws.bundle s.next
      match started.2 with
      | some message => (s.discard started.1.cancel, .error (.relayUnreachable message))
      | none => ({ s with next := s.next + 1 }, .ok started.1)

/-- Begin after the wait for the relay. -/
def Orchestrator.beginConnected (s : Orchestrator KeyPair) (pp : PendingPairing KeyPair) :
    Orchestrator KeyPair × Except BeginPairingError BeginOutcome :=
  match pp.connected with
  | .ok outcome => ({ s with pending := some pp, joinSignal := pp.relay }, .ok outcome)
  | .error message => (s.discard pp.cancel, .error (.relayUnreachable message))

/-- Begin as a whole. -/
def Orchestrator.begin (s : Orchestrator KeyPair) (request : BeginRequest)
    (draws : BeginDraws KeyPair) :
    Orchestrator KeyPair × Except BeginPairingError BeginOutcome :=
  match s.beginCreate deriveRegistrationProof request draws with
  | (created, .ok pp) => created.beginConnected pp
  | (refused, .error err) => (refused, .error err)

end Begin

/-- A frontend joins a client; the first one is recorded. -/
def Orchestrator.record (s : Orchestrator KeyPair) (client : ClientId) (frontendId : String) :
    Orchestrator KeyPair :=
  if client < s.next then { s with joins := orInsert client frontendId s.joins } else s

/-- Complete the pending pairing if its join was recorded. -/
def Orchestrator.waitForJoin (s : Orchestrator KeyPair) : Orchestrator KeyPair :=
  match s.joinSignal.bind fun client => s.joins.lookup client with
  | some frontendId => { s with pending := s.pending.map (PendingPairing.markCompleted frontendId) }
  | none => s

/-- How the pending pairing ended. -/
def Orchestrator.resolved (s : Orchestrator KeyPair) : Option (PendingPairingResult KeyPair) :=
  s.pending.bind PendingPairing.resolved

/-- Cancel the pending pairing, unless it is another one or completed. -/
def Orchestrator.cancel (s : Orchestrator KeyPair) (pairingId : Option String) :
    Orchestrator KeyPair :=
  match s.pending with
  | none => s
  | some pp =>
    if ∃ pid ∈ pairingId, pp.pairingId ≠ pid then s
    else if pp.completed then s
    else (s.discard pp.cancel).vacate

/-- Save a completed pairing in the place of an older one. -/
def Orchestrator.savePairing (s : Orchestrator KeyPair)
    (completed : PendingPairingCompleted KeyPair) : Orchestrator KeyPair :=
  { s with saved := s.saved.filter (·.daemonId ≠ completed.daemonId) ++ [completed] }

/-- Hand the client of the pending pairing to the pool. -/
def Orchestrator.register (s : Orchestrator KeyPair) : Orchestrator KeyPair :=
  match s.pending with
  | none => s
  | some pp =>
    { s with
      pool := s.pool ++ pp.releaseRelay.2.toList
      dropped := s.dropped ++ [pp.releaseRelay.1] }

/-- Promote: save, which may fail, and hand the client over. -/
def Orchestrator.promote (s : Orchestrator KeyPair) (completed : PendingPairingCompleted KeyPair)
    (saves : Bool) : Orchestrator KeyPair :=
  ((if saves then s.savePairing completed else s).register).vacate

/-- Free the slot and dispose its client. -/
def Orchestrator.clearPending (s : Orchestrator KeyPair) : Orchestrator KeyPair :=
  match s.pending with
  | none => s.vacate
  | some pp => (s.discard pp.releaseRelay).vacate

/-- Shutdown: cancel, and dispose the client of a completed pairing. -/
def Orchestrator.stop (s : Orchestrator KeyPair) : Orchestrator KeyPair :=
  match s.pending with
  | none => s.vacate
  | some pp =>
    let cancelled := pp.cancel
    let released := cancelled.1.releaseRelay
    { s with
      dropped := s.dropped ++ [released.1]
      disposed := s.disposed ++ cancelled.2.toList ++ released.2.toList }.vacate

/-- Calls of the orchestrator, and joins. -/
inductive PairingOp (KeyPair : Type) where
  | begin (request : BeginRequest) (draws : BeginDraws KeyPair)
  | join (client : ClientId) (frontendId : String)
  | waitForJoin
  | cancel (pairingId : Option String)
  | promote (completed : PendingPairingCompleted KeyPair) (saves : Bool)
  | clearPending
  | stop

variable (deriveRegistrationProof : Bytes → String)

/-- One call. -/
def pairingStep (s : Orchestrator KeyPair) : PairingOp KeyPair → Orchestrator KeyPair
  | .begin request draws => (s.begin deriveRegistrationProof request draws).1
  | .join client frontendId => s.record client frontendId
  | .waitForJoin => s.waitForJoin
  | .cancel pairingId => s.cancel pairingId
  | .promote completed saves => s.promote completed saves
  | .clearPending => s.clearPending
  | .stop => s.stop

/-- The result of the `k`-th pending pairing that was made, while it is in the
slot and after. -/
def resolvedOf (s : Orchestrator KeyPair) (k : ℕ) : Option (PendingPairingResult KeyPair) :=
  ((s.dropped ++ s.pending.toList)[k]?).bind PendingPairing.resolved

/-- Clients that the pending slot owns. -/
def owned (s : Orchestrator KeyPair) : List ClientId := (s.pending.bind PendingPairing.relay).toList

/-- A client is owned by the slot, pooled or disposed, and only one of them. -/
def InOnePlace (s : Orchestrator KeyPair) (client : ClientId) : Prop :=
  (client ∈ owned s ∧ client ∉ s.pool ∧ client ∉ s.disposed) ∨
    (client ∉ owned s ∧ client ∈ s.pool ∧ client ∉ s.disposed) ∨
    (client ∉ owned s ∧ client ∉ s.pool ∧ client ∈ s.disposed)

/-- Calls that free the slot; a cancel does so when it names the pending pairing
or none, and that is not completed. -/
def Frees (s : Orchestrator KeyPair) : PairingOp KeyPair → Prop
  | .cancel pairingId => ∃ pp ∈ s.pending, (∀ pid ∈ pairingId, pp.pairingId = pid) ∧
      pp.completed = false
  | .promote .. => True
  | .clearPending => True
  | .stop => True
  | _ => False

/-- A pairing in the slot is settled once it has a result, and was not
cancelled. -/
def PendingPairing.Sound (pp : PendingPairing KeyPair) : Prop :=
  pp.settled = pp.resolved.isSome ∧ pp.resolved ≠ some .cancelled

/-- What a call does to slot and clients. -/
inductive Move (s s' : Orchestrator KeyPair) : Prop where
  | stay (pending : s'.pending = s.pending) (dropped : s'.dropped = s.dropped)
      (pool : s'.pool = s.pool) (disposed : s'.disposed = s.disposed) (next : s'.next = s.next)
  /-- A begun pairing takes the slot with a new client. -/
  | fill (pp : PendingPairing KeyPair) (free : s.pending = none) (pending : s'.pending = some pp)
      (relay : pp.relay = some s.next) (sound : pp.Sound) (dropped : s'.dropped = s.dropped)
      (pool : s'.pool = s.pool) (disposed : s'.disposed = s.disposed)
      (next : s'.next = s.next + 1)
  /-- The pairing in the slot is completed. -/
  | complete (pp : PendingPairing KeyPair) (frontendId : String) (before : s.pending = some pp)
      (pending : s'.pending = some (pp.markCompleted frontendId)) (dropped : s'.dropped = s.dropped)
      (pool : s'.pool = s.pool) (disposed : s'.disposed = s.disposed) (next : s'.next = s.next)
  /-- A begin fails without a client. -/
  | fail (pp : PendingPairing KeyPair) (free : s.pending = none) (pending : s'.pending = none)
      (dropped : s'.dropped = s.dropped ++ [pp]) (pool : s'.pool = s.pool)
      (disposed : s'.disposed = s.disposed) (next : s'.next = s.next)
  /-- The pairing leaves the slot; its client is pooled or disposed. -/
  | leave (pp left : PendingPairing KeyPair) (before : s.pending = some pp)
      (pending : s'.pending = none) (dropped : s'.dropped = s.dropped ++ [left])
      (resolved : ∀ r, pp.resolved = some r → left.resolved = some r)
      (moved : (s'.pool = s.pool ++ pp.relay.toList ∧ s'.disposed = s.disposed) ∨
        (s'.pool = s.pool ∧ s'.disposed = s.disposed ++ pp.relay.toList))
      (next : s'.next = s.next)

/-- A pairing in the slot is not settled exactly when it has no result. -/
theorem PendingPairing.Sound.settled_eq_false {pp : PendingPairing KeyPair} (h : pp.Sound) :
    pp.settled = false ↔ pp.resolved = none := by
  rw [h.1]
  cases pp.resolved <;> simp

/-- A pairing in the slot is not completed exactly when it has no result. -/
theorem PendingPairing.Sound.completed_eq_false {pp : PendingPairing KeyPair} (h : pp.Sound) :
    pp.completed = false ↔ pp.resolved = none := by
  unfold PendingPairing.completed
  split
  · rename_i heq
    simp [heq]
  · rename_i hne
    constructor
    · intro _
      match hr : pp.resolved with
      | none => rfl
      | some (.completed c) => exact absurd hr (hne c)
      | some .cancelled => exact absurd hr h.2
    · exact fun _ => rfl

/-- Completion keeps the pairing sound, and its client. -/
theorem PendingPairing.Sound.markCompleted {pp : PendingPairing KeyPair} (h : pp.Sound)
    (frontendId : String) : (pp.markCompleted frontendId).Sound ∧
      (pp.markCompleted frontendId).relay = pp.relay ∧
      ∀ r, pp.resolved = some r → (pp.markCompleted frontendId).resolved = some r := by
  unfold PendingPairing.markCompleted
  split
  · exact ⟨h, rfl, fun _ => id⟩
  · rename_i hsettled
    have hnone := h.settled_eq_false.mp (by simpa using hsettled)
    split
    · refine ⟨⟨rfl, by simp⟩, rfl, fun r hr => ?_⟩
      rw [hnone] at hr
      contradiction
    · exact ⟨h, rfl, fun _ => id⟩

/-- A pairing that was just begun: it owns a client, has its keys and no
result. -/
structure PendingPairing.Fresh (pp : PendingPairing KeyPair) (client : ClientId) : Prop where
  relay : pp.relay = some client
  unsettled : pp.settled = false
  unresolved : pp.resolved = none
  keyPair : pp.keyPair.isSome
  pairingSecret : pp.pairingSecret.isSome

/-- A fresh pairing is sound. -/
theorem PendingPairing.Fresh.sound {pp : PendingPairing KeyPair} {client : ClientId}
    (h : pp.Fresh client) : pp.Sound := by
  refine ⟨?_, ?_⟩
  · rw [h.unsettled, h.unresolved]
    rfl
  · rw [h.unresolved]
    exact fun heq => by contradiction

/-- A join completes a fresh pairing. -/
theorem PendingPairing.Fresh.completed_markCompleted {pp : PendingPairing KeyPair}
    {client : ClientId} (h : pp.Fresh client) (frontendId : String) :
    ∃ completed, (pp.markCompleted frontendId).resolved = some (.completed completed) ∧
      completed.frontendId = frontendId := by
  obtain ⟨keyPair, hkeyPair⟩ := Option.isSome_iff_exists.mp h.keyPair
  obtain ⟨secret, hsecret⟩ := Option.isSome_iff_exists.mp h.pairingSecret
  unfold PendingPairing.markCompleted
  rw [h.unsettled, hkeyPair, hsecret, if_neg Bool.false_ne_true]
  exact ⟨_, rfl, rfl⟩

/-- The first half of begin fails, or makes a fresh pairing; a failed one owns
no client. -/
theorem start_new (opts : PendingPairingOptions) (now suffix : ℕ)
    (bundle : Except String (PairingBundle KeyPair)) (client : ClientId) :
    let started := (PendingPairing.new opts now suffix).start deriveRegistrationProof bundle client
    (∃ message, started.2 = some message ∧ started.1.cancel.2 = none) ∨
      (started.2 = none ∧ started.1.Fresh client) := by
  cases bundle with
  | error message => exact Or.inl ⟨message, rfl, rfl⟩
  | ok drawn => exact Or.inr ⟨rfl, rfl, rfl, rfl, rfl, rfl⟩

/-- Begin up to the wait is refused and changes nothing, fails without a
client, or makes a fresh pairing for a free slot. -/
theorem beginCreate_cases (s : Orchestrator KeyPair) (request : BeginRequest)
    (draws : BeginDraws KeyPair) :
    (∃ err, s.beginCreate deriveRegistrationProof request draws = (s, .error err) ∧
      (err = .alreadyPending → s.pending.isSome)) ∨
    (s.pending = none ∧ ∃ failed message, failed.2 = none ∧
      s.beginCreate deriveRegistrationProof request draws =
        (s.discard failed, .error (.relayUnreachable message))) ∨
    (s.pending = none ∧ ∃ pp, pp.Fresh s.next ∧
      s.beginCreate deriveRegistrationProof request draws =
        ({ s with next := s.next + 1 }, .ok pp)) := by
  unfold Orchestrator.beginCreate
  by_cases hpending : s.pending.isSome
  · rw [if_pos hpending]
    exact Or.inl ⟨_, rfl, fun _ => hpending⟩
  · rw [if_neg hpending]
    have hfree : s.pending = none := by simpa using hpending
    dsimp only
    split
    · exact Or.inl ⟨_, rfl, fun heq => by contradiction⟩
    · rcases start_new deriveRegistrationProof ⟨request.relayUrl,
        chosenDaemonId request draws.now, request.label.getD .unset, safeHostname draws.host⟩
        draws.slotNow draws.suffix draws.bundle s.next with ⟨message, hmessage, hrelay⟩ | ⟨hok, hfresh⟩
      · rw [hmessage]
        exact Or.inr (Or.inl ⟨hfree, _, message, hrelay, rfl⟩)
      · rw [hok]
        exact Or.inr (Or.inr ⟨hfree, _, hfresh, rfl⟩)

/-- After the wait a fresh pairing takes the slot. -/
theorem beginConnected_fresh (s : Orchestrator KeyPair) {pp : PendingPairing KeyPair}
    {client : ClientId} (h : pp.Fresh client) :
    s.beginConnected pp = ({ s with pending := some pp, joinSignal := some client },
      .ok ⟨pp.pairingId, pp.qrString, pp.opts.daemonId⟩) := by
  unfold Orchestrator.beginConnected PendingPairing.connected
  rw [h.unsettled, if_neg Bool.false_ne_true, h.relay]

/-- What a begin does. -/
theorem move_begin (s : Orchestrator KeyPair) (request : BeginRequest)
    (draws : BeginDraws KeyPair) :
    Move s (s.begin deriveRegistrationProof request draws).1 := by
  unfold Orchestrator.begin
  rcases beginCreate_cases deriveRegistrationProof s request draws with
    ⟨err, heq, -⟩ | ⟨hfree, failed, message, hnothing, heq⟩ | ⟨hfree, pp, hfresh, heq⟩
  · rw [heq]
    exact .stay rfl rfl rfl rfl rfl
  · rw [heq]
    refine .fail failed.1 hfree hfree rfl rfl ?_ rfl
    change s.disposed ++ failed.2.toList = s.disposed
    rw [hnothing, Option.toList_none, List.append_nil]
  · rw [heq]
    dsimp only
    rw [beginConnected_fresh _ hfresh]
    exact .fill pp hfree rfl hfresh.relay hfresh.sound rfl rfl rfl rfl

/-- What a wait for a join does. -/
theorem move_waitForJoin (s : Orchestrator KeyPair) : Move s s.waitForJoin := by
  unfold Orchestrator.waitForJoin
  split
  · rename_i frontendId _
    cases hpending : s.pending with
    | none => exact .stay (by simp [hpending]) rfl rfl rfl rfl
    | some pp => exact .complete pp frontendId hpending (by simp) rfl rfl rfl rfl
  · exact .stay rfl rfl rfl rfl rfl

/-- A sound pairing that is cancelled keeps its result, if it has one, and
gives up its client unless it is settled. -/
theorem cancel_eq {pp : PendingPairing KeyPair} (h : pp.Sound) :
    (pp.resolved = none ∧ pp.cancel.1.resolved = some .cancelled ∧ pp.cancel.1.relay = none ∧
      pp.cancel.2 = pp.relay) ∨ (pp.resolved.isSome ∧ pp.cancel = (pp, none)) := by
  unfold PendingPairing.cancel
  cases hsettled : pp.settled with
  | false =>
    rw [if_neg Bool.false_ne_true]
    exact Or.inl ⟨h.settled_eq_false.mp hsettled, rfl, rfl, rfl⟩
  | true =>
    rw [if_pos rfl]
    exact Or.inr ⟨h.1 ▸ hsettled, rfl⟩

/-- What a cancel does. -/
theorem move_cancel {s : Orchestrator KeyPair} (hs : ∀ pp ∈ s.pending, pp.Sound)
    (pairingId : Option String) : Move s (s.cancel pairingId) := by
  unfold Orchestrator.cancel
  split
  · exact .stay rfl rfl rfl rfl rfl
  · rename_i pp hpending
    split
    · exact .stay rfl rfl rfl rfl rfl
    · split
      · exact .stay rfl rfl rfl rfl rfl
      · rename_i hcompleted
        have hsound := hs pp hpending
        have hnone := hsound.completed_eq_false.mp (by simpa using hcompleted)
        rcases cancel_eq hsound with ⟨-, -, -, hrelay⟩ | ⟨hsome, -⟩
        · refine .leave pp pp.cancel.1 hpending rfl rfl ?_ (Or.inr ⟨rfl, ?_⟩) rfl
          · intro r hr
            rw [hnone] at hr
            contradiction
          · rw [← hrelay]
            rfl
        · rw [hnone] at hsome
          contradiction

/-- What a promotion does. -/
theorem move_promote (s : Orchestrator KeyPair) (completed : PendingPairingCompleted KeyPair)
    (saves : Bool) : Move s (s.promote completed saves) := by
  have hsaved : ∃ saved, (if saves then s.savePairing completed else s) = { s with saved } := by
    cases saves with
    | false => exact ⟨s.saved, rfl⟩
    | true => exact ⟨_, rfl⟩
  obtain ⟨saved, hsaved⟩ := hsaved
  unfold Orchestrator.promote Orchestrator.register
  rw [hsaved]
  cases hpending : s.pending with
  | none => exact .stay hpending.symm rfl rfl rfl rfl
  | some pp => exact .leave pp pp.releaseRelay.1 hpending rfl rfl (fun _ => id) (Or.inl ⟨rfl, rfl⟩) rfl

/-- What clearing the slot does. -/
theorem move_clearPending (s : Orchestrator KeyPair) : Move s s.clearPending := by
  unfold Orchestrator.clearPending
  cases hpending : s.pending with
  | none => exact .stay hpending.symm rfl rfl rfl rfl
  | some pp => exact .leave pp pp.releaseRelay.1 hpending rfl rfl (fun _ => id) (Or.inr ⟨rfl, rfl⟩) rfl

/-- What a shutdown does. -/
theorem move_stop {s : Orchestrator KeyPair} (hs : ∀ pp ∈ s.pending, pp.Sound) :
    Move s s.stop := by
  unfold Orchestrator.stop
  cases hpending : s.pending with
  | none => exact .stay hpending.symm rfl rfl rfl rfl
  | some pp =>
    rcases cancel_eq (hs pp hpending) with ⟨hnone, -, hgone, hrelay⟩ | ⟨-, heq⟩
    · refine .leave pp pp.cancel.1.releaseRelay.1 hpending rfl rfl ?_ (Or.inr ⟨rfl, ?_⟩) rfl
      · intro r hr
        rw [hnone] at hr
        contradiction
      · have hnothing : pp.cancel.1.releaseRelay.2.toList = [] := by
          rw [PendingPairing.releaseRelay, hgone]
          rfl
        change s.disposed ++ pp.cancel.2.toList ++ pp.cancel.1.releaseRelay.2.toList = _
        rw [hnothing, hrelay, List.append_nil]
    · refine .leave pp pp.cancel.1.releaseRelay.1 hpending rfl rfl ?_ (Or.inr ⟨rfl, ?_⟩) rfl
      · rw [heq]
        exact fun _ => id
      · change s.disposed ++ pp.cancel.2.toList ++ pp.cancel.1.releaseRelay.2.toList = _
        rw [heq, Option.toList_none, List.append_nil]
        rfl

/-- Every call is a move. -/
theorem move_pairingStep {s : Orchestrator KeyPair} (hs : ∀ pp ∈ s.pending, pp.Sound)
    (op : PairingOp KeyPair) : Move s (pairingStep deriveRegistrationProof s op) := by
  cases op with
  | begin request draws => exact move_begin deriveRegistrationProof s request draws
  | join client frontendId =>
    rw [pairingStep, Orchestrator.record]
    split
    · exact .stay rfl rfl rfl rfl rfl
    · exact .stay rfl rfl rfl rfl rfl
  | waitForJoin => exact move_waitForJoin s
  | cancel pairingId => exact move_cancel hs pairingId
  | promote completed saves => exact move_promote s completed saves
  | clearPending => exact move_clearPending s
  | stop => exact move_stop hs

/-- The pairing in the slot is sound, and every client that was created is in
one place. -/
structure Housed (s : Orchestrator KeyPair) : Prop where
  sound : ∀ pp ∈ s.pending, pp.Sound
  housed : (owned s ++ s.pool ++ s.disposed).Perm (List.range s.next)

/-- A move keeps every client in one place. -/
theorem Housed.move {s s' : Orchestrator KeyPair} (h : Housed s) (hmove : Move s s') :
    Housed s' := by
  cases hmove with
  | stay pending dropped pool disposed next =>
    refine ⟨pending ▸ h.sound, ?_⟩
    rw [owned, pending, pool, disposed, next]
    exact h.housed
  | fill pp free pending relay sound dropped pool disposed next =>
    refine ⟨?_, ?_⟩
    · rw [pending]
      intro other hother
      exact Option.some.inj hother ▸ sound
    · have hold := h.housed
      rw [owned, free, Option.bind_none, Option.toList_none, List.nil_append] at hold
      rw [owned, pending, Option.bind_some, relay, Option.toList_some, pool, disposed, next,
        List.range_succ, List.append_assoc, List.singleton_append]
      exact (hold.cons s.next).trans (List.perm_append_singleton s.next _).symm
  | complete pp frontendId before pending dropped pool disposed next =>
    have hpp := (h.sound pp before).markCompleted frontendId
    refine ⟨?_, ?_⟩
    · rw [pending]
      intro other hother
      exact Option.some.inj hother ▸ hpp.1
    · have hold := h.housed
      rw [owned, before, Option.bind_some] at hold
      rw [owned, pending, Option.bind_some, hpp.2.1, pool, disposed, next]
      exact hold
  | fail pp free pending dropped pool disposed next =>
    refine ⟨?_, ?_⟩
    · rw [pending]
      exact fun other hother => by contradiction
    · have hold := h.housed
      rw [owned, free] at hold
      rw [owned, pending, pool, disposed, next]
      exact hold
  | leave pp left before pending dropped resolved moved next =>
    refine ⟨?_, ?_⟩
    · rw [pending]
      exact fun other hother => by contradiction
    · have hold := h.housed
      rw [owned, before, Option.bind_some] at hold
      rw [owned, pending, Option.bind_none, Option.toList_none, List.nil_append, next]
      refine List.Perm.trans ?_ hold
      rcases moved with ⟨hpool, hdisposed⟩ | ⟨hpool, hdisposed⟩
      · rw [hpool, hdisposed]
        exact List.perm_append_comm.append_right _
      · rw [hpool, hdisposed, ← List.append_assoc, List.append_assoc pp.relay.toList]
        exact List.perm_append_comm

/-- A result that was set stays. -/
theorem resolvedOf_move {s s' : Orchestrator KeyPair} (h : Housed s) (hmove : Move s s') {k : ℕ}
    {r : PendingPairingResult KeyPair} (hr : resolvedOf s k = some r) :
    resolvedOf s' k = some r := by
  obtain ⟨pp', hk, hpp'⟩ := Option.bind_eq_some_iff.mp hr
  have hin_old : ∀ {more : List (PendingPairing KeyPair)}, s.dropped[k]? = some pp' →
      ((s.dropped ++ more)[k]?).bind PendingPairing.resolved = some r := by
    intro more hold
    rw [List.getElem?_append_left (List.getElem?_eq_some_iff.mp hold).1, hold]
    exact hpp'
  have hsplit : ∀ {pp : PendingPairing KeyPair}, (s.dropped ++ [pp])[k]? = some pp' →
      s.dropped[k]? = some pp' ∨ (k = s.dropped.length ∧ pp' = pp) := by
    intro pp hsome
    rcases Nat.lt_or_ge k s.dropped.length with hlt | hge
    · rw [List.getElem?_append_left hlt] at hsome
      exact Or.inl hsome
    · rw [List.getElem?_append_right hge] at hsome
      obtain ⟨hlen, hget⟩ := List.getElem?_eq_some_iff.mp hsome
      have hk0 : k = s.dropped.length := by
        rw [List.length_singleton] at hlen
        omega
      refine Or.inr ⟨hk0, ?_⟩
      rw [← hget, List.getElem_singleton]
  cases hmove with
  | stay pending dropped pool disposed next =>
    rw [resolvedOf, pending, dropped]
    exact hr
  | fill pp free pending relay sound dropped pool disposed next =>
    rw [free, Option.toList_none, List.append_nil] at hk
    rw [resolvedOf, dropped]
    exact hin_old hk
  | complete pp frontendId before pending dropped pool disposed next =>
    rw [before, Option.toList_some] at hk
    rw [resolvedOf, dropped, pending, Option.toList_some]
    rcases hsplit hk with hold | ⟨rfl, rfl⟩
    · exact hin_old hold
    · rw [List.getElem?_concat_length, Option.bind_some]
      exact ((h.sound pp' before).markCompleted frontendId).2.2 r hpp'
  | fail pp free pending dropped pool disposed next =>
    rw [free, Option.toList_none, List.append_nil] at hk
    rw [resolvedOf, dropped, pending, Option.toList_none, List.append_nil]
    exact hin_old hk
  | leave pp left before pending dropped resolved moved next =>
    rw [before, Option.toList_some] at hk
    rw [resolvedOf, dropped, pending, Option.toList_none, List.append_nil]
    rcases hsplit hk with hold | ⟨rfl, rfl⟩
    · exact hin_old hold
    · rw [List.getElem?_concat_length, Option.bind_some]
      exact resolved r hpp'

/-- Every call keeps the clients in one place. -/
theorem Housed.step {s : Orchestrator KeyPair} (h : Housed s) (op : PairingOp KeyPair) :
    Housed (pairingStep deriveRegistrationProof s op) :=
  h.move (move_pairingStep deriveRegistrationProof h.sound op)

/-- A result that was set stays through all later calls. -/
theorem resolvedOf_runFrom {s : Orchestrator KeyPair} (h : Housed s)
    (ops : List (PairingOp KeyPair)) {k : ℕ} {r : PendingPairingResult KeyPair}
    (hr : resolvedOf s k = some r) :
    resolvedOf (runFrom (pairingStep deriveRegistrationProof) s ops) k = some r := by
  induction ops generalizing s with
  | nil => exact hr
  | cons op ops ih =>
    exact ih (h.step deriveRegistrationProof op)
      (resolvedOf_move h (move_pairingStep deriveRegistrationProof h.sound op) hr)

/-- A client that was created is in one place. -/
theorem Housed.inOnePlace {s : Orchestrator KeyPair} (h : Housed s) {client : ClientId}
    (hclient : client < s.next) : InOnePlace s client := by
  have hnodup := h.housed.nodup_iff.mpr List.nodup_range
  have hmem := h.housed.mem_iff.mpr (List.mem_range.mpr hclient)
  rw [List.nodup_append'] at hnodup
  obtain ⟨hnodup', -, hdisposed⟩ := hnodup
  rw [List.nodup_append'] at hnodup'
  obtain ⟨-, -, hpool⟩ := hnodup'
  unfold InOnePlace
  rcases List.mem_append.mp hmem with hleft | hin
  · have hnot : client ∉ s.disposed := fun hin => hdisposed hleft hin
    rcases List.mem_append.mp hleft with howned | hin
    · exact Or.inl ⟨howned, fun hin => hpool howned hin, hnot⟩
    · exact Or.inr (Or.inl ⟨fun howned => hpool howned hin, hin, hnot⟩)
  · refine Or.inr (Or.inr ⟨fun howned => ?_, fun hpooled => ?_, hin⟩)
    · exact hdisposed (List.mem_append_left _ howned) hin
    · exact hdisposed (List.mem_append_right _ hpooled) hin

/-- A call that frees the slot leaves it empty. -/
theorem pending_of_frees {s : Orchestrator KeyPair} {op : PairingOp KeyPair} (h : Frees s op) :
    (pairingStep deriveRegistrationProof s op).pending = none := by
  cases op with
  | begin request draws => exact absurd h id
  | join client frontendId => exact absurd h id
  | waitForJoin => exact absurd h id
  | cancel pairingId =>
    obtain ⟨pp, hpending, hid, hcompleted⟩ := h
    have hnamed : ¬∃ pid ∈ pairingId, pp.pairingId ≠ pid := by
      rintro ⟨pid, hpid, hne⟩
      exact hne (hid pid hpid)
    have hpending' : s.pending = some pp := hpending
    rw [pairingStep, Orchestrator.cancel, hpending']
    dsimp only
    rw [if_neg hnamed, hcompleted, if_neg Bool.false_ne_true]
    rfl
  | promote completed saves => rfl
  | clearPending =>
    rw [pairingStep, Orchestrator.clearPending]
    split
    · rfl
    · rfl
  | stop =>
    rw [pairingStep, Orchestrator.stop]
    split
    · rfl
    · rfl

/-- A begin on a free slot does not find it taken. -/
theorem begin_ne_alreadyPending {s : Orchestrator KeyPair} (h : s.pending = none)
    (request : BeginRequest) (draws : BeginDraws KeyPair) :
    (s.begin deriveRegistrationProof request draws).2 ≠ .error .alreadyPending := by
  unfold Orchestrator.begin
  rcases beginCreate_cases deriveRegistrationProof s request draws with
    ⟨err, heq, hpending⟩ | ⟨-, failed, message, -, heq⟩ | ⟨-, pp, hfresh, heq⟩
  · rw [heq]
    intro hsame
    have hsome := hpending (Except.error.inj hsame)
    rw [h] at hsome
    contradiction
  · rw [heq]
    intro hsame
    exact absurd (Except.error.inj hsame) (by simp)
  · rw [heq]
    dsimp only
    rw [beginConnected_fresh _ hfresh]
    exact fun hsame => by contradiction

/-- After any sequence of calls and joins: a result that was set never changes,
every client that a begin created is owned by the slot, pooled or disposed and
only one of them, and a call that frees the slot makes room for the next
begin. -/
theorem pending_pairing_lifecycle (ops : List (PairingOp KeyPair)) :
    let s := runFrom (pairingStep deriveRegistrationProof) .initial ops
    (∀ k r, resolvedOf s k = some r → ∀ later,
      resolvedOf (runFrom (pairingStep deriveRegistrationProof) s later) k = some r) ∧
    (∀ client < s.next, InOnePlace s client) ∧
    (∀ op, Frees s op → (pairingStep deriveRegistrationProof s op).pending = none ∧
      ∀ request draws, ((pairingStep deriveRegistrationProof s op).begin
        deriveRegistrationProof request draws).2 ≠ .error .alreadyPending) := by
  have hinitial : Housed (.initial : Orchestrator KeyPair) :=
    ⟨fun pp hpp => by contradiction, List.Perm.refl []⟩
  have hstep : ∀ (s : Orchestrator KeyPair) (op : PairingOp KeyPair), Housed s →
      Housed (pairingStep deriveRegistrationProof s op) :=
    fun _ op h => h.step deriveRegistrationProof op
  have hhoused := runFrom_induction hstep hinitial ops
  refine ⟨fun k r hr later => resolvedOf_runFrom deriveRegistrationProof hhoused later hr,
    fun client hclient => hhoused.inOnePlace hclient, fun op hop => ?_⟩
  have hfree := pending_of_frees deriveRegistrationProof hop
  exact ⟨hfree, begin_ne_alreadyPending deriveRegistrationProof hfree⟩

end Teleprompter.PairingOrchestrator
