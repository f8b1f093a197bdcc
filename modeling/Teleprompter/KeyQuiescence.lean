import Teleprompter.KeyAgreement

/-!
# When the key exchange comes to rest

The daemon answers every key of a frontend with its own key, and the relay
forwards that answer to every frontend of the group. An app without session
keys takes the answer silently; an app that already has session keys sends a
fresh key, which the daemon answers again. A potential pays for every message:
two units for an accepted auth of an app, one for an accepted auth of the
daemon, and two for every such second key. So an exchange with finitely many
connects comes to rest exactly when keyed apps meet a daemon key only
finitely often; two clients that keep meeting never rest.
-/

namespace Teleprompter.KeyQuiescence

open FiniteDictionary KeyedQueues StepRuns PairingCrypto RelayServer RelayEffects
open KeyExchange KeyExchangeNetwork KeyAgreement

/-- A mark of a key-exchange message that was sent. -/
def isSend : KxMark → Bool
  | .appSent _ _ => true
  | .daemonSent => true
  | _ => false

/-- Key-exchange messages among the marks. -/
def sendsIn (marks : List KxMark) : ℕ := marks.countP isSend

/-- A connect or an accepted auth. -/
def isConnect : KxEvent → Bool
  | .daemonConnect => true
  | .appConnect _ => true
  | .relayAuth _ _ => true
  | _ => false

variable {suite : CryptoSuite}

/-- An app that has session keys takes a daemon key. -/
def Rekeys (pairing : Pairing) (s : KxSystem suite) : KxEvent → Prop
  | .appReceive frontendId connId _ _ =>
    s.owner.lookup connId = some (.app frontendId) ∧
    (s.app frontendId).sessionKeys.isSome ∧
    ∃ ct sender rest, pop connId s.down = some (.kxFrame ct sender, rest) ∧
      (acceptDaemonKx pairing (s.app frontendId) sender ct).isSome
  | _ => False

/-- What an accepted auth may cost. -/
def authCredit (s : KxSystem suite) : KxEvent → ℕ
  | .relayAuth connId _ =>
    match s.owner.lookup connId with
    | none => 0
    | some .daemon => 1
    | some (.app _) => 2
  | _ => 0

/-- An envelope of an app will be answered once. -/
def upWeight (owner : Dict ConnId Party) (connId : ConnId) (_ : String) : ℕ :=
  match owner.lookup connId with
  | some (.app _) => 1
  | _ => 0

/-- An accepted auth starts an exchange; a frontend's envelope on the
daemon's socket is answered. -/
def downWeight (owner : Dict ConnId Party) (socket : Option ConnId) (connId : ConnId) :
    KxDown → ℕ
  | .authOk _ =>
    match owner.lookup connId with
    | none => 0
    | some .daemon => 1
    | some (.app _) => 2
  | .kxFrame _ sender => if sender = .frontend ∧ socket = some connId then 1 else 0

/-- Messages that what is in flight can still cause. -/
def pending (s : KxSystem suite) : ℕ :=
  totalWeight (upWeight s.owner) s.up + totalWeight (downWeight s.owner s.daemon.socket) s.down

/-- Every message to a client is on a connection that someone opened. -/
def DownOwned (s : KxSystem suite) : Prop :=
  ∀ connId msg, (connId, msg) ∈ s.down → ∃ party, s.owner.lookup connId = some party

section Handlers

variable (config : DaemonConfig suite)

/-- The daemon sends exactly when it answers. -/
theorem sendsIn_daemonHandle (client : DaemonClient) (nonce : Nonce) (msg : KxDown) :
    sendsIn (daemonHandle config client nonce msg).2.2 =
      (daemonHandle config client nonce msg).2.1.toList.length := by
  have hsent : ∀ sent : Option String,
      sendsIn (sent.toList.map fun _ => KxMark.daemonSent) = sent.toList.length := by
    intro sent
    cases sent <;> rfl
  cases msg with
  | authOk resumed => exact hsent _
  | kxFrame ct sender =>
    have hprocessed : ∀ read : Option (KxPayload × String × Key),
        sendsIn (read.toList.map fun r => KxMark.daemonProcessed r.2.1 r.1) = 0 := by
      intro read
      cases read <;> rfl
    simp only [daemonHandle, sendsIn, List.countP_append]
    rw [← sendsIn, ← sendsIn, hsent, hprocessed, Nat.add_zero]

/-- The daemon answers an accepted auth or a frontend's envelope, at most once. -/
theorem daemonHandle_cost (client : DaemonClient) (nonce : Nonce) (msg : KxDown) :
    (daemonHandle config client nonce msg).2.1.toList.length ≤
      match msg with
      | .authOk _ => 1
      | .kxFrame _ sender => if sender = .frontend then 1 else 0 := by
  have hone : ∀ sent : Option String, sent.toList.length ≤ 1 := by
    intro sent
    cases sent <;> simp
  cases msg with
  | authOk resumed => exact hone _
  | kxFrame ct sender =>
    cases sender with
    | frontend => exact hone _
    | daemon => simp [daemonHandle, handleKxFrame, readKxFrame]

/-- An app sends exactly when it starts an exchange. -/
theorem sendsIn_appHandle (pairing : Pairing) (frontendId : String) (client : AppClient suite)
    (seed : Key) (nonce : Nonce) (msg : KxDown) :
    sendsIn (appHandle pairing frontendId client seed nonce msg).2.2 =
      (appHandle pairing frontendId client seed nonce msg).2.1.toList.length := by
  cases msg with
  | authOk resumed => rfl
  | kxFrame ct sender =>
    cases haccept : acceptDaemonKx pairing client sender ct with
    | none => simp [appHandle, onKeyExchangeFrame, haccept, sendsIn]
    | some accepted =>
      cases hkeys : client.sessionKeys with
      | none => simp [appHandle, onKeyExchangeFrame, haccept, hkeys, sendsIn, isSend]
      | some keys =>
        simp only [appHandle, onKeyExchangeFrame, haccept, hkeys]
        rfl

/-- An app sends on an accepted auth, and on a daemon key once it is keyed. -/
theorem appHandle_cost (pairing : Pairing) (frontendId : String) (client : AppClient suite)
    (seed : Key) (nonce : Nonce) (msg : KxDown) :
    (appHandle pairing frontendId client seed nonce msg).2.1.isSome =
      match msg with
      | .authOk _ => true
      | .kxFrame ct sender =>
        client.sessionKeys.isSome && (acceptDaemonKx pairing client sender ct).isSome := by
  cases msg with
  | authOk resumed => rfl
  | kxFrame ct sender =>
    cases haccept : acceptDaemonKx pairing client sender ct with
    | none => simp [appHandle, onKeyExchangeFrame, haccept]
    | some accepted =>
      cases hkeys : client.sessionKeys with
      | none => simp [appHandle, onKeyExchangeFrame, haccept, hkeys]
      | some keys => simp [appHandle, onKeyExchangeFrame, haccept, hkeys, startKeyExchange]

end Handlers

section Potential

variable {config : DaemonConfig suite}

/-- Every event keeps messages on owned connections. -/
theorem kxStep_downOwned {s : KxSystem suite} (hs : ChannelsSound config s) (h : DownOwned s)
    (e : KxEvent) : DownOwned (kxStep config s e) := by
  have hkeep : ∀ {connId : ConnId} {party : Party} (other : Party),
      s.owner.lookup connId = some party →
        ∃ party', (s.accept other).owner.lookup connId = some party' := by
    intro connId party other howner
    refine ⟨party, ?_⟩
    rw [KxSystem.accept, lookup_insert_eq, if_neg (hs.ne_next howner), howner]
  unfold kxStep
  cases e with
  | daemonConnect =>
    intro connId msg hm
    obtain ⟨party, howner⟩ := h connId msg hm
    exact hkeep .daemon howner
  | daemonRestart => exact h
  | appConnect frontendId =>
    simp only [kxStepMarks]
    split
    · intro connId msg hm
      obtain ⟨party, howner⟩ := h connId msg hm
      exact hkeep (.app frontendId) howner
    · exact h
  | appDisconnect frontendId => exact h
  | appReceiveFailure frontendId => exact h
  | relayAuth connId resumed =>
    simp only [kxStepMarks]
    split
    · exact h
    · next party howner =>
      intro c msg hm
      rcases List.mem_append.mp hm with hold | hnew
      · exact h c msg hold
      · cases List.mem_singleton.mp hnew
        exact ⟨party, howner⟩
  | relayReceive connId admitted =>
    simp only [kxStepMarks]
    split
    · exact h
    · intro c msg hm
      rcases List.mem_append.mp hm with hold | hnew
      · exact h c msg hold
      · obtain ⟨-, -, -, auth, hauth⟩ := mem_relayForward hnew
        obtain ⟨party, howner, -⟩ := hs.roles c auth hauth
        exact ⟨party, howner⟩
  | relayClose connId now => exact h
  | lost connId => exact fun c msg hm => h c msg (lose_subset connId s.down hm)
  | daemonReceive nonce =>
    simp only [kxStepMarks]
    split
    · exact h
    · next msg rest hpop =>
      obtain ⟨connId, -, hpop⟩ := Option.bind_eq_some_iff.mp hpop
      intro c m hm
      rw [down_sendUp] at hm
      rw [owner_sendUp]
      exact h c m (subset_of_pop hpop hm)
  | appReceive frontendId connId seed nonce =>
    simp only [kxStepMarks]
    split
    · split
      · exact h
      · next msg rest hpop =>
        intro c m hm
        rw [down_sendUp] at hm
        rw [owner_sendUp]
        exact h c m (subset_of_pop hpop hm)
    · exact h

/-- Weights depend on a connection only through its owner. -/
theorem downWeight_congr {owner owner' : Dict ConnId Party} {connId : ConnId}
    (h : owner.lookup connId = owner'.lookup connId) (socket : Option ConnId) (msg : KxDown) :
    downWeight owner socket connId msg = downWeight owner' socket connId msg := by
  cases msg with
  | authOk resumed => simp only [downWeight, h]
  | kxFrame ct sender => rfl

/-- A new connection carries nothing. -/
theorem pending_accept {s : KxSystem suite} (hs : ChannelsSound config s) (hd : DownOwned s)
    (party : Party) : pending (s.accept party) = pending s := by
  have hsame : ∀ {connId : ConnId} {other : Party}, s.owner.lookup connId = some other →
      (s.accept party).owner.lookup connId = s.owner.lookup connId := by
    intro connId other howner
    rw [KxSystem.accept, lookup_insert_eq, if_neg (hs.ne_next howner)]
  have hup : totalWeight (upWeight (s.accept party).owner) s.up =
      totalWeight (upWeight s.owner) s.up := by
    refine totalWeight_congr fun x hx => ?_
    obtain ⟨other, howner, -⟩ := hs.up x.1 x.2 hx
    simp only [upWeight, hsame howner]
  have hdown : totalWeight (downWeight (s.accept party).owner s.daemon.socket) s.down =
      totalWeight (downWeight s.owner s.daemon.socket) s.down := by
    refine totalWeight_congr fun x hx => ?_
    obtain ⟨other, howner⟩ := hd x.1 x.2 hx
    exact downWeight_congr (hsame howner) s.daemon.socket x.2
  exact congrArg₂ (· + ·) hup hdown

/-- A socket that no message is on carries nothing. -/
theorem totalWeight_fresh_socket {owner : Dict ConnId Party} {socket socket' : Option ConnId}
    {q : Queues ConnId KxDown} (h : ∀ x ∈ q, socket' ≠ some x.1) :
    totalWeight (downWeight owner socket') q ≤ totalWeight (downWeight owner socket) q := by
  refine totalWeight_mono fun x hx => ?_
  cases hm : x.2 with
  | authOk resumed => exact le_rfl
  | kxFrame ct sender =>
    rw [downWeight, if_neg fun hc => h x hx hc.2]
    exact Nat.zero_le _

/-- What the relay forwards weighs at most one unit, and nothing when the
daemon sent it. -/
theorem totalWeight_relayForward {core : RelayCore} {connId : ConnId} {client : AuthState}
    (hclient : core.authedState connId = some client) (owner : Dict ConnId Party)
    (socket : Option ConnId) (admitted : Bool) (ct : String) :
    totalWeight (downWeight owner socket) (relayForward core connId admitted ct) ≤
      if client.role = .frontend then 1 else 0 := by
  obtain ⟨targets, hnodup, -, heq⟩ := relayForward_eq hclient admitted ct
  rw [heq]
  split
  · next hrole =>
    have hcount : totalWeight (downWeight owner socket)
        (targets.map fun target => (target, KxDown.kxFrame ct client.role)) =
          targets.countP fun target => socket = some target := by
      clear heq hnodup
      induction targets with
      | nil => rfl
      | cons target targets ih =>
        rw [List.map_cons, ← List.singleton_append, totalWeight_append, ih, totalWeight_singleton,
          List.countP_cons, Nat.add_comm]
        simp [downWeight, hrole]
    rw [hcount]
    cases socket with
    | none => simp
    | some c =>
      have hle := List.nodup_iff_count_le_one.mp hnodup c
      rw [List.count, List.countP_congr (q := fun target => decide (some c = some target))] at hle
      · exact hle
      · intro target _
        rw [beq_iff_eq, decide_eq_true_iff, Option.some_inj]
        exact eq_comm
  · next hrole =>
    rw [Nat.le_zero, totalWeight_eq_zero]
    intro x hx
    obtain ⟨target, -, rfl⟩ := List.mem_map.mp hx
    exact if_neg fun hc => hrole hc.1

/-- Sending on a socket weighs what the socket's owner weighs. -/
theorem totalWeight_sendUp (w : ConnId → String → ℕ) (s : KxSystem suite) {k : ℕ}
    (socket : Option ConnId) (sent : Option String)
    (h : ∀ connId ct, socket = some connId → w connId ct ≤ k) :
    totalWeight w (s.sendUp socket sent).up ≤ totalWeight w s.up + k * sent.toList.length := by
  unfold KxSystem.sendUp
  split
  · next connId ct =>
    rw [totalWeight_append, totalWeight_singleton]
    have hle := h connId ct rfl
    simpa using hle
  · exact Nat.le_add_right _ _

/-- The relay pays for a message it passes on with the message it received. -/
theorem pending_relayReceive {s : KxSystem suite} (hs : ChannelsSound config s) (connId : ConnId)
    (admitted : Bool) :
    pending (kxStep config s (.relayReceive connId admitted)) +
        sendsIn (kxStepMarks config s (.relayReceive connId admitted)).2 ≤ pending s := by
  unfold kxStep
  simp only [kxStepMarks]
  split
  · exact le_rfl
  · next ct rest hpop =>
    have hweight := totalWeight_pop (upWeight s.owner) hpop
    obtain ⟨party, howner, -⟩ := hs.up connId ct (mem_of_pop hpop)
    have hforward : totalWeight (downWeight s.owner s.daemon.socket)
        (relayForward s.relay connId admitted ct) ≤ upWeight s.owner connId ct := by
      cases hclient : s.relay.authedState connId with
      | none => simp [relayForward_none hclient]
      | some client =>
        have hrouted := totalWeight_relayForward hclient s.owner s.daemon.socket admitted ct
        obtain ⟨party', howner', hrole⟩ := hs.roles connId client hclient
        cases howner.symm.trans howner'
        rw [hrole] at hrouted
        cases party <;> simpa [upWeight, howner, Party.role] using hrouted
    simp only [pending, totalWeight_append, sendsIn, List.countP_nil]
    omega

/-- The daemon pays for an answer with the message it received. -/
theorem pending_daemonReceive {s : KxSystem suite} (hs : ChannelsSound config s) (nonce : Nonce) :
    pending (kxStep config s (.daemonReceive nonce)) +
        sendsIn (kxStepMarks config s (.daemonReceive nonce)).2 ≤ pending s := by
  unfold kxStep
  simp only [kxStepMarks]
  split
  · exact le_rfl
  · next msg rest hpop =>
    obtain ⟨connId, hsocket, hpop⟩ := Option.bind_eq_some_iff.mp hpop
    have howner := hs.socket connId hsocket
    have hweight := totalWeight_pop (downWeight s.owner s.daemon.socket) hpop
    have hcost := daemonHandle_cost config s.daemon nonce msg
    have hframe := (daemonHandle_frame config s.daemon nonce msg).1
    have hup := totalWeight_sendUp (upWeight s.owner) (k := 0)
      { s with down := rest, daemon := (daemonHandle config s.daemon nonce msg).1 }
      s.daemon.socket (daemonHandle config s.daemon nonce msg).2.1 (by
        intro c ct hc
        rw [upWeight, hs.socket c hc])
    have hpay : (daemonHandle config s.daemon nonce msg).2.1.toList.length ≤
        downWeight s.owner s.daemon.socket connId msg := by
      refine Nat.le_trans hcost ?_
      cases msg with
      | authOk resumed => simp [downWeight, howner]
      | kxFrame ct sender => simp [downWeight, hsocket]
    simp only [pending, owner_sendUp, down_sendUp, daemon_sendUp, hframe,
      sendsIn_daemonHandle] at hup ⊢
    omega

/-- A frontend that is not keyed a second time pays for its answer with the
message it received. -/
theorem pending_appReceive (s : KxSystem suite) {frontendId : String} {connId : ConnId}
    {seed : Key} {nonce : Nonce}
    (hcalm : ¬Rekeys config.toPairing s (.appReceive frontendId connId seed nonce)) :
    pending (kxStep config s (.appReceive frontendId connId seed nonce)) +
        sendsIn (kxStepMarks config s (.appReceive frontendId connId seed nonce)).2 ≤
      pending s := by
  unfold kxStep
  simp only [kxStepMarks]
  split
  · next howner =>
    split
    · exact le_rfl
    · next msg rest hpop =>
      have hweight := totalWeight_pop (downWeight s.owner s.daemon.socket) hpop
      have hcost := appHandle_cost config.toPairing frontendId (s.app frontendId) seed nonce msg
      have hup := totalWeight_sendUp (upWeight s.owner) (k := 1)
        ({ s with down := rest }.setApp frontendId
          (appHandle config.toPairing frontendId (s.app frontendId) seed nonce msg).1)
        (s.app frontendId).task
        (appHandle config.toPairing frontendId (s.app frontendId) seed nonce msg).2.1 (by
          intro c ct _
          unfold upWeight
          split <;> simp)
      have hpay : 2 * (appHandle config.toPairing frontendId (s.app frontendId) seed nonce
          msg).2.1.toList.length ≤ downWeight s.owner s.daemon.socket connId msg := by
        cases msg with
        | authOk resumed =>
          simp only [downWeight, howner]
          cases (appHandle config.toPairing frontendId (s.app frontendId) seed nonce
            (.authOk resumed)).2.1 <;> simp
        | kxFrame ct sender =>
          have hsilent : (appHandle config.toPairing frontendId (s.app frontendId) seed nonce
              (.kxFrame ct sender)).2.1 = none := by
            rw [← Option.not_isSome_iff_eq_none, hcost]
            intro hboth
            obtain ⟨hkeys, haccept⟩ := (Bool.and_eq_true _ _).mp hboth
            exact hcalm ⟨howner, hkeys, ct, sender, rest, hpop, haccept⟩
          rw [hsilent]
          exact Nat.zero_le _
      simp only [pending, owner_sendUp, down_sendUp, daemon_sendUp, sendsIn_appHandle,
        KxSystem.setApp] at hup ⊢
      omega
  · exact le_rfl

/-- An event without a second key costs no more than the potential it takes
away and the credit of an accepted auth. -/
theorem kxStep_pending {s : KxSystem suite} (hs : ChannelsSound config s) (hd : DownOwned s)
    (e : KxEvent) (hcalm : ¬Rekeys config.toPairing s e) :
    pending (kxStep config s e) + sendsIn (kxStepMarks config s e).2 ≤
      pending s + authCredit s e := by
  unfold kxStep
  cases e with
  | daemonConnect =>
    have hsocket : ∀ x ∈ s.down, some s.nextConnId ≠ some x.1 := by
      intro x hx heq
      obtain ⟨party, howner⟩ := hd x.1 x.2 hx
      exact hs.ne_next howner (Option.some_inj.mp heq).symm
    have hle : totalWeight (downWeight (s.accept .daemon).owner (some s.nextConnId)) s.down ≤
        totalWeight (downWeight (s.accept .daemon).owner s.daemon.socket) s.down :=
      totalWeight_fresh_socket hsocket
    have hsame := pending_accept hs hd .daemon
    simp only [pending] at hsame
    exact Nat.le_trans (Nat.add_le_add_left hle _) (Nat.le_of_eq hsame)
  | daemonRestart =>
    refine Nat.add_le_add_left (totalWeight_fresh_socket fun x _ hsocket => ?_) _
    cases hsocket
  | appConnect frontendId =>
    simp only [kxStepMarks]
    split
    · exact Nat.le_of_eq (pending_accept hs hd (.app frontendId))
    · exact le_rfl
  | appDisconnect frontendId => exact le_rfl
  | appReceiveFailure frontendId => exact le_rfl
  | relayAuth connId resumed =>
    simp only [kxStepMarks, authCredit]
    split
    · exact Nat.le_add_right _ _
    · next party howner =>
      simp only [pending, totalWeight_append, totalWeight_singleton, downWeight, howner]
      cases party <;> exact Nat.le_of_eq (by simp [sendsIn, Nat.add_assoc])
  | relayReceive connId admitted => exact pending_relayReceive hs connId admitted
  | relayClose connId now => exact le_rfl
  | lost connId =>
    have hup := totalWeight_lose_le (upWeight s.owner) connId s.up
    have hdown := totalWeight_lose_le (downWeight s.owner s.daemon.socket) connId s.down
    simp only [kxStepMarks, pending, sendsIn, List.countP_nil, authCredit]
    omega
  | daemonReceive nonce => exact pending_daemonReceive hs nonce
  | appReceive frontendId connId seed nonce => exact pending_appReceive s hcalm

end Potential

section Flight

/-- No key-exchange message is under way. -/
def NoneInFlight (s : KxSystem suite) : Prop :=
  s.up = [] ∧ ∀ connId ct sender, (connId, .kxFrame ct sender) ∉ s.down

/-- The event takes a key-exchange message off the wire: the relay or a
client reads it, or its connection breaks. -/
def Takes (s : KxSystem suite) : KxEvent → Prop
  | .relayReceive connId _ => (pop connId s.up).isSome
  | .lost connId => (∃ ct, (connId, ct) ∈ s.up) ∨ ∃ ct sender, (connId, .kxFrame ct sender) ∈ s.down
  | .daemonReceive _ => ∃ connId ct sender rest, s.daemon.socket = some connId ∧
      pop connId s.down = some (.kxFrame ct sender, rest)
  | .appReceive frontendId connId _ _ => s.owner.lookup connId = some (.app frontendId) ∧
      ∃ ct sender rest, pop connId s.down = some (.kxFrame ct sender, rest)
  | _ => False

/-- Counts the key-exchange frames among the messages to clients. -/
def frameWeight (_ : ConnId) : KxDown → ℕ
  | .authOk _ => 0
  | .kxFrame _ _ => 1

/-- A step without a message shortens the envelopes, or keeps their number
and does not add frames; one that takes a message makes progress. -/
theorem kxStep_flight (config : DaemonConfig suite) (s : KxSystem suite) (e : KxEvent)
    (hsilent : sendsIn (kxStepMarks config s e).2 = 0) :
    (kxStep config s e).up.length ≤ s.up.length ∧
      ((kxStep config s e).up.length = s.up.length →
        totalWeight frameWeight (kxStep config s e).down ≤ totalWeight frameWeight s.down ∧
        (Takes s e →
          totalWeight frameWeight (kxStep config s e).down < totalWeight frameWeight s.down)) := by
  have hidle : ∀ {up : Queues ConnId String} {down : Queues ConnId KxDown} {p q : Prop}, ¬p →
      up.length ≤ up.length ∧ (q →
        totalWeight frameWeight down ≤ totalWeight frameWeight down ∧
        (p → totalWeight frameWeight down < totalWeight frameWeight down)) := fun hp =>
    ⟨le_rfl, fun _ => ⟨le_rfl, fun h => absurd h hp⟩⟩
  unfold kxStep at *
  cases e with
  | daemonConnect => exact hidle id
  | daemonRestart => exact hidle id
  | appConnect frontendId =>
    simp only [kxStepMarks]
    split <;> exact hidle id
  | appDisconnect frontendId => exact hidle id
  | appReceiveFailure frontendId => exact hidle id
  | relayAuth connId resumed =>
    simp only [kxStepMarks]
    split
    · exact hidle id
    · simp only [totalWeight_append, totalWeight_singleton, frameWeight, Nat.add_zero]
      exact hidle id
  | relayReceive connId admitted =>
    simp only [kxStepMarks, Takes]
    split
    · next hpop => exact hidle (by simp [hpop])
    · next ct rest hpop =>
      have hlen : s.up.length = rest.length + 1 := by
        obtain ⟨before, after, hup, hrest, -⟩ := pop_eq_some hpop
        rw [hup, hrest, List.length_append, List.length_append, List.length_cons]
        omega
      dsimp only
      omega
  | relayClose connId now => exact hidle id
  | lost connId =>
    simp only [kxStepMarks, Takes]
    have hdown := totalWeight_lose_le frameWeight connId s.down
    refine ⟨List.length_filter_le _ _, fun hlen => ⟨hdown, ?_⟩⟩
    rintro (⟨ct, hct⟩ | ⟨ct, sender, hframe⟩)
    · have hkept := List.length_filter_eq_length_iff.mp hlen _ hct
      simp at hkept
    · exact totalWeight_lose_lt frameWeight hframe Nat.one_pos
  | daemonReceive nonce =>
    cases hpop : s.daemon.socket.bind fun connId => pop connId s.down with
    | none =>
      simp only [kxStepMarks, hpop, Takes]
      refine hidle ?_
      rintro ⟨connId, ct, sender, rest, hsocket, hframe⟩
      rw [hsocket, Option.bind_some, hframe] at hpop
      cases hpop
    | some taken =>
      obtain ⟨msg, rest⟩ := taken
      simp only [kxStepMarks, hpop, Takes] at hsilent ⊢
      obtain ⟨connId, hsocket, hpop⟩ := Option.bind_eq_some_iff.mp hpop
      have hweight := totalWeight_pop frameWeight hpop
      rw [sendsIn_daemonHandle, List.length_eq_zero_iff, Option.toList_eq_nil_iff] at hsilent
      simp only [hsilent, sendUp_none]
      refine ⟨le_rfl, fun _ => ⟨by omega, ?_⟩⟩
      rintro ⟨connId', ct, sender, rest', hsocket', hframe⟩
      cases hsocket.symm.trans hsocket'
      cases hpop.symm.trans hframe
      rw [hweight]
      exact Nat.lt_succ_self _
  | appReceive frontendId connId seed nonce =>
    by_cases howner : s.owner.lookup connId = some (.app frontendId)
    · cases hpop : pop connId s.down with
      | none =>
        simp only [kxStepMarks, if_pos howner, hpop, Takes]
        refine hidle ?_
        rintro ⟨-, ct, sender, rest, hframe⟩
        cases hframe
      | some taken =>
        obtain ⟨msg, rest⟩ := taken
        simp only [kxStepMarks, if_pos howner, hpop, Takes] at hsilent ⊢
        have hweight := totalWeight_pop frameWeight hpop
        rw [sendsIn_appHandle, List.length_eq_zero_iff, Option.toList_eq_nil_iff] at hsilent
        simp only [hsilent, sendUp_none, KxSystem.setApp]
        refine ⟨le_rfl, fun _ => ⟨by omega, ?_⟩⟩
        rintro ⟨-, ct, sender, rest', hframe⟩
        cases hframe
        rw [hweight]
        exact Nat.lt_succ_self _
    · simp only [kxStepMarks, if_neg howner, Takes]
      exact hidle fun h => howner h.1

end Flight

section Schedules

variable (config : DaemonConfig suite) (schedule : ℕ → KxEvent)

/-- The state that the event of an instant meets. -/
def kxAt (n : ℕ) : KxSystem suite := stateAt (kxStep config) (KxSystem.initial suite) schedule n

/-- A key-exchange message is sent at the instant. -/
def SendsAt (n : ℕ) : Prop :=
  sendsIn (kxStepMarks config (kxAt config schedule n) (schedule n)).2 ≠ 0

/-- A keyed app takes a daemon key at the instant. -/
def RekeysAt (n : ℕ) : Prop := Rekeys config.toPairing (kxAt config schedule n) (schedule n)

/-- While a key-exchange message is under way, one is eventually taken off
the wire. -/
def Progresses : Prop :=
  ∀ n, ¬NoneInFlight (kxAt config schedule n) →
    ∃ later, n ≤ later ∧ Takes (kxAt config schedule later) (schedule later)

/-- Channels are sound at every instant. -/
theorem kxAt_sound (n : ℕ) :
    ChannelsSound config (kxAt config schedule n) ∧ DownOwned (kxAt config schedule n) := by
  induction n with
  | zero => exact ⟨initial_sound.channels, nofun⟩
  | succ n ih => exact ⟨kxStep_channels ih.1 (schedule n), kxStep_downOwned ih.1 ih.2 (schedule n)⟩

variable {config schedule}

/-- A second key is a message. -/
theorem rekeys_sends {s : KxSystem suite} {e : KxEvent} (h : Rekeys config.toPairing s e) :
    sendsIn (kxStepMarks config s e).2 ≠ 0 := by
  cases e with
  | appReceive frontendId connId seed nonce =>
    obtain ⟨howner, hkeys, ct, sender, rest, hpop, haccept⟩ := h
    have hcost := appHandle_cost config.toPairing frontendId (s.app frontendId) seed nonce
      (.kxFrame ct sender)
    simp only [hkeys, haccept, Bool.and_self] at hcost
    obtain ⟨sent, hsent⟩ := Option.isSome_iff_exists.mp hcost
    simp only [kxStepMarks, if_pos howner, hpop, sendsIn_appHandle, hsent]
    exact Nat.one_ne_zero
  | _ => cases h

/-- Without further connects and second keys the messages run out. -/
theorem finitelyOften_sends (hconnects : FinitelyOften fun n => isConnect (schedule n))
    (hrekeys : FinitelyOften (RekeysAt config schedule)) :
    FinitelyOften (SendsAt config schedule) := by
  obtain ⟨start, hcalm⟩ := hconnects.or hrekeys
  refine finitelyOften_of_potential (fun n => pending (kxAt config schedule n))
    (fun n => sendsIn (kxStepMarks config (kxAt config schedule n) (schedule n)).2) start
    fun n hn => ?_
  obtain ⟨hconnect, hrekey⟩ := not_or.mp (hcalm n hn)
  obtain ⟨hs, hd⟩ := kxAt_sound config schedule n
  have hstep := kxStep_pending hs hd (schedule n) hrekey
  have hcredit : authCredit (kxAt config schedule n) (schedule n) = 0 := by
    cases he : schedule n with
    | relayAuth connId resumed => exact absurd (by rw [he]; rfl) hconnect
    | _ => rfl
  rw [hcredit, Nat.add_zero] at hstep
  exact hstep

/-- Once no message is sent any more, progress empties the wire. -/
theorem comes_to_rest (hsends : FinitelyOften (SendsAt config schedule))
    (hprogress : Progresses config schedule) :
    FinitelyOften fun n => ¬NoneInFlight (kxAt config schedule n) := by
  obtain ⟨silent, hsilent⟩ := hsends
  have hstep : ∀ n, silent ≤ n → _ := fun n hn =>
    kxStep_flight config (kxAt config schedule n) (schedule n) (not_not.mp (hsilent n hn))
  obtain ⟨first, hfirst, hupMin⟩ :=
    exists_smallest_from (fun n => (kxAt config schedule n).up.length) silent
  have hup : ∀ n, first ≤ n →
      (kxAt config schedule n).up.length = (kxAt config schedule first).up.length := by
    intro n hn
    induction n, hn using Nat.le_induction with
    | base => rfl
    | succ n hn ih =>
      have hle := (hstep n (by omega)).1
      have hge := hupMin (n + 1) (by omega)
      exact le_antisymm (hle.trans (le_of_eq ih)) hge
  have hframes : ∀ n, first ≤ n →
      totalWeight frameWeight (kxAt config schedule (n + 1)).down ≤
          totalWeight frameWeight (kxAt config schedule n).down ∧
        (Takes (kxAt config schedule n) (schedule n) →
          totalWeight frameWeight (kxAt config schedule (n + 1)).down <
            totalWeight frameWeight (kxAt config schedule n).down) := fun n hn =>
    (hstep n (by omega)).2 ((hup (n + 1) (by omega)).trans (hup n hn).symm)
  obtain ⟨second, hsecond, hdownMin⟩ := exists_smallest_from
    (fun n => totalWeight frameWeight (kxAt config schedule n).down) first
  have hdown : ∀ n, second ≤ n → totalWeight frameWeight (kxAt config schedule n).down ≤
      totalWeight frameWeight (kxAt config schedule second).down := by
    intro n hn
    induction n, hn using Nat.le_induction with
    | base => exact le_rfl
    | succ n hn ih => exact (hframes n (by omega)).1.trans ih
  refine ⟨second, fun n hn hflight => ?_⟩
  obtain ⟨later, hlater, htakes⟩ := hprogress n hflight
  have hless := (hframes later (by omega)).2 htakes
  have hmin := hdownMin (later + 1) (by omega)
  have hmax := hdown later (by omega)
  exact absurd (hless.trans_le hmax) (Nat.not_lt.mpr hmin)

/-- With finitely many connects, the exchange sends finitely many messages
exactly when keyed apps take a daemon key finitely often. Then, as long as
messages in flight keep being taken, it reaches a state with none in flight. -/
theorem kx_quiescent (config : DaemonConfig suite) (schedule : ℕ → KxEvent)
    (hconnects : FinitelyOften fun n => isConnect (schedule n)) :
    (FinitelyOften (SendsAt config schedule) ↔ FinitelyOften (RekeysAt config schedule)) ∧
    (Progresses config schedule → FinitelyOften (RekeysAt config schedule) →
      FinitelyOften fun n => ¬NoneInFlight (kxAt config schedule n)) := by
  refine ⟨⟨?_, finitelyOften_sends hconnects⟩, fun hprogress hrekeys =>
    comes_to_rest (finitelyOften_sends hconnects hrekeys) hprogress⟩
  rintro ⟨start, hsilent⟩
  exact ⟨start, fun n hn hrekey => hsilent n hn (rekeys_sends hrekey)⟩

/-- A schedule that stops after the sample exchange sends finitely often. -/
theorem kx_quiescent_sample :
    FinitelyOften (SendsAt sampleConfig (followedBy sampleEvents fun _ => .lost 3)) := by
  have htail : ∀ n, sampleEvents.length ≤ n →
      followedBy sampleEvents (fun _ => .lost 3) n = .lost 3 := by
    intro n hn
    obtain ⟨k, rfl⟩ := Nat.exists_eq_add_of_le hn
    exact followedBy_length_add sampleEvents _ k
  refine (kx_quiescent sampleConfig _ ⟨sampleEvents.length, fun n hn => ?_⟩).1.mpr
    ⟨sampleEvents.length, fun n hn => ?_⟩
  · dsimp only
    rw [htail n hn]
    exact Bool.false_ne_true
  · rw [RekeysAt, htail n hn]
    exact id

end Schedules

section Endless

/-- Two connected clients with one daemon key under way to a keyed app. -/
structure Looping (config : DaemonConfig suite) (frontendId : String) (s : KxSystem suite) :
    Prop where
  /-- The daemon's key is on its way to the relay. -/
  up : ∃ ct, s.up = [(1, ct)] ∧ Envelope config .daemon ct
  /-- Nothing else is in flight. -/
  down : s.down = []
  /-- The second connection is the app's. -/
  owner : s.owner.lookup 2 = some (.app frontendId)
  /-- The daemon reads the first connection. -/
  socket : s.daemon.socket = some 1
  /-- The daemon has its envelope key. -/
  kxKey : s.daemon.kxKey = some (deriveKxKey suite config.pairingSecret)
  /-- The app writes to the second connection. -/
  task : (s.app frontendId).task = some 2
  /-- The app has a key pair. -/
  keyPair : (s.app frontendId).kxKeyPair.isSome
  /-- The app has session keys. -/
  keyed : (s.app frontendId).sessionKeys.isSome
  /-- The relay knows the first connection as the daemon. -/
  daemonAuth : ∃ auth, s.relay.authedState 1 = some auth ∧ auth.role = .daemon ∧
    auth.daemonId = config.daemonId
  /-- The relay knows the second connection as a frontend. -/
  appAuth : ∃ auth, s.relay.authedState 2 = some auth ∧ auth.role = .frontend ∧
    auth.daemonId = config.daemonId
  /-- The group has these two connections. -/
  group : s.relay.groupMembers config.daemonId = [2, 1]

/-- One round: the daemon's key reaches the app, the app's new key reaches
the daemon, and the daemon answers. -/
def loopRound (frontendId : String) (seed : Key) (daemonNonce appNonce : Nonce) : List KxEvent :=
  [.relayReceive 1 true, .appReceive frontendId 2 seed appNonce, .relayReceive 2 true,
    .daemonReceive daemonNonce]

variable {config : DaemonConfig suite} {frontendId : String}

/-- The relay forwards between the two connections. -/
theorem Looping.forward {s : KxSystem suite} (h : Looping config frontendId s) (ct : String) :
    relayForward s.relay 1 true ct = [(2, .kxFrame ct .daemon)] ∧
      relayForward s.relay 2 true ct = [(1, .kxFrame ct .frontend)] := by
  obtain ⟨daemon, hdaemon, hdrole, hdid⟩ := h.daemonAuth
  obtain ⟨app, happ, harole, haid⟩ := h.appAuth
  constructor
  · simp [relayForward, hdaemon, routeKeyExchange, RelayCore.peersWhere, hdid, h.group, happ,
      hdrole, harole, kxDeliveries]
  · simp [relayForward, happ, routeKeyExchange, RelayCore.peersWhere, haid, h.group, hdaemon,
      hdrole, harole, kxDeliveries]

/-- A keyed app answers a daemon key with a new key and stays keyed. -/
theorem appHandle_again (frontendId : String) (laws : suite.Lawful) {client : AppClient suite} {ct : String}
    (henv : Envelope config .daemon ct) (hkp : client.kxKeyPair.isSome)
    (hkeys : client.sessionKeys.isSome) (seed : Key) (nonce : Nonce) :
    (appHandle config.toPairing frontendId client seed nonce (.kxFrame ct .daemon)).2.1.isSome ∧
    (appHandle config.toPairing frontendId client seed nonce
      (.kxFrame ct .daemon)).1.kxKeyPair.isSome ∧
    (appHandle config.toPairing frontendId client seed nonce
      (.kxFrame ct .daemon)).1.sessionKeys.isSome := by
  obtain ⟨nonce', rfl⟩ := henv
  obtain ⟨keyPair, hkeyPair⟩ := Option.isSome_iff_exists.mp hkp
  have haccept : acceptDaemonKx config.toPairing client .daemon
      (sealBlob suite (suite.encodeKx (daemonPayload config))
        (deriveKxKey suite config.pairingSecret) nonce') =
      some (keyPair, config.keyPair.publicKey, 3) := by
    rw [acceptDaemonKx, if_neg (fun h => h rfl), hkeyPair, Option.bind_some,
      readDaemonKx_seal laws, Option.map_some]
  simp only [appHandle, onKeyExchangeFrame, haccept, hkeys]
  exact ⟨rfl, rfl, rfl⟩

/-- The daemon answers the key of a named frontend. -/
theorem daemonHandle_answers (laws : suite.Lawful) (hid : frontendId ≠ "") {client : DaemonClient}
    (hkey : client.kxKey = some (deriveKxKey suite config.pairingSecret)) {ct : String}
    (henv : Envelope config (.app frontendId) ct) (nonce : Nonce) :
    (daemonHandle config client nonce (.kxFrame ct .frontend)).2.1.isSome := by
  obtain ⟨publicKey, nonce', rfl⟩ := henv
  have hpk : suite.toBase64 publicKey.bytes ≠ "" := by
    refine laws.base64_nonempty _ fun hempty => ?_
    have hsize := publicKey.size
    rw [hempty] at hsize
    cases hsize
  have haccept : acceptPayload suite (appPayload suite frontendId publicKey) =
      some (frontendId, publicKey) := by
    simp only [acceptPayload, appPayload, laws.base64_round_trip, Option.bind_some,
      FixedBytes.ofBytes_bytes, Option.map_some]
    exact if_neg (not_or.mpr ⟨hpk, hid⟩)
  have hread : readKxFrame suite client .frontend
      (sealBlob suite (suite.encodeKx (appPayload suite frontendId publicKey))
        (deriveKxKey suite config.pairingSecret) nonce') =
      some (appPayload suite frontendId publicKey, frontendId, publicKey) := by
    rw [readKxFrame, if_neg (fun h => h rfl), hkey, Option.bind_some, openBlob_sealBlob laws,
      Option.bind_some, laws.kx_round_trip, Option.bind_some, haccept, Option.map_some]
  simp only [daemonHandle, handleKxFrame, hread, broadcastDaemonPublicKey, hkey]
  rfl

/-- A round ends where it began, with the app's second key in its middle. -/
theorem Looping.round (laws : suite.Lawful) (hid : frontendId ≠ "") {s : KxSystem suite}
    (h : Looping config frontendId s) (seed : Key) (daemonNonce appNonce : Nonce) :
    Looping config frontendId
      (runFrom (kxStep config) s (loopRound frontendId seed daemonNonce appNonce)) ∧
    Rekeys config.toPairing (kxStep config s (.relayReceive 1 true))
      (.appReceive frontendId 2 seed appNonce) := by
  obtain ⟨ct, hup, henv⟩ := h.up
  obtain ⟨hsent, hkp, hkeyed⟩ := appHandle_again frontendId laws henv h.keyPair h.keyed seed
    appNonce
  obtain ⟨appCt, happCt⟩ := Option.isSome_iff_exists.mp hsent
  obtain ⟨daemonCt, hdaemonCt⟩ := Option.isSome_iff_exists.mp
    (daemonHandle_answers laws hid h.kxKey (appHandle_envelope happCt) daemonNonce)
  have hdaemonEnv := daemonHandle_envelope (fun key hk => by
    rw [h.kxKey] at hk
    exact (Option.some_inj.mp hk).symm) hdaemonCt
  obtain ⟨hsocket, hkxKey⟩ := daemonHandle_frame config s.daemon daemonNonce
    (.kxFrame appCt .frontend)
  have hfirst : kxStep config s (.relayReceive 1 true) =
      { s with up := [], down := [(2, .kxFrame ct .daemon)] } := by
    simp [kxStep, kxStepMarks, hup, h.down, pop, (h.forward ct).1]
  have hsecond : kxStep config { s with up := [], down := [(2, .kxFrame ct .daemon)] }
      (.appReceive frontendId 2 seed appNonce) =
      ({ s with up := [(2, appCt)], down := [] }.setApp frontendId
        (appHandle config.toPairing frontendId (s.app frontendId) seed appNonce
          (.kxFrame ct .daemon)).1) := by
    have htask := h.task
    simp only [KxSystem.app] at happCt htask
    simp [kxStep, kxStepMarks, h.owner, pop, KxSystem.app, happCt, htask, KxSystem.sendUp,
      KxSystem.setApp]
  have hthird : kxStep config ({ s with up := [(2, appCt)], down := [] }.setApp frontendId
        (appHandle config.toPairing frontendId (s.app frontendId) seed appNonce
          (.kxFrame ct .daemon)).1) (.relayReceive 2 true) =
      ({ s with up := [], down := [(1, .kxFrame appCt .frontend)] }.setApp frontendId
        (appHandle config.toPairing frontendId (s.app frontendId) seed appNonce
          (.kxFrame ct .daemon)).1) := by
    simp [kxStep, kxStepMarks, KxSystem.setApp, pop, (h.forward appCt).2]
  have hfourth : kxStep config ({ s with up := [], down := [(1, .kxFrame appCt .frontend)] }.setApp
        frontendId (appHandle config.toPairing frontendId (s.app frontendId) seed appNonce
          (.kxFrame ct .daemon)).1) (.daemonReceive daemonNonce) =
      ({ s with
        up := [(1, daemonCt)]
        down := []
        daemon := (daemonHandle config s.daemon daemonNonce (.kxFrame appCt .frontend)).1 }.setApp
        frontendId (appHandle config.toPairing frontendId (s.app frontendId) seed appNonce
          (.kxFrame ct .daemon)).1) := by
    simp [kxStep, kxStepMarks, KxSystem.setApp, pop, h.socket, KxSystem.sendUp, hdaemonCt]
  constructor
  · simp only [loopRound, runFrom_cons, runFrom_nil, hfirst, hsecond, hthird, hfourth]
    exact {
      up := ⟨daemonCt, rfl, hdaemonEnv⟩
      down := rfl
      owner := h.owner
      socket := hsocket.trans h.socket
      kxKey := hkxKey.trans h.kxKey
      task := by rw [app_setApp, if_pos rfl, appHandle_task, h.task]
      keyPair := by rw [app_setApp, if_pos rfl, hkp]
      keyed := by rw [app_setApp, if_pos rfl, hkeyed]
      daemonAuth := h.daemonAuth
      appAuth := h.appAuth
      group := h.group }
  · rw [hfirst]
    refine ⟨h.owner, h.keyed, ct, .daemon, [], rfl, ?_⟩
    have hcost := appHandle_cost config.toPairing frontendId (s.app frontendId) seed appNonce
      (.kxFrame ct .daemon)
    rw [hsent] at hcost
    exact ((Bool.and_eq_true _ _).mp hcost.symm).2

/-- Rounds without end; each draws its own seed and nonces. -/
def loopEvent (frontendId : String) (draw : ℕ → Key × Nonce × Nonce) (n : ℕ) : KxEvent :=
  match n % 4 with
  | 0 => .relayReceive 1 true
  | 1 => .appReceive frontendId 2 (draw (n / 4)).1 (draw (n / 4)).2.2
  | 2 => .relayReceive 2 true
  | _ => .daemonReceive (draw (n / 4)).2.1

/-- Four events of the endless schedule are one round. -/
theorem loopEvent_round (frontendId : String) (draw : ℕ → Key × Nonce × Nonce) (k : ℕ) :
    [loopEvent frontendId draw (4 * k), loopEvent frontendId draw (4 * k + 1),
      loopEvent frontendId draw (4 * k + 2), loopEvent frontendId draw (4 * k + 3)] =
    loopRound frontendId (draw k).1 (draw k).2.1 (draw k).2.2 := by
  have hdiv : (4 * k + 1) / 4 = k ∧ (4 * k + 3) / 4 = k := by omega
  simp only [loopEvent, loopRound, Nat.mul_mod_right, Nat.mul_add_mod, Nat.reduceMod, hdiv]

/-- Every round of the endless schedule starts with a daemon key under way. -/
theorem Looping.stateAt (laws : suite.Lawful) (hid : frontendId ≠ "") {s : KxSystem suite}
    (h : Looping config frontendId s) (draw : ℕ → Key × Nonce × Nonce) (k : ℕ) :
    Looping config frontendId
      (StepRuns.stateAt (kxStep config) s (loopEvent frontendId draw) (4 * k)) := by
  induction k with
  | zero => exact h
  | succ k ih =>
    have hround := (ih.round laws hid (draw k).1 (draw k).2.1 (draw k).2.2).1
    rw [← loopEvent_round frontendId draw k] at hround
    exact hround

/-- Every round of the endless schedule has a second key. -/
theorem Looping.rekeys (laws : suite.Lawful) (hid : frontendId ≠ "") {s : KxSystem suite}
    (h : Looping config frontendId s) (draw : ℕ → Key × Nonce × Nonce) (k : ℕ) :
    Rekeys config.toPairing
      (StepRuns.stateAt (kxStep config) s (loopEvent frontendId draw) (4 * k + 1))
      (loopEvent frontendId draw (4 * k + 1)) := by
  have hround := ((h.stateAt laws hid draw k).round laws hid (draw k).1 (draw k).2.1
    (draw k).2.2).2
  have hevents := loopEvent_round frontendId draw k
  simp only [loopRound, List.cons.injEq] at hevents
  rw [StepRuns.stateAt, hevents.1, hevents.2.1]
  exact hround

/-- The state after the sample exchange. -/
def sampleState : KxSystem sampleSuite :=
  runFrom (kxStep sampleConfig) (KxSystem.initial sampleSuite) sampleEvents

/-- The sample exchange leaves the daemon's second key under way. -/
theorem sample_looping : Looping sampleConfig "f" sampleState := by
  have hstate : sampleState.up = [(1, sampleDaemonBlob)] ∧ sampleState.down = [] ∧
      sampleState.owner.lookup 2 = some (.app "f") ∧ sampleState.daemon.socket = some 1 ∧
      sampleState.daemon.kxKey = some sampleKxKey ∧ (sampleState.app "f").task = some 2 ∧
      (sampleState.app "f").kxKeyPair.isSome ∧ (sampleState.app "f").sessionKeys.isSome ∧
      (sampleState.relay.authedState 1).map (fun auth => (auth.role, auth.daemonId)) =
        some (.daemon, "daemon-1") ∧
      (sampleState.relay.authedState 2).map (fun auth => (auth.role, auth.daemonId)) =
        some (.frontend, "daemon-1") ∧
      sampleState.relay.groupMembers "daemon-1" = [2, 1] := by
    decide +kernel
  obtain ⟨hup, hdown, howner, hsocket, hkey, htask, hkp, hkeyed, hdaemon, happ, hgroup⟩ := hstate
  have hauth : ∀ {connId : ConnId} {role : Role},
      (sampleState.relay.authedState connId).map (fun auth => (auth.role, auth.daemonId)) =
        some (role, "daemon-1") →
      ∃ auth, sampleState.relay.authedState connId = some auth ∧ auth.role = role ∧
        auth.daemonId = sampleConfig.daemonId := by
    intro connId role hmap
    obtain ⟨auth, hlookup, heq⟩ := Option.map_eq_some_iff.mp hmap
    exact ⟨auth, hlookup, congrArg Prod.fst heq, congrArg Prod.snd heq⟩
  exact {
    up := ⟨sampleDaemonBlob, hup, sampleDaemonNonce, by decide +kernel⟩
    down := hdown
    owner := howner
    socket := hsocket
    kxKey := hkey.trans (by decide +kernel)
    task := htask
    keyPair := hkp
    keyed := hkeyed
    daemonAuth := hauth hdaemon
    appAuth := hauth happ
    group := hgroup }

/-- After the sample exchange the two clients answer each other for ever. -/
theorem kx_quiescent_endless :
    ¬∀ (suite : CryptoSuite) (config : DaemonConfig suite) (schedule : ℕ → KxEvent),
      suite.Lawful → (FinitelyOften fun n => isConnect (schedule n)) →
        FinitelyOften (SendsAt config schedule) := by
  intro hclaim
  obtain ⟨start, hsilent⟩ := hclaim sampleSuite sampleConfig
    (followedBy sampleEvents (loopEvent "f" fun _ =>
      (sampleSeed, sampleDaemonNonce, sampleAppNonce))) sampleSuite_lawful (by
    refine ⟨sampleEvents.length, fun n hn => ?_⟩
    obtain ⟨k, rfl⟩ := Nat.exists_eq_add_of_le hn
    dsimp only
    rw [followedBy_length_add, loopEvent]
    split <;> exact Bool.false_ne_true)
  refine hsilent (sampleEvents.length + (4 * start + 1)) (by omega) ?_
  rw [SendsAt, kxAt, stateAt_followedBy, followedBy_length_add]
  exact rekeys_sends (sample_looping.rekeys sampleSuite_lawful (by decide) _ start)

end Endless

end Teleprompter.KeyQuiescence
