import Teleprompter.RelayEffects

/-!
# Presence of a daemon across reconnects

A watched relay also records the clock, the time of the last admitted auth,
ping or publish of each connection, and the presence last sent to each
connection about each daemon. Presence is truthful when a daemon with a live
daemon connection that showed traffic within the stale timeout is online in
the registry, and the last presence its frontends were sent says so. The
online flag is one bit per daemon, cleared by every daemon close and set by
an auth only; the main result says exactly which steps make presence false.
-/

namespace Teleprompter.RelayPresence

open FiniteDictionary StepRuns RelayServer RelayRegistry RelayRegistrySound RelayConn RelayEffects

/-- A relay with the observations that presence is about. -/
structure WatchedRelay where
  /-- The relay process. -/
  relay : RelayState
  /-- Time of the latest event. -/
  clock : ℕ
  /-- Time of the last daemon-role auth, ping or publish per connection. -/
  traffic : ConnId → ℕ
  /-- Online flag of the presence last sent to a connection about a daemon. -/
  presence : ConnId → String → Option Bool

/-- The time an event carries. -/
def eventTime : RelayEvent → Option ℕ
  | .accept => none
  | .inbound _ _ _ _ now => some now
  | .teardown _ now => some now
  | .forceClose _ now => some now
  | .sweep now => some now

/-- Record one sent action. -/
def notePresence (seen : ConnId → String → Option Bool) : Action → ConnId → String → Option Bool
  | .send target (.presence daemonId online _ _) => fun c d =>
    if c = target ∧ d = daemonId then some online else seen c d
  | _ => seen

/-- The connection and time of the daemon traffic an operation carries. -/
def trafficOf : CoreOp → Option (ConnId × ℕ)
  | .join connId auth _ now => if auth.role = .daemon then some (connId, now) else none
  | .publish connId client _ _ _ now => if client.role = .daemon then some (connId, now) else none
  | .ping connId client now => if client.role = .daemon then some (connId, now) else none
  | _ => none

/-- One event of the relay, observed. -/
def watchStep (env : RelayEnv) (w : WatchedRelay) (e : RelayEvent) : WatchedRelay :=
  let stepped := relayStepActions env w.relay e
  { relay := stepped.1
    clock := (eventTime e).getD w.clock
    traffic := fun c =>
      match trafficOf (effectOf env w.relay e) with
      | some (connId, now) => if c = connId then now else w.traffic c
      | none => w.traffic c
    presence := stepped.2.foldl notePresence w.presence }

/-- A watched relay at start. -/
def WatchedRelay.initial (env : RelayEnv) : WatchedRelay :=
  ⟨RelayState.initial env, 0, fun _ => 0, fun _ _ => none⟩

/-- The connection is live and authenticated in this role for the daemon. -/
def HasRole (core : RelayCore) (role : Role) (c : ConnId) (daemonId : String) : Prop :=
  ∃ auth, core.authedState c = some auth ∧ auth.role = role ∧ auth.daemonId = daemonId

/-- The registry reports the daemon online. -/
def OnlineIn (r : Registry) (daemonId : String) : Prop :=
  ∃ state, r.daemonStates.lookup daemonId = some state ∧ state.online = true

/-- The connection showed traffic within the stale timeout. -/
def Recent (env : RelayEnv) (w : WatchedRelay) (now : ℕ) (c : ConnId) : Prop :=
  now - w.traffic c ≤ env.staleTimeoutMs

/-- Daemons with a recently active daemon connection are online, and their
frontends were last told so. -/
def PresenceTruthful (env : RelayEnv) (w : WatchedRelay) : Prop :=
  ∀ daemonId c, HasRole w.relay.core .daemon c daemonId → Recent env w w.clock c →
    OnlineIn w.relay.core.registry daemonId ∧
      ∀ f, HasRole w.relay.core .frontend f daemonId → w.presence f daemonId = some true

/-- The clock does not run backwards. -/
def ClockForward (w : WatchedRelay) (e : RelayEvent) : Prop :=
  ∀ now, eventTime e = some now → w.clock ≤ now

/-- The steps that keep presence truthful: a daemon connection closes while no
other recently active connection of its daemon is live; daemon traffic is
handled while the registry has the daemon online. -/
def KeepsPresence (env : RelayEnv) (w : WatchedRelay) (e : RelayEvent) : Prop :=
  match effectOf env w.relay e with
  | .close connId now =>
    ∀ daemonId, HasRole w.relay.core .daemon connId daemonId →
      ∀ c, c ≠ connId → HasRole w.relay.core .daemon c daemonId → ¬Recent env w now c
  | .ping _ client _ => client.role = .daemon → OnlineIn w.relay.core.registry client.daemonId
  | .publish _ client _ _ _ _ =>
    client.role = .daemon → OnlineIn w.relay.core.registry client.daemonId
  | _ => True

/-- Online flag and last traffic time of a daemon, when it has a state. -/
def statusOf (r : Registry) (daemonId : String) : Option (Bool × ℕ) :=
  (r.daemonStates.lookup daemonId).map fun state => (state.online, state.lastSeen)

/-- Being online in terms of the status. -/
theorem onlineIn_iff (r : Registry) (daemonId : String) :
    OnlineIn r daemonId ↔ ∃ seen, statusOf r daemonId = some (true, seen) := by
  unfold OnlineIn statusOf
  constructor
  · rintro ⟨state, hs, hon⟩
    exact ⟨state.lastSeen, by rw [hs, Option.map_some, hon]⟩
  · rintro ⟨seen, h⟩
    obtain ⟨state, hs, heq⟩ := Option.map_eq_some_iff.mp h
    exact ⟨state, hs, (Prod.mk.injEq .. ▸ heq).1⟩

/-- Status after an in-place change of one state. -/
theorem statusOf_alterState (r : Registry) (daemonId d : String) (f : DaemonState → DaemonState)
    (g : Bool × ℕ → Bool × ℕ)
    (hf : ∀ state, ((f state).online, (f state).lastSeen) = g (state.online, state.lastSeen)) :
    statusOf (r.alterState daemonId f) d =
      if d = daemonId then (statusOf r d).map g else statusOf r d := by
  simp only [statusOf, Registry.alterState, lookup_alterKey]
  split
  · rw [Option.map_map, Option.map_map]
    congr 1
    funext state
    exact hf state
  · rfl

/-- In-place changes that keep the online flag and the last traffic time. -/
theorem statusOf_alterState_same (r : Registry) (daemonId d : String)
    {f : DaemonState → DaemonState}
    (hf : ∀ state, (f state).online = state.online ∧ (f state).lastSeen = state.lastSeen) :
    statusOf (r.alterState daemonId f) d = statusOf r d := by
  rw [statusOf_alterState r daemonId d f id fun state => by rw [(hf state).1, (hf state).2]; rfl]
  split
  · exact Option.map_id_apply
  · rfl

/-- Releasing a list of subscriptions keeps the online flag and the last traffic time. -/
theorem detachAll_status (sids : List String) (state : DaemonState) :
    (sids.foldl (fun st sid => st.detach sid) state).online = state.online ∧
      (sids.foldl (fun st sid => st.detach sid) state).lastSeen = state.lastSeen := by
  induction sids generalizing state with
  | nil => exact ⟨rfl, rfl⟩
  | cons sid sids ih =>
    have hone : (state.detach sid).online = state.online ∧
        (state.detach sid).lastSeen = state.lastSeen := by
      unfold DaemonState.detach
      split
      · exact ⟨rfl, rfl⟩
      · split <;> exact ⟨rfl, rfl⟩
    rw [List.foldl_cons, (ih _).1, (ih _).2]
    exact hone

/-- Status after an accepted registration: an absent state starts offline. -/
theorem statusOf_register (r : Registry) (daemonId token proof : String) (now : ℕ) (d : String) :
    statusOf ((r.dropStaleToken daemonId token).recordRegistration daemonId token proof now) d =
      if d = daemonId then some ((statusOf r d).getD (false, now)) else statusOf r d := by
  have hdrop : ∀ y, statusOf (r.dropStaleToken daemonId token) y = statusOf r y := by
    intro y
    unfold Registry.dropStaleToken
    split
    · rfl
    · split
      · rfl
      · exact statusOf_alterState_same r daemonId y
          (f := fun state => { state with registrationToken := some token }) fun _ => ⟨rfl, rfl⟩
  rw [← hdrop d]
  simp only [statusOf, Registry.recordRegistration, lookup_alterKey, lookup_orInsert]
  split
  · next hd =>
    rw [hd, Option.map_some, Option.map_some]
    cases (r.dropStaleToken daemonId token).daemonStates.lookup daemonId <;> rfl
  · rfl

/-- Status after an accepted auth of a sound registry: a daemon goes online. -/
theorem statusOf_join {r : Registry} (h : Sound r) {auth : AuthState} {token : Option String}
    (ha : JoinAccepted r auth token) (now : ℕ) (d : String) :
    statusOf (r.commit (joinCall r auth token now)) d =
      if d = auth.daemonId ∧ auth.role = .daemon then some (true, now) else statusOf r d := by
  have hupsert : auth.daemonId ∈ r.registrations → ∀ regToken,
      statusOf (r.upsertDaemonState auth.daemonId (auth.role = .daemon) regToken now) d =
        if d = auth.daemonId ∧ auth.role = .daemon then some (true, now) else statusOf r d := by
    intro hreg regToken
    obtain ⟨state, hs⟩ := mem_iff_lookup.mp (h.mem_states_iff.mpr hreg)
    have hseed : orInsert auth.daemonId (DaemonState.seedOffline now) r.daemonStates =
        r.daemonStates := if_pos (h.mem_states_iff.mpr hreg)
    unfold Registry.upsertDaemonState
    simp only [hseed]
    by_cases hrole : auth.role = .daemon
    · simp only [hrole, decide_true, if_true, and_true]
      refine (statusOf_alterState r auth.daemonId d (DaemonState.connect regToken now)
        (fun _ => (true, now)) fun _ => rfl).trans ?_
      by_cases hd : d = auth.daemonId
      · rw [if_pos hd, if_pos hd, hd, statusOf, hs]
        rfl
      · rw [if_neg hd, if_neg hd]
    · simp [hrole, statusOf]
  cases token with
  | some token =>
    simp only [joinCall, h.handleAuth_eq ha, Registry.commit]
    exact hupsert (h.registered_of_valid ha) _
  | none =>
    have hreg : auth.daemonId ∈ r.registrations := ha
    simp only [joinCall, Registry.handleAuthResume, if_pos hreg, Registry.commit]
    exact hupsert hreg _

/-- The selected daemon ids are those whose state passes the test. -/
theorem mem_daemonsWhere (r : Registry) (p : DaemonState → Bool) (d : String) :
    d ∈ r.daemonsWhere p ↔ ∃ state, r.daemonStates.lookup d = some state ∧ p state = true := by
  unfold Registry.daemonsWhere
  rw [List.mem_map]
  constructor
  · rintro ⟨⟨k, state⟩, hf, rfl⟩
    obtain ⟨hin, hp⟩ := List.mem_filter.mp hf
    exact ⟨state, AList.mem_lookup_iff.mpr hin, hp⟩
  · rintro ⟨state, hl, hp⟩
    exact ⟨⟨d, state⟩, List.mem_filter.mpr ⟨AList.mem_lookup_iff.mp hl, hp⟩, rfl⟩

/-- Evictions remove exactly the listed states. -/
theorem statusOf_evictAll (daemonIds : List String) (r : Registry) (d : String) :
    statusOf (daemonIds.foldl Registry.evictDaemon r) d =
      if d ∈ daemonIds then none else statusOf r d := by
  induction daemonIds generalizing r with
  | nil => rfl
  | cons daemonId daemonIds ih =>
    rw [List.foldl_cons, ih]
    simp only [statusOf, Registry.evictDaemon, lookup_erase_eq, List.mem_cons]
    by_cases hd : d = daemonId
    · simp [hd]
    · simp [hd]

/-- A sweep clears the flag of stale daemons and touches no traffic time. -/
theorem statusOf_markStale (r : Registry) (now stale : ℕ) (d : String) :
    statusOf (r.markStale now stale) d =
      (statusOf r d).map fun p => (p.1 && !decide (stale < now - p.2), p.2) := by
  simp only [statusOf, Registry.markStale, lookup_mapValues, Option.map_map]
  congr 1
  funext state
  simp only [Function.comp_apply, DaemonState.isStale]
  by_cases hon : state.online = true
  · by_cases h : stale < now - state.lastSeen
    · simp [hon, h]
    · simp [hon, h]
  · simp [hon]

/-- A state that survives a sweep online was online and not stale before. -/
theorem statusOf_checkStale {r : Registry} {now stale evict : ℕ} {d : String} {p : Bool × ℕ}
    (h : statusOf (r.checkStaleDaemons now stale evict).1 d = some p) :
    ∃ online, statusOf r d = some (online, p.2) ∧
      (p.1 = true → online = true ∧ now - p.2 ≤ stale) := by
  simp only [Registry.checkStaleDaemons, statusOf_evictAll] at h
  split at h
  · cases h
  · rw [statusOf_markStale] at h
    obtain ⟨⟨online, seen⟩, hs, rfl⟩ := Option.map_eq_some_iff.mp h
    refine ⟨online, hs, fun hon => ?_⟩
    simp only [Bool.and_eq_true, Bool.not_eq_true', decide_eq_false_iff_not, not_lt] at hon
    exact hon

/-- An online daemon that is not stale survives a sweep online. -/
theorem statusOf_checkStale_online {r : Registry} {now stale evict : ℕ} {d : String} {seen : ℕ}
    (h : statusOf r d = some (true, seen)) (hfresh : now - seen ≤ stale) :
    statusOf (r.checkStaleDaemons now stale evict).1 d = some (true, seen) := by
  have hmark : statusOf (r.markStale now stale) d = some (true, seen) := by
    rw [statusOf_markStale, h, Option.map_some]
    simp [hfresh]
  simp only [Registry.checkStaleDaemons, statusOf_evictAll]
  rw [if_neg, hmark]
  intro hin
  obtain ⟨state, hl, hexp⟩ := (mem_daemonsWhere _ _ _).mp hin
  rw [statusOf, hl, Option.map_some, Option.some_inj, Prod.mk.injEq] at hmark
  simp [DaemonState.isExpired, hmark.1] at hexp

/-- A daemon that goes offline in a sweep was stale. -/
theorem newlyOffline_stale {r : Registry} {now stale evict : ℕ} {d : String}
    (h : d ∈ (r.checkStaleDaemons now stale evict).2.newlyOffline) {p : Bool × ℕ}
    (hp : statusOf (r.checkStaleDaemons now stale evict).1 d = some p) : p.1 = false := by
  obtain ⟨state, hl, hstale⟩ := (mem_daemonsWhere _ _ _).mp h
  obtain ⟨online, hs, hkeep⟩ := statusOf_checkStale hp
  rw [statusOf, hl, Option.map_some, Option.some_inj, Prod.mk.injEq] at hs
  by_contra hne
  have hon := hkeep (Bool.eq_true_of_not_eq_false hne)
  simp only [DaemonState.isStale, decide_eq_true_eq] at hstale
  rw [hs.2] at hstale
  omega

/-- Status after an operation of a grounded relay. -/
def statusAfter (core : RelayCore) (op : CoreOp) (d : String) : Option (Bool × ℕ) :=
  match op with
  | .join _ auth _ now =>
    if d = auth.daemonId ∧ auth.role = .daemon then some (true, now)
    else statusOf core.registry d
  | .publish _ client _ _ _ now =>
    if d = client.daemonId ∧ client.role = .daemon then
      (statusOf core.registry d).map fun p => (p.1, now)
    else statusOf core.registry d
  | .ping _ client now =>
    if d = client.daemonId ∧ client.role = .daemon then
      (statusOf core.registry d).map fun p => (p.1, now)
    else statusOf core.registry d
  | .close connId now =>
    match core.authedState connId with
    | none => statusOf core.registry d
    | some auth =>
      if d = auth.daemonId ∧ auth.role = .daemon then
        (statusOf core.registry d).map fun _ => (false, now)
      else statusOf core.registry d
  | _ => statusOf core.registry d

/-- Operations other than registrations and sweeps change statuses as `statusAfter` says. -/
theorem statusOf_apply {core : RelayCore} (hsound : Sound core.registry) (env : RelayEnv)
    {op : CoreOp} (ha : op.Admissible core) (hregister : ∀ d t p n, op ≠ .register d t p n)
    (hsweep : ∀ n, op ≠ .sweep n) (d : String) :
    statusOf (op.apply env core).registry d = statusAfter core op d := by
  rw [registry_apply]
  cases op with
  | skip => rfl
  | accept connId => rfl
  | register d t p n => exact absurd rfl (hregister d t p n)
  | join connId auth token now => exact statusOf_join hsound ha.1 now d
  | publish connId client sid ct seq now =>
    simp only [registryAfter, statusAfter]
    by_cases hrole : client.role = .daemon
    · simp only [hrole, if_true, and_true]
      exact statusOf_alterState core.registry client.daemonId d
        (fun state => { state.addSession sid with lastSeen := now }) (fun p => (p.1, now))
        fun state => by simp only [DaemonState.addSession]
    · simp [hrole]
  | subscribe connId sid after =>
    simp only [registryAfter, statusAfter]
    split
    · rfl
    · split
      · exact statusOf_alterState_same core.registry _ d fun _ => ⟨rfl, rfl⟩
      · rfl
  | unsubscribe connId sid =>
    simp only [registryAfter, statusAfter]
    split
    · rfl
    · split
      · exact statusOf_alterState_same core.registry _ d fun state =>
          detachAll_status [sid] state
      · rfl
  | ping connId client now =>
    simp only [registryAfter, statusAfter]
    by_cases hrole : client.role = .daemon
    · simp only [hrole, if_true, and_true]
      exact statusOf_alterState core.registry client.daemonId d
        (fun state => { state with lastSeen := now }) (fun p => (p.1, now)) fun _ => rfl
    · simp [hrole]
  | close connId now =>
    simp only [registryAfter, statusAfter]
    cases core.authedState connId with
    | none => rfl
    | some auth =>
      dsimp only
      cases hrole : auth.role with
      | frontend =>
        simp only [if_true, reduceCtorEq, and_false, if_false]
        exact statusOf_alterState_same core.registry _ d fun state => detachAll_status _ state
      | daemon =>
        simp only [reduceCtorEq, if_false, and_true]
        exact statusOf_alterState core.registry auth.daemonId d
          (fun state => { state with online := false, lastSeen := now }) (fun _ => (false, now))
          fun _ => rfl
  | sweep now => exact absurd rfl (hsweep now)

/-- Observations after the presence of a daemon is sent. -/
def tell (core : RelayCore) (daemonId : String) (seen : ConnId → String → Option Bool) :
    ConnId → String → Option Bool :=
  (presenceActions core daemonId).foldl notePresence seen

/-- Observations after the presence an operation sends. -/
def announce (env : RelayEnv) (core : RelayCore) (op : CoreOp)
    (seen : ConnId → String → Option Bool) : ConnId → String → Option Bool :=
  match op with
  | .join _ auth _ _ => tell (op.apply env core) auth.daemonId seen
  | .close connId _ =>
    match core.authedState connId with
    | none => seen
    | some auth =>
      if auth.role = .daemon then tell (op.apply env core) auth.daemonId seen else seen
  | .sweep now =>
    let checked := core.registry.checkStaleDaemons now env.staleTimeoutMs env.offlineEvictMs
    checked.2.newlyOffline.foldl
      (fun seen daemonId => tell { core with registry := checked.1 } daemonId seen) seen
  | _ => seen

/-- No action of the list is a presence message. -/
def Silent (actions : List Action) : Prop := ∀ a ∈ actions, ∀ seen, notePresence seen a = seen

/-- Actions without presence change no observation. -/
theorem foldl_silent {actions : List Action} (h : Silent actions)
    (seen : ConnId → String → Option Bool) : actions.foldl notePresence seen = seen := by
  induction actions with
  | nil => rfl
  | cons a actions ih =>
    rw [List.foldl_cons, h a List.mem_cons_self]
    exact ih fun b hb => h b (List.mem_cons_of_mem a hb)

/-- Sending one kind of message without presence to several targets is silent. -/
theorem silent_map {α : Type} (targets : List α) (f : α → Action)
    (hf : ∀ a seen, notePresence seen (f a) = seen) : Silent (targets.map f) := by
  intro a ha
  obtain ⟨t, -, rfl⟩ := List.mem_map.mp ha
  exact hf t

/-- A single message without presence is silent. -/
theorem silent_single {a : Action} (h : ∀ seen, notePresence seen a = seen) : Silent [a] := by
  intro b hb
  rw [List.mem_singleton.mp hb]
  exact h

/-- Push handling sends no presence. -/
theorem handlePush_silent (env : RelayEnv) (core : RelayCore) (connId : ConnId)
    (frontendId blob title body : String) (data : Option PushData) :
    Silent (handlePush env core connId frontendId blob title body data).actions := by
  have hresolve : ∀ reply, resolvePushLocked env core connId frontendId blob = .inl reply →
      Silent reply.actions := by
    intro reply hr
    unfold resolvePushLocked at hr
    split at hr
    · cases hr
      exact silent_single fun _ => rfl
    · split at hr
      · cases hr
        exact silent_single fun _ => rfl
      · split at hr
        · cases hr
        · cases hr
        · cases hr
          exact silent_single fun _ => rfl
        · cases hr
          exact silent_single fun _ => rfl
  unfold handlePush
  split
  · next reply hr => exact hresolve reply hr
  · split
    · exact fun _ ha => absurd ha List.not_mem_nil
    · exact silent_map _ _ fun _ _ => rfl

/-- Push registration sends no presence. -/
theorem routePushRegister_silent (env : RelayEnv) (core : RelayCore) (connId : ConnId)
    (token : String) (platform : Platform) :
    Silent (routePushRegister env core connId token platform).actions := by
  unfold routePushRegister
  split
  · exact silent_single fun _ => rfl
  · split
    · exact silent_single fun _ => rfl
    · split
      · exact silent_single fun _ => rfl
      · exact fun _ ha => absurd ha List.not_mem_nil

/-- The presence a dispatched message sends is that of its operation. -/
theorem dispatchAdmitted_announce (env : RelayEnv) (core : RelayCore) (connId : ConnId) (now : ℕ)
    (msg : RelayClientMessage) (seen : ConnId → String → Option Bool) :
    (dispatchAdmitted env core connId now msg).2.actions.foldl notePresence seen =
      announce env core (messageOp env core connId now msg) seen := by
  cases msg with
  | auth role daemonId token v frontendId =>
    have hrole : ¬(role = .daemon) ↔ role = .frontend := by cases role <;> decide
    have hreject : ∀ reason, Silent (rejectAuth connId reason role frontendId).actions := by
      intro reason a ha
      simp only [rejectAuth, DispatchOutcome.ofActions] at ha
      rcases List.mem_cons.mp ha with rfl | ha
      · exact fun _ => rfl
      · split at ha
        · rw [List.mem_singleton.mp ha]
          exact fun _ => rfl
        · cases ha
    simp only [dispatchAdmitted, messageOp, RelayConn.handleAuth, decide_eq_true_eq, hrole]
    by_cases hid : role = .frontend ∧ (frontendId = none ∨ frontendId = some "")
    · rw [if_pos hid, if_pos hid]
      exact foldl_silent (hreject _) seen
    · rw [if_neg hid, if_neg hid]
      by_cases ht : core.registry.validTokens.lookup token = some daemonId
      · obtain ⟨registrations, hok⟩ := handleAuth_of_valid ht (decide (role = .daemon)) now
        rw [if_pos ht]
        simp only [announce, CoreOp.apply, joinCall, RelayCore.alterRegistry, hok]
        rfl
      · rw [if_neg ht, Registry.handleAuth, if_neg ht]
        exact foldl_silent (hreject _) seen
  | authResume token v =>
    simp only [dispatchAdmitted, messageOp, RelayConn.handleAuthResume]
    cases env.verify token now with
    | none => rfl
    | some payload =>
      dsimp only
      by_cases hd : (resumeIdentity payload).2.1 ∈ core.registry.registrations
      · rw [if_pos hd, Registry.handleAuthResume, if_pos hd]
        simp only [announce, CoreOp.apply, joinCall, RelayCore.alterRegistry,
          Registry.handleAuthResume, if_pos hd]
        rfl
      · rw [if_neg hd, Registry.handleAuthResume, if_neg hd]
        rfl
  | register daemonId proof token v =>
    simp only [dispatchAdmitted, messageOp, RelayConn.handleRegister, announce]
    cases core.registry.handleRegister daemonId token proof now <;> rfl
  | publish sid ct seq =>
    simp only [dispatchAdmitted, messageOp]
    cases core.authedState connId with
    | none => rfl
    | some client => exact foldl_silent (silent_map _ _ fun _ _ => rfl) seen
  | keyExchange ct role =>
    simp only [dispatchAdmitted, messageOp]
    cases core.authedState connId with
    | none => rfl
    | some client => exact foldl_silent (silent_map _ _ fun _ _ => rfl) seen
  | subscribe sid after =>
    simp only [dispatchAdmitted, messageOp, routeSubscribe, announce]
    cases core.authedState connId with
    | none => rfl
    | some auth =>
      dsimp only [DispatchOutcome.ofActions]
      split
      · rfl
      · exact foldl_silent (silent_map _ _ fun _ _ => rfl) seen
  | unsubscribe sid => rfl
  | ping ts =>
    simp only [dispatchAdmitted, messageOp]
    cases core.authedState connId <;> rfl
  | push frontendId blob title body level data =>
    exact foldl_silent (handlePush_silent env core connId frontendId blob title body data) seen
  | pushRegister frontendId token platform =>
    exact foldl_silent (routePushRegister_silent env core connId token platform) seen

/-- The presence an inbound frame sends is that of its operation. -/
theorem handleInbound_announce (env : RelayEnv) (core : RelayCore) (connId : ConnId)
    (clientOk groupOk : Bool) (now : ℕ) (frame : InboundFrame)
    (hf : ∀ size, frame ≠ .oversized size) (seen : ConnId → String → Option Bool) :
    (handleInbound env core connId clientOk groupOk now frame).2.actions.foldl notePresence seen =
      announce env (countPreauth core connId)
        (inboundOp env (countPreauth core connId) connId clientOk groupOk now frame) seen := by
  generalize hc : countPreauth core connId = counted
  cases frame with
  | oversized size => exact absurd rfl (hf size)
  | invalidJson =>
    simp only [handleInbound, inboundOp, hc]
    split <;> rfl
  | unknownType t =>
    simp only [handleInbound, inboundOp, hc]
    split <;> rfl
  | message msg =>
    simp only [handleInbound, inboundOp, hc]
    by_cases hb : overPreauthBudget env counted connId = true
    · rw [if_pos hb, if_pos hb]
      rfl
    · rw [if_neg hb, if_neg hb]
      simp only [dispatchLocked]
      by_cases hr : rateChecked counted connId msg = true ∧ ¬(clientOk = true ∧ groupOk = true)
      · rw [if_pos hr]
        obtain ⟨hrate, hok⟩ := hr
        cases clientOk with
        | false => simp [hrate, rateLimited, DispatchOutcome.ofActions, notePresence, announce]
        | true =>
          cases groupOk with
          | false => simp [hrate, rateLimited, DispatchOutcome.ofActions, notePresence, announce]
          | true => exact absurd ⟨rfl, rfl⟩ hok
      · rw [if_neg hr, if_neg fun h => hr ⟨h.1, fun hok => h.2 hok.1⟩,
          if_neg fun h => hr ⟨h.1, fun hok => h.2 hok.2⟩]
        exact dispatchAdmitted_announce env counted connId now msg seen

/-- The presence a close sends is that of its operation. -/
theorem closeConn_announce (env : RelayEnv) (core : RelayCore) (connId : ConnId) (now : ℕ)
    (seen : ConnId → String → Option Bool) :
    (closeConn core connId now).2.foldl notePresence seen =
      announce env core (.close connId now) seen := by
  unfold closeConn announce
  simp only [CoreOp.apply]
  have hdaemon : (handleClose core connId now).2 =
      (core.authedState connId).bind fun auth =>
        if auth.role = .daemon then some auth.daemonId else none := by
    unfold handleClose RelayCore.authedState
    cases core.conns.lookup connId with
    | none => rfl
    | some handle =>
      dsimp only [Option.bind_some]
      cases handle.auth with
      | none => rfl
      | some auth =>
        dsimp only [Option.bind_some]
        split <;> rfl
  rw [hdaemon]
  cases core.authedState connId with
  | none => rfl
  | some auth =>
    dsimp only [Option.bind_some]
    cases auth.role <;> rfl

/-- The presence an event sends is that of its operation. -/
theorem relayStep_announce (env : RelayEnv) (s : RelayState) (e : RelayEvent)
    (seen : ConnId → String → Option Bool) :
    (relayStepActions env s e).2.foldl notePresence seen =
      announce env (baseOf s e) (effectOf env s e) seen := by
  cases e with
  | accept => rfl
  | inbound connId frame clientOk groupOk now =>
    simp only [relayStepActions, effectOf]
    by_cases hr : s.sockets.lookup connId = some .reading
    · rw [if_pos hr, if_pos hr]
      cases frame with
      | oversized size => rfl
      | invalidJson =>
        simp only [baseOf, if_pos hr]
        exact handleInbound_announce env s.core connId clientOk groupOk now .invalidJson (by simp) seen
      | unknownType t =>
        simp only [baseOf, if_pos hr]
        exact handleInbound_announce env s.core connId clientOk groupOk now (.unknownType t) (by simp)
          seen
      | message msg =>
        simp only [baseOf, if_pos hr]
        exact handleInbound_announce env s.core connId clientOk groupOk now (.message msg) (by simp) seen
    · rw [if_neg hr, if_neg hr]
      rfl
  | teardown connId now =>
    simp only [relayStepActions, effectOf, baseOf]
    by_cases hs : connId ∈ s.sockets
    · rw [if_pos hs, if_pos hs]
      exact closeConn_announce env s.core connId now seen
    · rw [if_neg hs, if_neg hs]
      rfl
  | forceClose connId now => exact closeConn_announce env s.core connId now seen
  | sweep now =>
    simp only [relayStepActions, effectOf, baseOf, staleSweep, announce, tell]
    generalize (s.core.registry.checkStaleDaemons now env.staleTimeoutMs
      env.offlineEvictMs).2.newlyOffline = offline
    induction offline generalizing seen with
    | nil => rfl
    | cons daemonId offline ih =>
      rw [List.flatMap_cons, List.foldl_append, List.foldl_cons]
      exact ih _

/-- Telling a group about its daemon reaches the frontends in it. -/
theorem tell_eq (core : RelayCore) (daemonId : String) (seen : ConnId → String → Option Bool)
    (c : ConnId) (d : String) :
    tell core daemonId seen c d =
      match statusOf core.registry daemonId with
      | none => seen c d
      | some p =>
        if d = daemonId ∧ c ∈ core.peersWhere daemonId (fun auth => auth.role = .frontend) then
          some p.1
        else seen c d := by
  have hnote : ∀ (targets : List ConnId) (online : Bool) (lastSeen : ℕ)
      (seen : ConnId → String → Option Bool),
      (targets.map fun peer => Action.send peer (.presence daemonId online [] lastSeen)).foldl
        notePresence seen c d = if d = daemonId ∧ c ∈ targets then some online else seen c d := by
    intro targets online lastSeen
    induction targets with
    | nil => simp
    | cons target targets ih =>
      intro seen
      rw [List.map_cons, List.foldl_cons, ih]
      simp only [notePresence, List.mem_cons]
      by_cases hd : d = daemonId
      · by_cases hc : c = target
        · simp [hd, hc]
        · simp [hd, hc]
      · simp [hd]
  unfold tell presenceActions statusOf
  cases core.registry.daemonStates.lookup daemonId with
  | none => rfl
  | some state => exact hnote _ _ _ _

/-- Telling about other daemons changes nothing about this one. -/
theorem foldl_tell_other (core : RelayCore) {daemonIds : List String} {d : String}
    (hd : d ∉ daemonIds) (seen : ConnId → String → Option Bool) (c : ConnId) :
    daemonIds.foldl (fun seen daemonId => tell core daemonId seen) seen c d = seen c d := by
  induction daemonIds generalizing seen with
  | nil => rfl
  | cons daemonId daemonIds ih =>
    have hne : d ≠ daemonId := fun h => hd (h ▸ List.mem_cons_self)
    rw [List.foldl_cons, ih fun h => hd (List.mem_cons_of_mem daemonId h), tell_eq]
    split
    · rfl
    · rw [if_neg fun h => hne h.1]

/-- The time an operation carries. -/
def opTime : CoreOp → Option ℕ
  | .register _ _ _ now => some now
  | .join _ _ _ now => some now
  | .publish _ _ _ _ _ now => some now
  | .ping _ _ now => some now
  | .close _ now => some now
  | .sweep now => some now
  | _ => none

/-- Traffic times after an operation. -/
def trafficAfter (op : CoreOp) (traffic : ConnId → ℕ) (c : ConnId) : ℕ :=
  match trafficOf op with
  | some (connId, now) => if c = connId then now else traffic c
  | none => traffic c

/-- What every run with a forward clock keeps. -/
structure PresenceInv (core : RelayCore) (clock : ℕ) (traffic : ConnId → ℕ)
    (presence : ConnId → String → Option Bool) : Prop where
  /-- An authenticated connection is in the group of its daemon. -/
  inGroup : ∀ c auth, core.authedState c = some auth → core.InGroup auth.daemonId c
  /-- Traffic lies in the past. -/
  trafficPast : ∀ c, traffic c ≤ clock
  /-- The registry has seen the traffic of every live daemon connection. -/
  trafficSeen : ∀ d c p, HasRole core .daemon c d → statusOf core.registry d = some p →
    traffic c ≤ p.2
  /-- The frontends of an online daemon were last told that it is online. -/
  told : ∀ d seen, statusOf core.registry d = some (true, seen) →
    ∀ f, HasRole core .frontend f d → presence f d = some true

/-- An auth state after an operation comes from an accepted auth, or from one
before of the same role and daemon that was neither replaced nor closed. -/
theorem authAfter_cases {core : RelayCore} {op : CoreOp} {c : ConnId} {auth : AuthState}
    (h : authAfter core op c = some auth) :
    (∃ old, core.authedState c = some old ∧ old.role = auth.role ∧ old.daemonId = auth.daemonId ∧
        (∀ auth' token now, op ≠ .join c auth' token now) ∧ ∀ now, op ≠ .close c now) ∨
      ∃ token now, op = .join c auth token now := by
  cases op with
  | accept connId =>
    rw [authAfter] at h
    split at h
    · cases h
    · exact .inl ⟨auth, h, rfl, rfl, by simp, by simp⟩
  | join connId auth' token now =>
    rw [authAfter] at h
    split at h
    · next hc =>
      cases h
      rw [hc.1]
      exact .inr ⟨token, now, rfl⟩
    · next hc =>
      refine .inl ⟨auth, h, rfl, rfl, ?_, by simp⟩
      rintro auth'' token' now' ⟨⟩
      have hreg : c ∈ core.conns := by
        rw [mem_iff_lookup]
        cases hl : core.conns.lookup c with
        | none => simp [RelayCore.authedState, hl] at h
        | some handle => exact ⟨handle, rfl⟩
      exact hc ⟨rfl, hreg⟩
  | subscribe connId sid after =>
    rw [authAfter] at h
    split at h
    · obtain ⟨old, hold, rfl⟩ := Option.map_eq_some_iff.mp h
      have hkeep : (AuthState.subscribed sid old).role = old.role ∧
          (AuthState.subscribed sid old).daemonId = old.daemonId := by
        unfold AuthState.subscribed
        split <;> exact ⟨rfl, rfl⟩
      exact .inl ⟨old, hold, hkeep.1.symm, hkeep.2.symm, by simp, by simp⟩
    · exact .inl ⟨auth, h, rfl, rfl, by simp, by simp⟩
  | unsubscribe connId sid =>
    rw [authAfter] at h
    split at h
    · obtain ⟨old, hold, rfl⟩ := Option.map_eq_some_iff.mp h
      exact .inl ⟨old, hold, rfl, rfl, by simp, by simp⟩
    · exact .inl ⟨auth, h, rfl, rfl, by simp, by simp⟩
  | close connId now =>
    rw [authAfter] at h
    split at h
    · cases h
    · next hc =>
      refine .inl ⟨auth, h, rfl, rfl, by simp, ?_⟩
      rintro now' ⟨⟩
      exact hc rfl
  | _ => exact .inl ⟨auth, h, rfl, rfl, by simp, by simp⟩

/-- A role after an operation was there before, or comes from an accepted auth. -/
theorem hasRole_apply {env : RelayEnv} {core : RelayCore} {op : CoreOp} {role : Role} {c : ConnId}
    {d : String} (h : HasRole (op.apply env core) role c d) :
    (HasRole core role c d ∧ ∀ auth token now, op = .join c auth token now → False) ∨
      ∃ auth token now, op = .join c auth token now ∧ auth.role = role ∧ auth.daemonId = d := by
  obtain ⟨auth, hauth, hrole, hd⟩ := h
  rw [authedState_apply] at hauth
  rcases authAfter_cases hauth with ⟨old, hold, hsame, hdaemon, hjoin, -⟩ | ⟨token, now, hop⟩
  · exact .inl ⟨⟨old, hold, hsame.trans hrole, hdaemon.trans hd⟩, hjoin⟩
  · exact .inr ⟨auth, token, now, hop, hrole, hd⟩

/-- Being authenticated still implies membership after an operation. -/
theorem inGroup_step {core : RelayCore}
    (h : ∀ c auth, core.authedState c = some auth → core.InGroup auth.daemonId c) (env : RelayEnv)
    (op : CoreOp) (c : ConnId) (auth : AuthState)
    (hauth : (op.apply env core).authedState c = some auth) :
    (op.apply env core).InGroup auth.daemonId c := by
  rw [authedState_apply] at hauth
  rw [inGroup_apply]
  rcases authAfter_cases hauth with ⟨old, hold, -, hdaemon, -, hclose⟩ | ⟨token, now, rfl⟩
  · have hbefore : core.InGroup auth.daemonId c := hdaemon ▸ h c old hold
    cases op with
    | join connId auth' token now => exact .inr hbefore
    | close connId now =>
      refine ⟨hbefore, fun hcc => hclose now ?_⟩
      rw [hcc.1]
    | _ => exact hbefore
  · exact .inl ⟨rfl, rfl⟩

/-- A registration leaves a status alone or starts it offline now. -/
theorem statusOf_registerOp {env : RelayEnv} {core : RelayCore} {daemonId token proof : String}
    {now : ℕ} {d : String} {p : Bool × ℕ}
    (h : statusOf ((CoreOp.register daemonId token proof now).apply env core).registry d = some p) :
    statusOf core.registry d = some p ∨ p = (false, now) := by
  rw [registry_apply] at h
  simp only [registryAfter, Registry.handleRegister] at h
  split at h
  · exact .inl h
  · split at h
    · exact .inl h
    · rw [Registry.commit, statusOf_register] at h
      split at h
      · cases hs : statusOf core.registry d with
        | none =>
          rw [hs, Option.getD_none, Option.some_inj] at h
          exact .inr h.symm
        | some q =>
          rw [hs, Option.getD_some] at h
          exact .inl h
      · exact .inl h

/-- A registration keeps the status of a daemon that has one. -/
theorem statusOf_registerOp_kept {env : RelayEnv} {core : RelayCore}
    {daemonId token proof : String} {now : ℕ} {d : String} {p : Bool × ℕ}
    (h : statusOf core.registry d = some p) :
    statusOf ((CoreOp.register daemonId token proof now).apply env core).registry d = some p := by
  rw [registry_apply]
  simp only [registryAfter, Registry.handleRegister]
  split
  · exact h
  · split
    · exact h
    · rw [Registry.commit, statusOf_register, h]
      split <;> rfl

/-- A status after traffic of a client has the time of the traffic, or is an
older one and the traffic is not the daemon's. -/
theorem status_touched {r : Registry} {client : AuthState} {d : String} {now : ℕ} {p : Bool × ℕ}
    (h : (if d = client.daemonId ∧ client.role = .daemon then
      (statusOf r d).map fun q => (q.1, now) else statusOf r d) = some p) :
    now = p.2 ∨ (¬(d = client.daemonId ∧ client.role = .daemon) ∧ statusOf r d = some p) := by
  split at h
  · obtain ⟨q, -, rfl⟩ := Option.map_eq_some_iff.mp h
    exact .inl rfl
  · next hd => exact .inr ⟨hd, h⟩

/-- Traffic does not bring a daemon online. -/
theorem online_touched {r : Registry} {client : AuthState} {d : String} {now seen : ℕ}
    (h : (if d = client.daemonId ∧ client.role = .daemon then
      (statusOf r d).map fun q => (q.1, now) else statusOf r d) = some (true, seen)) :
    ∃ before, statusOf r d = some (true, before) := by
  split at h
  · obtain ⟨⟨online, before⟩, hs, heq⟩ := Option.map_eq_some_iff.mp h
    cases heq
    exact ⟨before, hs⟩
  · exact ⟨seen, h⟩

/-- Traffic that counts for a daemon is that of the daemon's own client. -/
theorem traffic_role {core : RelayCore} {connId k : ConnId} {client : AuthState} {d : String}
    {now t : ℕ} (hauth : core.authedState connId = some client)
    (ht : (if client.role = .daemon then some (connId, now) else none) = some (k, t))
    (hrole : HasRole core .daemon k d) : d = client.daemonId ∧ client.role = .daemon := by
  split at ht
  · next hdaemon =>
    cases ht
    obtain ⟨auth, hk, -, rfl⟩ := hrole
    have hsame : some client = some auth := hauth.symm.trans hk
    exact ⟨congrArg AuthState.daemonId (Option.some_inj.mp hsame).symm, hdaemon⟩
  · cases ht

/-- A status after an operation carries the time of the operation, or is an
older one of a daemon that the operation's traffic is not about. -/
theorem status_seen {env : RelayEnv} {core : RelayCore} (hsound : Sound core.registry) {op : CoreOp}
    (ha : op.Admissible core) {d : String} {p : Bool × ℕ}
    (h : statusOf (op.apply env core).registry d = some p) :
    opTime op = some p.2 ∨ ((∃ online, statusOf core.registry d = some (online, p.2)) ∧
      ∀ k now, trafficOf op = some (k, now) → ¬HasRole (op.apply env core) .daemon k d) := by
  cases op with
  | register daemonId token proof now =>
    rcases statusOf_registerOp h with h | rfl
    · exact .inr ⟨⟨p.1, h⟩, nofun⟩
    · exact .inl rfl
  | sweep now =>
    rw [registry_apply] at h
    obtain ⟨online, hs, -⟩ := statusOf_checkStale h
    exact .inr ⟨⟨online, hs⟩, nofun⟩
  | join connId auth token now =>
    rw [statusOf_apply hsound env ha nofun nofun, statusAfter] at h
    split at h
    · cases h
      exact .inl rfl
    · next hd =>
      refine .inr ⟨⟨p.1, h⟩, fun k t ht hrole => hd ?_⟩
      simp only [trafficOf] at ht
      split at ht
      · next hdaemon =>
        cases ht
        rcases hasRole_apply hrole with ⟨-, hno⟩ | ⟨auth', token', now', heq, -, rfl⟩
        · exact (hno auth token now rfl).elim
        · cases heq
          exact ⟨rfl, hdaemon⟩
      · cases ht
  | publish connId client sid ct seq now =>
    rw [statusOf_apply hsound env ha nofun nofun, statusAfter] at h
    refine (status_touched h).imp (congrArg some) ?_
    rintro ⟨hd, hs⟩
    refine ⟨⟨p.1, hs⟩, fun k t ht hrole => hd ?_⟩
    refine traffic_role ?_ ht hrole
    rw [authedState_apply]
    exact ha
  | ping connId client now =>
    rw [statusOf_apply hsound env ha nofun nofun, statusAfter] at h
    refine (status_touched h).imp (congrArg some) ?_
    rintro ⟨hd, hs⟩
    refine ⟨⟨p.1, hs⟩, fun k t ht hrole => hd ?_⟩
    refine traffic_role ?_ ht hrole
    rw [authedState_apply]
    exact ha
  | close connId now =>
    rw [statusOf_apply hsound env ha nofun nofun, statusAfter] at h
    split at h
    · exact .inr ⟨⟨p.1, h⟩, nofun⟩
    · split at h
      · obtain ⟨q, -, rfl⟩ := Option.map_eq_some_iff.mp h
        exact .inl rfl
      · exact .inr ⟨⟨p.1, h⟩, nofun⟩
  | _ =>
    rw [statusOf_apply hsound env ha nofun nofun] at h
    exact .inr ⟨⟨p.1, h⟩, nofun⟩

/-- A daemon that is online after an operation was online before and nothing
was announced about it, or the operation is an accepted auth of the daemon's
group that announces it. -/
theorem status_online {env : RelayEnv} {core : RelayCore} (hsound : Sound core.registry)
    {op : CoreOp} (ha : op.Admissible core) {d : String} {seen : ℕ}
    (h : statusOf (op.apply env core).registry d = some (true, seen))
    (presence : ConnId → String → Option Bool) :
    (∃ c auth token now, op = .join c auth token now ∧ auth.daemonId = d) ∨
      ((∃ before, statusOf core.registry d = some (true, before)) ∧
        (∀ c auth token now, op = .join c auth token now → auth.daemonId ≠ d) ∧
        ∀ f, announce env core op presence f d = presence f d) := by
  cases op with
  | register daemonId token proof now =>
    rcases statusOf_registerOp h with h | h
    · exact .inr ⟨⟨seen, h⟩, nofun, fun _ => rfl⟩
    · cases h
  | sweep now =>
    rw [registry_apply] at h
    obtain ⟨online, hs, hkeep⟩ := statusOf_checkStale h
    refine .inr ⟨⟨seen, (hkeep rfl).1 ▸ hs⟩, nofun, fun f => ?_⟩
    exact foldl_tell_other _ (fun hin => by simpa using newlyOffline_stale hin h) presence f
  | join connId auth token now =>
    by_cases hd : auth.daemonId = d
    · exact .inl ⟨connId, auth, token, now, rfl, hd⟩
    · rw [statusOf_apply hsound env ha nofun nofun, statusAfter, if_neg fun hh => hd hh.1.symm] at h
      refine .inr ⟨⟨seen, h⟩, ?_, fun f => ?_⟩
      · intro c auth' token' now' heq
        cases heq
        exact hd
      · rw [announce, tell_eq]
        split
        · rfl
        · rw [if_neg fun hh => hd hh.1.symm]
  | publish connId client sid ct seq now =>
    rw [statusOf_apply hsound env ha nofun nofun, statusAfter] at h
    exact .inr ⟨online_touched h, nofun, fun _ => rfl⟩
  | ping connId client now =>
    rw [statusOf_apply hsound env ha nofun nofun, statusAfter] at h
    exact .inr ⟨online_touched h, nofun, fun _ => rfl⟩
  | close connId now =>
    rw [statusOf_apply hsound env ha nofun nofun, statusAfter] at h
    simp only [announce]
    cases hauth : core.authedState connId with
    | none =>
      rw [hauth] at h
      exact .inr ⟨⟨seen, h⟩, nofun, fun _ => rfl⟩
    | some auth =>
      rw [hauth] at h
      dsimp only at h ⊢
      split at h
      · obtain ⟨q, -, heq⟩ := Option.map_eq_some_iff.mp h
        cases heq
      · next hd =>
        refine .inr ⟨⟨seen, h⟩, nofun, fun f => ?_⟩
        split
        · next hdaemon =>
          rw [tell_eq]
          split
          · rfl
          · rw [if_neg fun hh => hd ⟨hh.1, hdaemon⟩]
        · rfl
  | _ =>
    rw [statusOf_apply hsound env ha nofun nofun] at h
    exact .inr ⟨⟨seen, h⟩, nofun, fun _ => rfl⟩

/-- Every operation under a forward clock keeps the invariant. -/
theorem PresenceInv.step {core : RelayCore} {clock clock' : ℕ} {traffic : ConnId → ℕ}
    {presence : ConnId → String → Option Bool} (h : PresenceInv core clock traffic presence)
    (hsound : Sound core.registry) (env : RelayEnv) {op : CoreOp} (ha : op.Admissible core)
    (hclock : clock ≤ clock') (htime : ∀ t, opTime op = some t → t = clock') :
    PresenceInv (op.apply env core) clock' (trafficAfter op traffic)
      (announce env core op presence) := by
  have hpast : ∀ c, trafficAfter op traffic c ≤ clock' := by
    intro c
    have hold := h.trafficPast c
    have hop : ∀ k t, trafficOf op = some (k, t) → opTime op = some t := by
      intro k t ht
      cases op with
      | join connId auth token now =>
        simp only [trafficOf] at ht
        split at ht
        · cases ht; rfl
        · cases ht
      | publish connId client sid ct seq now =>
        simp only [trafficOf] at ht
        split at ht
        · cases ht; rfl
        · cases ht
      | ping connId client now =>
        simp only [trafficOf] at ht
        split at ht
        · cases ht; rfl
        · cases ht
      | _ => cases ht
    unfold trafficAfter
    split
    · next k t ht =>
      have := htime t (hop k t ht)
      split <;> omega
    · omega
  refine ⟨inGroup_step h.inGroup env op, hpast, ?_, ?_⟩
  · intro d c p hrole hp
    rcases status_seen hsound ha hp with ht | ⟨⟨online, hs⟩, hother⟩
    · rw [htime p.2 ht]
      exact hpast c
    · have hsame : trafficAfter op traffic c = traffic c := by
        unfold trafficAfter
        split
        · next k t ht =>
          rw [if_neg]
          rintro rfl
          exact hother c t ht hrole
        · rfl
      rw [hsame]
      rcases hasRole_apply hrole with ⟨hold, -⟩ | ⟨auth, token, now, rfl, hdaemon, hd⟩
      · exact h.trafficSeen d c (online, p.2) hold hs
      · refine (hother c now ?_ hrole).elim
        simp [trafficOf, hdaemon]
  · intro d seen hp f hrole
    rcases status_online hsound ha hp presence with
      ⟨c, auth, token, now, rfl, rfl⟩ | ⟨⟨before, hs⟩, hother, hquiet⟩
    · rw [announce, tell_eq, hp]
      dsimp only
      rw [if_pos]
      obtain ⟨fauth, hfauth, hfrole, hfd⟩ := hrole
      refine ⟨rfl, List.mem_filter.mpr ⟨?_, ?_⟩⟩
      · rw [← hfd]
        exact inGroup_step h.inGroup env _ f fauth hfauth
      · rw [hfauth, Option.any_some, hfrole]
        rfl
    · rw [hquiet]
      rcases hasRole_apply hrole with ⟨hold, -⟩ | ⟨auth, token, now, heq, -, hd⟩
      · exact h.told d before hs f hold
      · exact absurd hd (hother f auth token now heq)

/-- Daemons with a recently active daemon connection are online. -/
def OnlineKept (env : RelayEnv) (core : RelayCore) (clock : ℕ) (traffic : ConnId → ℕ) : Prop :=
  ∀ d c, HasRole core .daemon c d → clock - traffic c ≤ env.staleTimeoutMs →
    ∃ seen, statusOf core.registry d = some (true, seen)

/-- Under the invariant presence is truthful exactly when recently active daemons are online. -/
theorem presenceTruthful_iff {env : RelayEnv} {w : WatchedRelay}
    (h : PresenceInv w.relay.core w.clock w.traffic w.presence) :
    PresenceTruthful env w ↔ OnlineKept env w.relay.core w.clock w.traffic := by
  unfold PresenceTruthful OnlineKept Recent
  constructor
  · intro ht d c hrole hrec
    exact (onlineIn_iff _ _).mp (ht d c hrole hrec).1
  · intro hk d c hrole hrec
    obtain ⟨seen, hs⟩ := hk d c hrole hrec
    exact ⟨(onlineIn_iff _ _).mpr ⟨seen, hs⟩, h.told d seen hs⟩

/-- The condition under which an operation keeps recently active daemons online. -/
def OpKeepsPresence (env : RelayEnv) (core : RelayCore) (traffic : ConnId → ℕ) : CoreOp → Prop
  | .close connId now =>
    ∀ daemonId, HasRole core .daemon connId daemonId →
      ∀ c, c ≠ connId → HasRole core .daemon c daemonId → ¬now - traffic c ≤ env.staleTimeoutMs
  | .ping _ client _ => client.role = .daemon → OnlineIn core.registry client.daemonId
  | .publish _ client _ _ _ _ => client.role = .daemon → OnlineIn core.registry client.daemonId
  | _ => True

section Steps

variable {env : RelayEnv} {core : RelayCore} {clock clock' : ℕ} {traffic : ConnId → ℕ}
  {presence : ConnId → String → Option Bool}

/-- Daemon traffic keeps recently active daemons online exactly when its daemon is online. -/
theorem traffic_onlineKept_iff {op : CoreOp} {connId : ConnId} {client : AuthState} {now : ℕ}
    (hk : OnlineKept env core clock traffic) (hclient : core.authedState connId = some client)
    (hclock : clock ≤ now) (hauth : ∀ c, (op.apply env core).authedState c = core.authedState c)
    (htraffic : trafficOf op = if client.role = .daemon then some (connId, now) else none)
    (hstatus : ∀ d, statusOf (op.apply env core).registry d =
      if d = client.daemonId ∧ client.role = .daemon then
        (statusOf core.registry d).map fun p => (p.1, now)
      else statusOf core.registry d) :
    OnlineKept env (op.apply env core) now (trafficAfter op traffic) ↔
      (client.role = .daemon → OnlineIn core.registry client.daemonId) := by
  have hrole : ∀ c d, HasRole (op.apply env core) .daemon c d ↔ HasRole core .daemon c d := by
    intro c d
    simp only [HasRole, hauth]
  constructor
  · intro hnext hdaemon
    have hself : HasRole core .daemon connId client.daemonId := ⟨client, hclient, hdaemon, rfl⟩
    obtain ⟨seen, hs⟩ := hnext client.daemonId connId ((hrole _ _).mpr hself) (by
      simp [trafficAfter, htraffic, hdaemon])
    rw [hstatus, if_pos ⟨rfl, hdaemon⟩] at hs
    obtain ⟨⟨online, before⟩, hbefore, heq⟩ := Option.map_eq_some_iff.mp hs
    cases heq
    exact (onlineIn_iff _ _).mpr ⟨before, hbefore⟩
  · intro hcond d c hc hrec
    have hbefore : ∃ before, statusOf core.registry d = some (true, before) := by
      by_cases hself : c = connId ∧ client.role = .daemon
      · obtain ⟨auth, hca, -, hd⟩ := (hrole c d).mp hc
        rw [hself.1, hclient, Option.some_inj] at hca
        rw [← hd, ← hca]
        exact (onlineIn_iff _ _).mp (hcond hself.2)
      · have hsame : trafficAfter op traffic c = traffic c := by
          unfold trafficAfter
          rw [htraffic]
          by_cases hdaemon : client.role = .daemon
          · rw [if_pos hdaemon]
            exact if_neg fun hcc => hself ⟨hcc, hdaemon⟩
          · rw [if_neg hdaemon]
        rw [hsame] at hrec
        exact hk d c ((hrole c d).mp hc) (by omega)
    obtain ⟨before, hs⟩ := hbefore
    rw [hstatus, hs]
    split
    · exact ⟨now, rfl⟩
    · exact ⟨before, rfl⟩

/-- A close keeps recently active daemons online exactly when no other
recently active connection of its daemon is live. -/
theorem close_onlineKept_iff {connId : ConnId} {now : ℕ} (hsound : Sound core.registry)
    (hk : OnlineKept env core clock traffic) (hclock : clock ≤ now) :
    OnlineKept env ((CoreOp.close connId now).apply env core) now traffic ↔
      OpKeepsPresence env core traffic (.close connId now) := by
  have hrole : ∀ c d, HasRole ((CoreOp.close connId now).apply env core) .daemon c d ↔
      c ≠ connId ∧ HasRole core .daemon c d := by
    intro c d
    simp only [HasRole, authedState_apply, authAfter]
    by_cases hc : c = connId
    · simp [hc]
    · simp [hc]
  have hstatus : ∀ d, statusOf ((CoreOp.close connId now).apply env _).registry d = _ :=
    statusOf_apply hsound env trivial (by simp) (by simp)
  constructor
  · intro hnext d hself c hne hc hrec
    obtain ⟨seen, hs⟩ := hnext d c ((hrole c d).mpr ⟨hne, hc⟩) hrec
    obtain ⟨auth, hauth, hdaemon, hd⟩ := hself
    rw [hstatus, statusAfter, hauth] at hs
    dsimp only at hs
    rw [if_pos ⟨hd.symm, hdaemon⟩] at hs
    obtain ⟨p, -, heq⟩ := Option.map_eq_some_iff.mp hs
    cases heq
  · intro hcond d c hc hrec
    obtain ⟨hne, hold⟩ := (hrole c d).mp hc
    obtain ⟨seen, hs⟩ := hk d c hold (by omega)
    refine ⟨seen, ?_⟩
    rw [hstatus, statusAfter]
    cases hauth : core.authedState connId with
    | none => exact hs
    | some auth =>
      dsimp only
      rw [if_neg]
      · exact hs
      · rintro ⟨rfl, hdaemon⟩
        exact hcond auth.daemonId ⟨auth, hauth, hdaemon, rfl⟩ c hne hold hrec

/-- One operation keeps recently active daemons online exactly when it meets the condition. -/
theorem onlineKept_apply_iff {op : CoreOp} (h : PresenceInv core clock traffic presence)
    (hsound : Sound core.registry) (ha : op.Admissible core) (hclock : clock ≤ clock')
    (htime : ∀ t, opTime op = some t → t = clock') (hk : OnlineKept env core clock traffic) :
    OnlineKept env (op.apply env core) clock' (trafficAfter op traffic) ↔
      OpKeepsPresence env core traffic op := by
  have hquiet : trafficOf op = none →
      (∀ d p, statusOf core.registry d = some (true, p) →
        ∃ p', statusOf (op.apply env core).registry d = some (true, p')) →
      (∀ c auth token now, op ≠ .join c auth token now) →
      OnlineKept env (op.apply env core) clock' (trafficAfter op traffic) := by
    intro htraffic hstatus hjoin d c hc hrec
    rcases hasRole_apply hc with ⟨hold, -⟩ | ⟨auth, token, now, heq, -, -⟩
    · simp only [trafficAfter, htraffic] at hrec
      obtain ⟨p, hs⟩ := hk d c hold (by omega)
      exact hstatus d p hs
    · exact absurd heq (hjoin c auth token now)
  cases op with
  | join connId auth token now =>
    refine ⟨fun _ => trivial, fun _ d c hc hrec => ?_⟩
    have hstatus := statusOf_apply hsound env ha nofun nofun d
    rw [statusAfter] at hstatus
    by_cases hd : d = auth.daemonId ∧ auth.role = .daemon
    · rw [hstatus, if_pos hd]
      exact ⟨now, rfl⟩
    · rw [hstatus, if_neg hd]
      rcases hasRole_apply hc with ⟨hold, hno⟩ | ⟨auth', token', now', heq, hrole, hd'⟩
      · have hsame : trafficAfter (.join connId auth token now) traffic c = traffic c := by
          simp only [trafficAfter, trafficOf]
          by_cases hdaemon : auth.role = .daemon
          · rw [if_pos hdaemon]
            refine if_neg fun hcc => ?_
            exact hno auth token now (hcc ▸ rfl)
          · rw [if_neg hdaemon]
        rw [hsame] at hrec
        exact hk d c hold (by omega)
      · cases heq
        exact absurd ⟨hd'.symm, hrole⟩ hd
  | publish connId client sid ct seq now =>
    have ht : now = clock' := htime now rfl
    subst ht
    exact traffic_onlineKept_iff hk ha hclock (fun c => authedState_apply env core _ c) rfl
      fun d => statusOf_apply hsound env ha nofun nofun d
  | ping connId client now =>
    have ht : now = clock' := htime now rfl
    subst ht
    exact traffic_onlineKept_iff hk ha hclock (fun c => authedState_apply env core _ c) rfl
      fun d => statusOf_apply hsound env ha nofun nofun d
  | close connId now =>
    have ht : now = clock' := htime now rfl
    subst ht
    exact close_onlineKept_iff hsound hk hclock
  | sweep now =>
    have ht : now = clock' := htime now rfl
    subst ht
    refine ⟨fun _ => trivial, fun _ d c hc hrec => ?_⟩
    rcases hasRole_apply hc with ⟨hold, -⟩ | ⟨auth, token, t, heq, -, -⟩
    · have hrec' : now - traffic c ≤ env.staleTimeoutMs := hrec
      obtain ⟨seen, hs⟩ := hk d c hold (by omega)
      have hseen : traffic c ≤ seen := h.trafficSeen d c (true, seen) hold hs
      rw [registry_apply]
      exact ⟨seen, statusOf_checkStale_online hs (by omega)⟩
    · cases heq
  | register daemonId token proof now =>
    exact ⟨fun _ => trivial, fun _ =>
      hquiet rfl (fun d p hs => ⟨p, statusOf_registerOp_kept hs⟩) nofun⟩
  | _ =>
    refine ⟨fun _ => trivial, fun _ => hquiet rfl (fun d p hs => ⟨p, ?_⟩) nofun⟩
    rw [statusOf_apply hsound env ha nofun nofun]
    exact hs

end Steps

/-- An operation carries the time of its event. -/
theorem opTime_effectOf {env : RelayEnv} {s : RelayState} {e : RelayEvent} {t : ℕ}
    (h : opTime (effectOf env s e) = some t) : eventTime e = some t := by
  have hmsg : ∀ core connId now msg, opTime (messageOp env core connId now msg) = some t →
      now = t := by
    intro core connId now msg hm
    cases msg with
    | auth role daemonId token v frontendId =>
      simp only [messageOp] at hm
      split at hm
      · cases hm
      · split at hm
        · exact Option.some_inj.mp hm
        · cases hm
    | authResume token v =>
      simp only [messageOp] at hm
      split at hm
      · cases hm
      · split at hm
        · exact Option.some_inj.mp hm
        · cases hm
    | register daemonId proof token v => exact Option.some_inj.mp hm
    | publish sid ct seq =>
      simp only [messageOp] at hm
      split at hm
      · cases hm
      · exact Option.some_inj.mp hm
    | ping ts =>
      simp only [messageOp] at hm
      split at hm
      · cases hm
      · exact Option.some_inj.mp hm
    | _ => cases hm
  cases e with
  | accept => cases h
  | inbound connId frame clientOk groupOk now =>
    rcases effectOf_inbound_cases env s connId frame clientOk groupOk now with hskip | ⟨msg, heq⟩
    · rw [hskip] at h
      cases h
    · rw [heq] at h
      exact congrArg some (hmsg _ _ _ _ h)
  | teardown connId now =>
    unfold effectOf at h
    dsimp only at h
    split at h
    · exact h
    · cases h
  | forceClose connId now => exact h
  | sweep now => exact h

/-- The background invariant of watched runs. -/
def Watched (w : WatchedRelay) : Prop :=
  Grounded w.relay ∧ PresenceInv w.relay.core w.clock w.traffic w.presence

/-- The invariant also holds of the state an event starts from. -/
theorem presenceInv_baseOf {w : WatchedRelay} (h : Watched w) (e : RelayEvent) :
    PresenceInv (baseOf w.relay e) w.clock w.traffic w.presence := by
  obtain ⟨hreg, hgroups, hauth, -⟩ := baseOf_view w.relay e
  have hrole : ∀ role c d, HasRole (baseOf w.relay e) role c d ↔
      HasRole w.relay.core role c d := by
    intro role c d
    simp only [HasRole, hauth]
  refine ⟨fun c auth hc => ?_, h.2.trafficPast, fun d c p hc hp => ?_, fun d seen hp f hf => ?_⟩
  · rw [RelayCore.InGroup, RelayCore.groupMembers, hgroups]
    exact h.2.inGroup c auth (hauth c ▸ hc)
  · exact h.2.trafficSeen d c p ((hrole _ _ _).mp hc) (hreg ▸ hp)
  · exact h.2.told d seen (hreg ▸ hp) f ((hrole _ _ _).mp hf)

/-- The time after an event is not before the event's operation nor the old clock. -/
theorem clock_step {env : RelayEnv} {w : WatchedRelay} {e : RelayEvent} (hc : ClockForward w e) :
    w.clock ≤ (watchStep env w e).clock ∧
      ∀ t, opTime (effectOf env w.relay e) = some t → t = (watchStep env w e).clock := by
  have hclock : (watchStep env w e).clock = (eventTime e).getD w.clock := rfl
  rw [hclock]
  constructor
  · cases he : eventTime e with
    | none => exact le_refl _
    | some now => exact hc now he
  · intro t ht
    rw [opTime_effectOf ht]
    rfl

/-- Every event under a forward clock keeps the background invariant. -/
theorem watchStep_watched (env : RelayEnv) (w : WatchedRelay) (e : RelayEvent) (h : Watched w)
    (hc : ClockForward w e) : Watched (watchStep env w e) := by
  have hground := relayStep_grounded env w.relay e h.1
  refine ⟨hground, ?_⟩
  have hsound : Sound (baseOf w.relay e).registry := by
    rw [(baseOf_view w.relay e).1]
    exact h.1.2
  have hnext := (presenceInv_baseOf h e).step hsound env (effectOf_admissible h.1.1 env e)
    (clock_step hc).1 (clock_step hc).2
  rw [← relayStep_core, ← relayStep_announce] at hnext
  exact hnext

/-- One event keeps presence truthful exactly when it meets the condition. -/
theorem watchStep_truthful_iff (env : RelayEnv) (w : WatchedRelay) (e : RelayEvent) (h : Watched w)
    (hc : ClockForward w e) (ht : PresenceTruthful env w) :
    PresenceTruthful env (watchStep env w e) ↔ KeepsPresence env w e := by
  rw [presenceTruthful_iff h.2] at ht
  rw [presenceTruthful_iff (watchStep_watched env w e h hc).2]
  obtain ⟨hreg, -, hauth, -⟩ := baseOf_view w.relay e
  have hrole : ∀ role c d, HasRole (baseOf w.relay e) role c d ↔
      HasRole w.relay.core role c d := by
    intro role c d
    simp only [HasRole, hauth]
  have hsound : Sound (baseOf w.relay e).registry := by
    rw [hreg]
    exact h.1.2
  have hkept : OnlineKept env (baseOf w.relay e) w.clock w.traffic := by
    intro d c hcd hrec
    rw [hreg]
    exact ht d c ((hrole _ _ _).mp hcd) hrec
  have hiff := onlineKept_apply_iff (presenceInv_baseOf h e) hsound
    (effectOf_admissible h.1.1 env e) (clock_step hc).1 (clock_step hc).2 hkept
  have hcore : (watchStep env w e).relay.core =
      (effectOf env w.relay e).apply env (baseOf w.relay e) := relayStep_core env w.relay e
  rw [hcore]
  refine hiff.trans ?_
  unfold KeepsPresence
  cases effectOf env w.relay e with
  | close connId now =>
    simp only [OpKeepsPresence, hrole]
    rfl
  | ping connId client now => simp only [OpKeepsPresence, hreg]
  | publish connId client sid ct seq now => simp only [OpKeepsPresence, hreg]
  | _ => exact Iff.rfl

/-- A watched relay at start satisfies the invariant. -/
theorem initial_watched (env : RelayEnv) : Watched (WatchedRelay.initial env) := by
  refine ⟨initial_grounded env, ?_, fun _ => le_refl _, ?_, ?_⟩
  · intro c auth hauth
    cases hauth
  · intro d c p hrole hp
    cases hp
  · intro d seen hp
    cases hp

/-- In a run with a forward clock whose steps all meet the condition presence
is truthful in every state; and a run with a forward clock in which presence
is always truthful has only such steps. -/
theorem presence_truthful (env : RelayEnv) (events : List RelayEvent) :
    (Meets (watchStep env) (fun w e => ClockForward w e ∧ KeepsPresence env w e)
        (WatchedRelay.initial env) events →
      ∀ before, before <+: events →
        PresenceTruthful env (runFrom (watchStep env) (WatchedRelay.initial env) before)) ∧
    (Meets (watchStep env) ClockForward (WatchedRelay.initial env) events →
      (∀ before, before <+: events →
        PresenceTruthful env (runFrom (watchStep env) (WatchedRelay.initial env) before)) →
      Meets (watchStep env) (KeepsPresence env) (WatchedRelay.initial env) events) := by
  have hstart : PresenceTruthful env (WatchedRelay.initial env) := by
    rintro d c ⟨auth, hauth, -⟩
    cases hauth
  have hiff (hclock : Meets (watchStep env) ClockForward (WatchedRelay.initial env) events) :=
    forall_prefix_iff_meets_within (watchStep_watched env) (watchStep_truthful_iff env)
      (initial_watched env) hstart hclock
  constructor
  · intro hm
    obtain ⟨hclock, hkeeps⟩ := meets_and.mp hm
    exact (hiff hclock).mpr hkeeps
  · intro hclock hall
    exact (hiff hclock).mp hall

/-- A daemon authenticates, a frontend follows, the daemon pings. -/
theorem presence_truthful_pinged :
    ∀ before, before <+: [.accept, .accept, say 1 (.register "d" "p" "t" 2) 0,
        say 1 (.auth .daemon "d" "t" 2 none) 1, say 2 (.auth .frontend "d" "t" 2 (some "f")) 2,
        say 1 (.ping none) 40000] →
      PresenceTruthful plainEnv
        (runFrom (watchStep plainEnv) (WatchedRelay.initial plainEnv) before) := by
  refine (presence_truthful plainEnv _).1 ⟨⟨nofun, trivial⟩, ⟨nofun, trivial⟩, ⟨?_, trivial⟩,
    ⟨?_, trivial⟩, ⟨?_, trivial⟩, ⟨?_, fun _ => ?_⟩, trivial⟩
  · intro now h
    exact Nat.zero_le now
  · intro now h
    exact Nat.zero_le now
  · rintro now ⟨rfl⟩
    decide
  · rintro now ⟨rfl⟩
    decide
  · exact (onlineIn_iff _ _).mpr ⟨1, rfl⟩

/-- A replacement connection authenticates before the old one is torn down:
the late close marks the daemon offline. -/
theorem presence_truthful_handover :
    ¬∀ env events, PresenceTruthful env
      (runFrom (watchStep env) (WatchedRelay.initial env) events) := by
  intro h
  have hrun := h plainEnv [.accept, .accept, say 1 (.register "d" "p" "t" 2) 0,
    say 1 (.auth .daemon "d" "t" 2 none) 1, say 2 (.auth .daemon "d" "t" 2 none) 2,
    .teardown 1 3]
  obtain ⟨⟨state, hs, hon⟩, -⟩ := hrun "d" 2 ⟨⟨.daemon, "d", none, ∅⟩, rfl, rfl, rfl⟩ (by
    unfold Recent
    decide)
  have hoff : (state.online, state.lastSeen) = (false, 3) := by
    have hstatus : statusOf (runFrom (watchStep plainEnv) (WatchedRelay.initial plainEnv)
        [.accept, .accept, say 1 (.register "d" "p" "t" 2) 0,
          say 1 (.auth .daemon "d" "t" 2 none) 1, say 2 (.auth .daemon "d" "t" 2 none) 2,
          .teardown 1 3]).relay.core.registry "d" = some (false, 3) := rfl
    rw [statusOf, hs] at hstatus
    exact Option.some_inj.mp hstatus
  rw [hon] at hoff
  cases hoff

end Teleprompter.RelayPresence
