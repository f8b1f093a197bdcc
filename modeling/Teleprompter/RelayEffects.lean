import Teleprompter.RelayConn
import Teleprompter.RelayRegistrySound

/-!
# What one relay event does to the shared state

Every event amounts to at most one operation on the shared state, selected
by the guards of its code path. `effectOf` names that operation,
`relayStep_core` says that the event performs exactly it, and the view
lemmas say once what each operation does to group membership, to the auth
state of connections and to the registry. Invariants are then proved over
operations and not over message handlers.
-/

namespace Teleprompter.RelayEffects

open FiniteDictionary StepRuns RelayServer RelayRegistry RelayRegistrySound RelayConn

/-- An operation on the shared relay state. -/
inductive CoreOp where
  | skip
  | accept (connId : ConnId)
  | register (daemonId token proof : String) (now : ℕ)
  | join (connId : ConnId) (auth : AuthState) (token : Option String) (now : ℕ)
  | publish (connId : ConnId) (client : AuthState) (sid ct : String) (seq now : ℕ)
  | subscribe (connId : ConnId) (sid : String) (after : Option ℕ)
  | unsubscribe (connId : ConnId) (sid : String)
  | ping (connId : ConnId) (client : AuthState) (now : ℕ)
  | close (connId : ConnId) (now : ℕ)
  | sweep (now : ℕ)

/-- The registry call behind an accepted auth; without a token it is a resume. -/
def joinCall (registry : Registry) (auth : AuthState) (token : Option String) (now : ℕ) :
    Except String Registry :=
  match token with
  | some token => registry.handleAuth auth.daemonId token (auth.role = .daemon) now
  | none => registry.handleAuthResume auth.daemonId (auth.role = .daemon) now

/-- The state after an operation. -/
def CoreOp.apply (env : RelayEnv) (core : RelayCore) : CoreOp → RelayCore
  | .skip => core
  | .accept connId => { core with conns := core.conns.insert connId ConnHandle.fresh }
  | .register daemonId token proof now =>
    core.alterRegistry fun r => r.commit (r.handleRegister daemonId token proof now)
  | .join connId auth token now =>
    registerAuthedConn (core.alterRegistry fun r => r.commit (joinCall r auth token now)) connId auth
  | .publish connId client sid ct seq now => (routePublish core connId client sid ct seq now).1
  | .subscribe connId sid after => (routeSubscribe core connId sid after).1
  | .unsubscribe connId sid => routeUnsubscribe core connId sid
  | .ping connId client now => (routePing core connId client none now).1
  | .close connId now => (handleClose core connId now).1
  | .sweep now => (staleSweep env core now).1

/-- The registry accepts this auth or resume. -/
def JoinAccepted (registry : Registry) (auth : AuthState) : Option String → Prop
  | some token => registry.validTokens.lookup token = some auth.daemonId
  | none => auth.daemonId ∈ registry.registrations

/-- The guards an operation has passed when an event performs it. -/
def CoreOp.Admissible (core : RelayCore) : CoreOp → Prop
  | .accept connId => connId ∉ core.conns
  | .join _ auth token _ => JoinAccepted core.registry auth token ∧ auth.subscriptions = ∅
  | .publish connId client _ _ _ _ => core.authedState connId = some client
  | .ping connId client _ => core.authedState connId = some client
  | _ => True

/-- The operation a dispatched message performs. -/
def messageOp (env : RelayEnv) (core : RelayCore) (connId : ConnId) (now : ℕ) :
    RelayClientMessage → CoreOp
  | .auth role daemonId token _ frontendId =>
    if role = .frontend ∧ (frontendId = none ∨ frontendId = some "") then .skip
    else if core.registry.validTokens.lookup token = some daemonId then
      .join connId ⟨role, daemonId, frontendId, ∅⟩ (some token) now
    else .skip
  | .authResume token _ =>
    match env.verify token now with
    | none => .skip
    | some payload =>
      let identity := resumeIdentity payload
      if identity.2.1 ∈ core.registry.registrations then
        .join connId ⟨identity.1, identity.2.1, identity.2.2, ∅⟩ none now
      else .skip
  | .register daemonId proof token _ => .register daemonId token proof now
  | .publish sid ct seq =>
    match core.authedState connId with
    | none => .skip
    | some client => .publish connId client sid ct seq now
  | .subscribe sid after => .subscribe connId sid after
  | .unsubscribe sid => .unsubscribe connId sid
  | .ping _ =>
    match core.authedState connId with
    | none => .skip
    | some client => .ping connId client now
  | _ => .skip

/-- The operation an inbound frame performs, past the pre-auth budget and
both rate limits. -/
def inboundOp (env : RelayEnv) (core : RelayCore) (connId : ConnId) (clientOk groupOk : Bool)
    (now : ℕ) : InboundFrame → CoreOp
  | .message msg =>
    if overPreauthBudget env core connId then .skip
    else if rateChecked core connId msg ∧ ¬(clientOk ∧ groupOk) then .skip
    else messageOp env core connId now msg
  | _ => .skip

/-- The shared state an inbound frame meets after the pre-auth count. -/
def baseOf (s : RelayState) : RelayEvent → RelayCore
  | .inbound _ (.oversized _) _ _ _ => s.core
  | .inbound connId _ _ _ _ =>
    if s.sockets.lookup connId = some .reading then countPreauth s.core connId else s.core
  | _ => s.core

/-- The operation an event performs. -/
def effectOf (env : RelayEnv) (s : RelayState) (e : RelayEvent) : CoreOp :=
  match e with
  | .accept => .accept s.nextConnId
  | .inbound connId frame clientOk groupOk now =>
    if s.sockets.lookup connId = some .reading then
      inboundOp env (baseOf s e) connId clientOk groupOk now frame
    else .skip
  | .teardown connId now => if connId ∈ s.sockets then .close connId now else .skip
  | .forceClose connId now => .close connId now
  | .sweep now => .sweep now

/-- A dispatched message performs exactly the operation named for it. -/
theorem dispatchAdmitted_core (env : RelayEnv) (core : RelayCore) (connId : ConnId) (now : ℕ)
    (msg : RelayClientMessage) :
    (dispatchAdmitted env core connId now msg).1 =
      (messageOp env core connId now msg).apply env core := by
  cases msg with
  | auth role daemonId token v frontendId =>
    have hrole : ¬(role = .daemon) ↔ role = .frontend := by cases role <;> decide
    simp only [dispatchAdmitted, messageOp, RelayConn.handleAuth, decide_eq_true_eq, hrole]
    by_cases hid : role = .frontend ∧ (frontendId = none ∨ frontendId = some "")
    · rw [if_pos hid, if_pos hid]
      rfl
    · rw [if_neg hid, if_neg hid]
      by_cases ht : core.registry.validTokens.lookup token = some daemonId
      · obtain ⟨registrations, hok⟩ := handleAuth_of_valid ht (decide (role = .daemon)) now
        rw [if_pos ht]
        simp only [CoreOp.apply, joinCall, RelayCore.alterRegistry, hok]
        rfl
      · rw [if_neg ht, Registry.handleAuth, if_neg ht]
        rfl
  | authResume token v =>
    simp only [dispatchAdmitted, messageOp, RelayConn.handleAuthResume]
    cases env.verify token now with
    | none => rfl
    | some payload =>
      dsimp only
      by_cases hd : (resumeIdentity payload).2.1 ∈ core.registry.registrations
      · rw [if_pos hd, Registry.handleAuthResume, if_pos hd]
        simp only [CoreOp.apply, joinCall, RelayCore.alterRegistry, Registry.handleAuthResume,
          if_pos hd]
        rfl
      · rw [if_neg hd, Registry.handleAuthResume, if_neg hd]
        rfl
  | register daemonId proof token v =>
    simp only [dispatchAdmitted, messageOp, RelayConn.handleRegister, CoreOp.apply,
      RelayCore.alterRegistry]
    cases core.registry.handleRegister daemonId token proof now <;> rfl
  | publish sid ct seq =>
    simp only [dispatchAdmitted, messageOp]
    cases core.authedState connId <;> rfl
  | keyExchange ct role =>
    simp only [dispatchAdmitted, messageOp]
    cases core.authedState connId <;> rfl
  | subscribe sid after =>
    simp only [dispatchAdmitted, messageOp, CoreOp.apply, routeSubscribe]
    cases core.authedState connId <;> rfl
  | unsubscribe sid => rfl
  | ping ts =>
    simp only [dispatchAdmitted, messageOp]
    cases core.authedState connId <;> rfl
  | push frontendId blob title body level data => rfl
  | pushRegister frontendId token platform => rfl

/-- An inbound frame performs exactly the operation named for it. -/
theorem handleInbound_core (env : RelayEnv) (core : RelayCore) (connId : ConnId)
    (clientOk groupOk : Bool) (now : ℕ) (frame : InboundFrame)
    (hf : ∀ size, frame ≠ .oversized size) :
    (handleInbound env core connId clientOk groupOk now frame).1 =
      (inboundOp env (countPreauth core connId) connId clientOk groupOk now frame).apply env
        (countPreauth core connId) := by
  generalize hc : countPreauth core connId = counted
  cases frame with
  | oversized size => exact absurd rfl (hf size)
  | invalidJson =>
    simp only [handleInbound, inboundOp, hc]
    split <;> rfl
  | unknownType t =>
    simp only [handleInbound, inboundOp, hc]
    split <;> rfl
  | message msg =>
    simp only [handleInbound, inboundOp, hc]
    by_cases hb : overPreauthBudget env counted connId = true
    · rw [if_pos hb, if_pos hb]
      rfl
    · rw [if_neg hb, if_neg hb]
      simp only [dispatchLocked]
      by_cases hr : rateChecked counted connId msg = true ∧ ¬(clientOk = true ∧ groupOk = true)
      · rw [if_pos hr]
        obtain ⟨hrate, hok⟩ := hr
        cases clientOk <;> cases groupOk <;> simp_all [CoreOp.apply]
      · rw [if_neg hr, if_neg fun h => hr ⟨h.1, fun hok => h.2 hok.1⟩,
          if_neg fun h => hr ⟨h.1, fun hok => h.2 hok.2⟩]
        exact dispatchAdmitted_core env counted connId now msg

/-- A close without its presence actions. -/
theorem closeConn_core (core : RelayCore) (connId : ConnId) (now : ℕ) :
    (closeConn core connId now).1 = (handleClose core connId now).1 := by
  unfold closeConn
  dsimp only
  split <;> rfl

/-- Every event performs exactly the operation named for it. -/
theorem relayStep_core (env : RelayEnv) (s : RelayState) (e : RelayEvent) :
    (relayStep env s e).core = (effectOf env s e).apply env (baseOf s e) := by
  cases e with
  | accept => rfl
  | inbound connId frame clientOk groupOk now =>
    simp only [relayStep, relayStepActions, effectOf]
    by_cases hr : s.sockets.lookup connId = some .reading
    · rw [if_pos hr, if_pos hr]
      cases frame with
      | oversized size => rfl
      | invalidJson =>
        simp only [baseOf, if_pos hr]
        exact handleInbound_core env s.core connId clientOk groupOk now .invalidJson (by simp)
      | unknownType t =>
        simp only [baseOf, if_pos hr]
        exact handleInbound_core env s.core connId clientOk groupOk now (.unknownType t) (by simp)
      | message msg =>
        simp only [baseOf, if_pos hr]
        exact handleInbound_core env s.core connId clientOk groupOk now (.message msg) (by simp)
    · rw [if_neg hr, if_neg hr]
      cases frame <;> simp only [baseOf, if_neg hr, CoreOp.apply]
  | teardown connId now =>
    simp only [relayStep, relayStepActions, effectOf, baseOf]
    by_cases hs : connId ∈ s.sockets
    · rw [if_pos hs, if_pos hs]
      exact closeConn_core s.core connId now
    · rw [if_neg hs, if_neg hs]
      rfl
  | forceClose connId now => exact closeConn_core s.core connId now
  | sweep now => rfl

/-- Effect of a subscription on the subscriber; at the cap there is none. -/
def AuthState.subscribed (sid : String) (auth : AuthState) : AuthState :=
  if maxSubscriptionsPerClient ≤ dictSize auth.subscriptions then auth
  else { auth with subscriptions := auth.subscriptions.insert sid () }

/-- Effect of an unsubscription on the subscriber. -/
def AuthState.unsubscribed (sid : String) (auth : AuthState) : AuthState :=
  { auth with subscriptions := auth.subscriptions.erase sid }

/-- Auth states after an operation. -/
def authAfter (core : RelayCore) (op : CoreOp) (c : ConnId) : Option AuthState :=
  match op with
  | .accept connId => if c = connId then none else core.authedState c
  | .join connId auth _ _ =>
    if c = connId ∧ connId ∈ core.conns then some auth else core.authedState c
  | .subscribe connId sid _ =>
    if c = connId then (core.authedState c).map (AuthState.subscribed sid) else core.authedState c
  | .unsubscribe connId sid =>
    if c = connId then (core.authedState c).map (AuthState.unsubscribed sid)
    else core.authedState c
  | .close connId _ => if c = connId then none else core.authedState c
  | _ => core.authedState c

/-- Group membership after an operation. -/
def GroupAfter (core : RelayCore) (op : CoreOp) (daemonId : String) (c : ConnId) : Prop :=
  match op with
  | .join connId auth _ _ => (daemonId = auth.daemonId ∧ c = connId) ∨ core.InGroup daemonId c
  | .close connId _ =>
    core.InGroup daemonId c ∧ ¬(c = connId ∧ core.authDaemon connId = some daemonId)
  | _ => core.InGroup daemonId c

/-- The registry after an operation. -/
def registryAfter (env : RelayEnv) (core : RelayCore) (op : CoreOp) : Registry :=
  match op with
  | .register daemonId token proof now =>
    core.registry.commit (core.registry.handleRegister daemonId token proof now)
  | .join _ auth token now => core.registry.commit (joinCall core.registry auth token now)
  | .publish _ client sid _ _ now =>
    if client.role = .daemon then core.registry.daemonPub client.daemonId sid now
    else core.registry
  | .subscribe connId sid _ =>
    match core.authedState connId with
    | none => core.registry
    | some auth =>
      if dictSize auth.subscriptions < maxSubscriptionsPerClient ∧ auth.role = .frontend ∧
          sid ∉ auth.subscriptions then
        core.registry.alterState auth.daemonId (DaemonState.attach sid)
      else core.registry
  | .unsubscribe connId sid =>
    match core.authedState connId with
    | none => core.registry
    | some auth =>
      if auth.role = .frontend then
        core.registry.alterState auth.daemonId (DaemonState.detach sid)
      else core.registry
  | .ping _ client now =>
    if client.role = .daemon then core.registry.daemonPing client.daemonId now else core.registry
  | .close connId now =>
    match core.authedState connId with
    | none => core.registry
    | some auth =>
      if auth.role = .frontend then
        core.registry.frontendDisconnect auth.daemonId auth.subscriptions.keys
      else core.registry.daemonDisconnect auth.daemonId now
  | .sweep now =>
    (core.registry.checkStaleDaemons now env.staleTimeoutMs env.offlineEvictMs).1
  | _ => core.registry

/-- The pre-auth count is invisible to auth states. -/
@[simp] theorem authedState_countPreauth (core : RelayCore) (connId c : ConnId) :
    (countPreauth core connId).authedState c = core.authedState c := by
  simp only [RelayCore.authedState, countPreauth, lookup_alterKey]
  split
  · cases core.conns.lookup c with
    | none => rfl
    | some handle =>
      dsimp only [Option.map_some, Option.bind_some]
      split <;> rfl
  · rfl

/-- A changed auth state is visible at its own connection. -/
theorem authedState_alterAuth (core : RelayCore) (connId c : ConnId) (f : AuthState → AuthState) :
    (core.alterAuth connId f).authedState c =
      if c = connId then (core.authedState c).map f else core.authedState c := by
  simp only [RelayCore.authedState, RelayCore.alterAuth, lookup_alterKey]
  split
  · cases core.conns.lookup c <;> rfl
  · rfl

/-- Dropping the cache of evicted daemons changes neither connections nor groups. -/
theorem dropEvicted_fold (daemonIds : List String) (core : RelayCore) :
    (daemonIds.foldl dropEvicted core).conns = core.conns ∧
      (daemonIds.foldl dropEvicted core).groups = core.groups ∧
      (daemonIds.foldl dropEvicted core).registry = core.registry := by
  induction daemonIds generalizing core with
  | nil => exact ⟨rfl, rfl, rfl⟩
  | cons daemonId daemonIds ih => exact ih (dropEvicted core daemonId)

/-- Seeding a limiter changes neither connections, groups nor the registry. -/
theorem seedGroupLimiter_view (core : RelayCore) (daemonId : String) :
    (core.seedGroupLimiter daemonId).conns = core.conns ∧
      (core.seedGroupLimiter daemonId).groups = core.groups ∧
      (core.seedGroupLimiter daemonId).registry = core.registry := by
  unfold RelayCore.seedGroupLimiter
  split <;> exact ⟨rfl, rfl, rfl⟩

/-- Leaving a group changes neither connections nor the registry. -/
theorem removeFromGroup_view (core : RelayCore) (daemonId : String) (connId : ConnId) :
    (core.removeFromGroup daemonId connId).conns = core.conns ∧
      (core.removeFromGroup daemonId connId).registry = core.registry := by
  unfold RelayCore.removeFromGroup
  split
  · exact ⟨rfl, rfl⟩
  · split <;> exact ⟨rfl, rfl⟩

/-- Leaving a group removes one member of one group. -/
theorem inGroup_removeFromGroup (core : RelayCore) (daemonId d : String) (connId c : ConnId) :
    (core.removeFromGroup daemonId connId).InGroup d c ↔
      core.InGroup d c ∧ ¬(c = connId ∧ d = daemonId) := by
  unfold RelayCore.removeFromGroup RelayCore.InGroup RelayCore.groupMembers
  by_cases hd : d = daemonId
  · subst hd
    cases hg : core.groups.lookup d with
    | none =>
      dsimp only
      rw [hg]
      simp
    | some group =>
      have hkeys : ∀ k, k ∈ (group.erase connId).keys ↔ k ∈ group.keys ∧ k ≠ connId := by
        intro k
        rw [← AList.mem_keys, AList.mem_erase, ← AList.mem_keys, and_comm]
      dsimp only
      split
      · next hempty =>
        have hnone := hkeys c
        rw [hempty] at hnone
        simp only [lookup_erase_eq, if_true, Option.getD_none, Option.getD_some]
        simp only [List.not_mem_nil, false_iff, not_and, not_not] at hnone
        constructor
        · intro h
          simp at h
        · rintro ⟨hc, hne⟩
          exact absurd ⟨hnone hc, trivial⟩ hne
      · simp only [lookup_insert_eq, if_true, Option.getD_some]
        rw [hkeys c]
        simp
  · have hsame : ∀ core' : RelayCore, core'.groups.lookup d = core.groups.lookup d →
        (c ∈ ((core'.groups.lookup d).getD ∅).keys ↔
          c ∈ ((core.groups.lookup d).getD ∅).keys ∧ ¬(c = connId ∧ d = daemonId)) := by
      intro core' h
      rw [h]
      exact ⟨fun hc => ⟨hc, fun hcd => hd hcd.2⟩, And.left⟩
    apply hsame
    split
    · rfl
    · split
      · simp only [lookup_erase_eq, if_neg hd]
      · simp only [lookup_insert_eq, if_neg hd]

/-- Joining a group adds one member to one group. -/
theorem inGroup_addToGroup (core : RelayCore) (daemonId d : String) (connId c : ConnId) :
    (core.addToGroup daemonId connId).InGroup d c ↔
      (d = daemonId ∧ c = connId) ∨ core.InGroup d c := by
  unfold RelayCore.addToGroup RelayCore.InGroup RelayCore.groupMembers
  simp only [lookup_insert_eq]
  split
  · next hd =>
    rw [Option.getD_some, ← AList.mem_keys, AList.mem_insert, hd, ← AList.mem_keys]
    simp
  · next hd => simp [hd]

/-- Auth states after an accepted auth. -/
theorem authedState_registerAuthedConn (core : RelayCore) (connId c : ConnId) (auth : AuthState) :
    (registerAuthedConn core connId auth).authedState c =
      if c = connId ∧ connId ∈ core.conns then some auth else core.authedState c := by
  have hconns := (seedGroupLimiter_view core auth.daemonId).1
  simp only [RelayCore.authedState, registerAuthedConn, lookup_alterKey, RelayCore.addToGroup,
    hconns]
  by_cases hc : c = connId
  · subst hc
    cases hl : core.conns.lookup c with
    | none => simp [AList.lookup_eq_none.mp hl]
    | some handle => simp [mem_iff_lookup.mpr ⟨handle, hl⟩]
  · rw [if_neg hc, if_neg fun h => hc h.1]

/-- A close removes its connection from the table. -/
theorem conns_handleClose (core : RelayCore) (connId : ConnId) (now : ℕ) :
    ((handleClose core connId now).1).conns = core.conns.erase connId := by
  unfold handleClose
  cases hl : core.conns.lookup connId with
  | none =>
    dsimp only
    exact (AList.ext (List.kerase_of_notMem_keys (List.dlookup_eq_none.mp hl))).symm
  | some handle =>
    dsimp only
    cases handle.auth with
    | none => rfl
    | some auth =>
      dsimp only
      have hgone := fun core' : RelayCore => (removeFromGroup_view core' auth.daemonId connId).1
      split
      · exact (hgone _).trans (by split <;> rfl)
      · exact (hgone _).trans (by split <;> rfl)

/-- An operation changes auth states as `authAfter` says. -/
theorem authedState_apply (env : RelayEnv) (core : RelayCore) (op : CoreOp) (c : ConnId) :
    (op.apply env core).authedState c = authAfter core op c := by
  cases op with
  | skip => rfl
  | accept connId =>
    simp only [CoreOp.apply, authAfter, RelayCore.authedState, lookup_insert_eq]
    split <;> rfl
  | register daemonId token proof now => rfl
  | join connId auth token now =>
    simp only [CoreOp.apply, authAfter, authedState_registerAuthedConn]
    rfl
  | publish connId client sid ct seq now =>
    simp only [CoreOp.apply, authAfter, routePublish]
    split <;> rfl
  | subscribe connId sid after =>
    simp only [CoreOp.apply, authAfter, routeSubscribe]
    cases hauth : core.authedState connId with
    | none =>
      dsimp only
      split
      · next hc => rw [hc, hauth, Option.map_none]
      · rfl
    | some auth =>
      dsimp only
      by_cases hcap : maxSubscriptionsPerClient ≤ dictSize auth.subscriptions
      · rw [if_pos hcap]
        split
        · next hc => rw [hc, hauth, Option.map_some, AuthState.subscribed, if_pos hcap]
        · rfl
      · rw [if_neg hcap]
        have hview : ∀ core' : RelayCore, core'.conns = (core.alterAuth connId fun a =>
            { a with subscriptions := a.subscriptions.insert sid () }).conns →
            core'.authedState c = if c = connId then
              (core.authedState c).map (AuthState.subscribed sid) else core.authedState c := by
          intro core' h
          have hkeep := authedState_alterAuth core connId c fun a =>
            { a with subscriptions := a.subscriptions.insert sid () }
          rw [RelayCore.authedState, h]
          refine hkeep.trans ?_
          split
          · next hc =>
            rw [hc, hauth, Option.map_some, Option.map_some, AuthState.subscribed, if_neg hcap]
          · rfl
        apply hview
        split <;> rfl
  | unsubscribe connId sid =>
    simp only [CoreOp.apply, authAfter, routeUnsubscribe]
    cases hauth : core.authedState connId with
    | none =>
      dsimp only
      split
      · next hc => rw [hc, hauth, Option.map_none]
      · rfl
    | some auth =>
      have hkeep := authedState_alterAuth core connId c (AuthState.unsubscribed sid)
      dsimp only
      split
      · exact hkeep
      · exact hkeep
  | ping connId client now =>
    simp only [CoreOp.apply, authAfter, routePing]
    split <;> rfl
  | close connId now =>
    simp only [CoreOp.apply, authAfter, RelayCore.authedState, conns_handleClose, lookup_erase_eq]
    split <;> rfl
  | sweep now =>
    simp only [CoreOp.apply, authAfter, staleSweep, RelayCore.authedState, dropEvicted_fold]

/-- An operation changes group membership as `GroupAfter` says. -/
theorem inGroup_apply (env : RelayEnv) (core : RelayCore) (op : CoreOp) (d : String) (c : ConnId) :
    (op.apply env core).InGroup d c ↔ GroupAfter core op d c := by
  have hsame : ∀ core' : RelayCore, core'.groups = core.groups →
      (core'.InGroup d c ↔ core.InGroup d c) := by
    intro core' h
    rw [RelayCore.InGroup, RelayCore.groupMembers, h]
    rfl
  cases op with
  | skip => rfl
  | accept connId => rfl
  | register daemonId token proof now => rfl
  | join connId auth token now =>
    have hadd := inGroup_addToGroup ((core.alterRegistry fun r =>
      r.commit (joinCall r auth token now)).seedGroupLimiter auth.daemonId) auth.daemonId d connId c
    have hseed := hsame ((core.alterRegistry fun r =>
      r.commit (joinCall r auth token now)).seedGroupLimiter auth.daemonId)
      (seedGroupLimiter_view _ auth.daemonId).2.1
    exact hadd.trans (or_congr_right hseed)
  | publish connId client sid ct seq now =>
    apply hsame
    simp only [CoreOp.apply, routePublish]
    split <;> rfl
  | subscribe connId sid after =>
    apply hsame
    simp only [CoreOp.apply, routeSubscribe]
    cases core.authedState connId with
    | none => rfl
    | some auth =>
      dsimp only
      split
      · rfl
      · split <;> rfl
  | unsubscribe connId sid =>
    apply hsame
    simp only [CoreOp.apply, routeUnsubscribe]
    cases core.authedState connId with
    | none => rfl
    | some auth =>
      dsimp only
      split <;> rfl
  | ping connId client now =>
    apply hsame
    simp only [CoreOp.apply, routePing]
    split <;> rfl
  | close connId now =>
    simp only [CoreOp.apply, GroupAfter, handleClose, RelayCore.authDaemon, RelayCore.authedState]
    cases core.conns.lookup connId with
    | none => simp
    | some handle =>
      dsimp only [Option.bind_some]
      cases handle.auth with
      | none =>
        dsimp only [Option.map_none]
        rw [hsame { core with conns := core.conns.erase connId } rfl]
        simp
      | some auth =>
        dsimp only [Option.map_some]
        have hleave : ∀ core' : RelayCore, core'.groups = core.groups →
            ((core'.removeFromGroup auth.daemonId connId).InGroup d c ↔
              core.InGroup d c ∧ ¬(c = connId ∧ some auth.daemonId = some d)) := by
          intro core' h
          rw [inGroup_removeFromGroup, hsame core' h, Option.some_inj, eq_comm (a := d)]
        split
        · exact hleave _ (by split <;> rfl)
        · exact hleave _ (by split <;> rfl)
  | sweep now =>
    apply hsame
    simp only [CoreOp.apply, staleSweep, dropEvicted_fold]

/-- An operation changes the registry as `registryAfter` says. -/
theorem registry_apply (env : RelayEnv) (core : RelayCore) (op : CoreOp) :
    (op.apply env core).registry = registryAfter env core op := by
  cases op with
  | skip => rfl
  | accept connId => rfl
  | register daemonId token proof now => rfl
  | join connId auth token now =>
    exact (seedGroupLimiter_view (core.alterRegistry fun r =>
      r.commit (joinCall r auth token now)) auth.daemonId).2.2
  | publish connId client sid ct seq now =>
    simp only [CoreOp.apply, registryAfter, routePublish]
    split <;> rfl
  | subscribe connId sid after =>
    simp only [CoreOp.apply, registryAfter, routeSubscribe]
    cases core.authedState connId with
    | none => rfl
    | some auth =>
      dsimp only
      by_cases hcap : maxSubscriptionsPerClient ≤ dictSize auth.subscriptions
      · rw [if_pos hcap, if_neg fun h => absurd h.1 (not_lt.mpr hcap)]
      · rw [if_neg hcap]
        by_cases hfresh : auth.role = .frontend ∧ sid ∉ auth.subscriptions
        · rw [if_pos hfresh, if_pos ⟨not_le.mp hcap, hfresh⟩]
          rfl
        · rw [if_neg hfresh, if_neg fun h => hfresh h.2]
          rfl
  | unsubscribe connId sid =>
    simp only [CoreOp.apply, registryAfter, routeUnsubscribe]
    cases core.authedState connId with
    | none => rfl
    | some auth =>
      dsimp only
      split <;> rfl
  | ping connId client now =>
    simp only [CoreOp.apply, registryAfter, routePing]
    split <;> rfl
  | close connId now =>
    simp only [CoreOp.apply, registryAfter, handleClose, RelayCore.authedState]
    cases core.conns.lookup connId with
    | none => rfl
    | some handle =>
      dsimp only [Option.bind_some]
      cases handle.auth with
      | none => rfl
      | some auth =>
        dsimp only
        cases hrole : auth.role with
        | daemon =>
          simp only [reduceCtorEq, if_true, if_false, RelayCore.alterRegistry,
            (removeFromGroup_view _ auth.daemonId connId).2]
        | frontend =>
          simp only [reduceCtorEq, if_true, if_false, RelayCore.alterRegistry,
            (removeFromGroup_view _ auth.daemonId connId).2]
  | sweep now =>
    simp only [CoreOp.apply, registryAfter, staleSweep, dropEvicted_fold]

/-- Registered connections after an operation. -/
def ConnsAfter (core : RelayCore) (op : CoreOp) (c : ConnId) : Prop :=
  match op with
  | .accept connId => c = connId ∨ c ∈ core.conns
  | .close connId _ => c ≠ connId ∧ c ∈ core.conns
  | _ => c ∈ core.conns

/-- An operation registers and removes connections as `ConnsAfter` says. -/
theorem mem_conns_apply (env : RelayEnv) (core : RelayCore) (op : CoreOp) (c : ConnId) :
    c ∈ (op.apply env core).conns ↔ ConnsAfter core op c := by
  cases op with
  | skip => rfl
  | accept connId => exact AList.mem_insert core.conns
  | register daemonId token proof now => rfl
  | join connId auth token now =>
    simp only [CoreOp.apply, ConnsAfter, registerAuthedConn, RelayCore.addToGroup]
    rw [mem_alterKey, (seedGroupLimiter_view _ auth.daemonId).1]
    rfl
  | publish connId client sid ct seq now =>
    simp only [CoreOp.apply, ConnsAfter, routePublish]
    split <;> rfl
  | subscribe connId sid after =>
    simp only [CoreOp.apply, ConnsAfter, routeSubscribe]
    cases core.authedState connId with
    | none => rfl
    | some auth =>
      dsimp only
      split
      · rfl
      · split <;> exact mem_alterKey
  | unsubscribe connId sid =>
    simp only [CoreOp.apply, ConnsAfter, routeUnsubscribe]
    cases core.authedState connId with
    | none => rfl
    | some auth =>
      dsimp only
      split <;> exact mem_alterKey
  | ping connId client now =>
    simp only [CoreOp.apply, ConnsAfter, routePing]
    split <;> rfl
  | close connId now =>
    simp only [CoreOp.apply, ConnsAfter]
    rw [conns_handleClose]
    exact AList.mem_erase
  | sweep now =>
    simp only [CoreOp.apply, ConnsAfter, staleSweep, dropEvicted_fold]

/-- The state an event starts from shows the same registry, groups, auth
states and connections as the state before it. -/
theorem baseOf_view (s : RelayState) (e : RelayEvent) :
    (baseOf s e).registry = s.core.registry ∧ (baseOf s e).groups = s.core.groups ∧
      (∀ c, (baseOf s e).authedState c = s.core.authedState c) ∧
      ∀ c, c ∈ (baseOf s e).conns ↔ c ∈ s.core.conns := by
  unfold baseOf
  split
  · exact ⟨rfl, rfl, fun _ => rfl, fun _ => Iff.rfl⟩
  · split
    · exact ⟨rfl, rfl, authedState_countPreauth s.core _, fun _ => mem_alterKey⟩
    · exact ⟨rfl, rfl, fun _ => rfl, fun _ => Iff.rfl⟩
  · exact ⟨rfl, rfl, fun _ => rfl, fun _ => Iff.rfl⟩

/-- Registered connections carry identifiers that were handed out before. -/
def FreshIds (s : RelayState) : Prop := ∀ c ∈ s.core.conns, c < s.nextConnId

/-- A dispatched message performs an operation whose guards hold. -/
theorem messageOp_admissible (env : RelayEnv) (core : RelayCore) (connId : ConnId) (now : ℕ)
    (msg : RelayClientMessage) : (messageOp env core connId now msg).Admissible core := by
  cases msg with
  | auth role daemonId token v frontendId =>
    simp only [messageOp]
    split
    · trivial
    · split
      · next ht => exact ⟨ht, rfl⟩
      · trivial
  | authResume token v =>
    simp only [messageOp]
    split
    · trivial
    · split
      · next hd => exact ⟨hd, rfl⟩
      · trivial
  | publish sid ct seq =>
    simp only [messageOp]
    split
    · trivial
    · next hauth => exact hauth
  | ping ts =>
    simp only [messageOp]
    split
    · trivial
    · next hauth => exact hauth
  | _ => trivial

/-- Messages neither register nor remove connections. -/
theorem messageOp_keeps_conns {env : RelayEnv} {core : RelayCore} {connId : ConnId} {now : ℕ}
    {msg : RelayClientMessage} {c : ConnId}
    (h : ConnsAfter core (messageOp env core connId now msg) c) : c ∈ core.conns := by
  cases msg with
  | auth role daemonId token v frontendId =>
    simp only [messageOp] at h
    split at h
    · exact h
    · split at h <;> exact h
  | authResume token v =>
    simp only [messageOp] at h
    split at h
    · exact h
    · split at h <;> exact h
  | publish sid ct seq =>
    simp only [messageOp] at h
    split at h <;> exact h
  | ping ts =>
    simp only [messageOp] at h
    split at h <;> exact h
  | _ => exact h

/-- An inbound frame performs nothing or the operation of a message. -/
theorem effectOf_inbound_cases (env : RelayEnv) (s : RelayState) (connId : ConnId)
    (frame : InboundFrame) (clientOk groupOk : Bool) (now : ℕ) :
    effectOf env s (.inbound connId frame clientOk groupOk now) = .skip ∨
      ∃ msg, effectOf env s (.inbound connId frame clientOk groupOk now) =
        messageOp env (baseOf s (.inbound connId frame clientOk groupOk now)) connId now msg := by
  unfold effectOf
  dsimp only
  split
  · cases frame with
    | message msg =>
      dsimp only [inboundOp]
      split
      · exact .inl rfl
      · split
        · exact .inl rfl
        · exact .inr ⟨msg, rfl⟩
    | _ => exact .inl rfl
  · exact .inl rfl

/-- Inbound frames neither register nor remove connections. -/
theorem inbound_keeps_conns {env : RelayEnv} {s : RelayState} {connId : ConnId}
    {frame : InboundFrame} {clientOk groupOk : Bool} {now : ℕ} {c : ConnId}
    (h : ConnsAfter (baseOf s (.inbound connId frame clientOk groupOk now))
      (effectOf env s (.inbound connId frame clientOk groupOk now)) c) :
    c ∈ (baseOf s (.inbound connId frame clientOk groupOk now)).conns := by
  rcases effectOf_inbound_cases env s connId frame clientOk groupOk now with hskip | ⟨msg, hmsg⟩
  · rw [hskip] at h
    exact h
  · rw [hmsg] at h
    exact messageOp_keeps_conns h

/-- An event performs an operation whose guards hold. -/
theorem effectOf_admissible {s : RelayState} (hs : FreshIds s) (env : RelayEnv) (e : RelayEvent) :
    (effectOf env s e).Admissible (baseOf s e) := by
  cases e with
  | accept => exact fun h => absurd (hs _ h) (lt_irrefl _)
  | inbound connId frame clientOk groupOk now =>
    rcases effectOf_inbound_cases env s connId frame clientOk groupOk now with hskip | ⟨msg, hmsg⟩
    · rw [hskip]
      trivial
    · rw [hmsg]
      exact messageOp_admissible env _ connId now msg
  | teardown connId now =>
    unfold effectOf
    dsimp only
    split <;> trivial
  | forceClose connId now => trivial
  | sweep now => trivial

/-- Every event keeps identifiers fresh. -/
theorem relayStep_freshIds (env : RelayEnv) (s : RelayState) (e : RelayEvent) (hs : FreshIds s) :
    FreshIds (relayStep env s e) := by
  intro c hc
  rw [relayStep_core, mem_conns_apply] at hc
  have hbase := (baseOf_view s e).2.2.2
  cases e with
  | accept =>
    change c < s.nextConnId + 1
    rcases hc with hc | hc
    · exact hc ▸ Nat.lt_succ_self _
    · exact Nat.lt_succ_of_lt (hs c hc)
  | inbound connId frame clientOk groupOk now =>
    have hnext : (relayStep env s (.inbound connId frame clientOk groupOk now)).nextConnId =
        s.nextConnId := by
      simp only [relayStep, relayStepActions]
      split <;> rfl
    rw [hnext]
    exact hs c ((hbase c).mp (inbound_keeps_conns hc))
  | teardown connId now =>
    have hnext : (relayStep env s (.teardown connId now)).nextConnId = s.nextConnId := by
      simp only [relayStep, relayStepActions]
      split <;> rfl
    rw [hnext]
    unfold effectOf at hc
    dsimp only at hc
    split at hc
    · exact hs c hc.2
    · exact hs c hc
  | forceClose connId now => exact hs c hc.2
  | sweep now => exact hs c hc

/-- Every relay operation keeps the registry sound. -/
theorem registryAfter_sound {core : RelayCore} (h : Sound core.registry) (env : RelayEnv)
    (op : CoreOp) : Sound (registryAfter env core op) := by
  cases op with
  | register daemonId token proof now =>
    exact apply_sound core.registry (.register daemonId token proof now) h
  | join connId auth token now =>
    cases token with
    | some token =>
      exact apply_sound core.registry (.auth auth.daemonId token (auth.role = .daemon) now) h
    | none =>
      exact apply_sound core.registry (.authResume auth.daemonId (auth.role = .daemon) now) h
  | publish connId client sid ct seq now =>
    simp only [registryAfter]
    split
    · exact apply_sound core.registry (.daemonPub client.daemonId sid now) h
    · exact h
  | subscribe connId sid after =>
    simp only [registryAfter]
    split
    · exact h
    · split
      · exact alterState_sound h _ fun _ => rfl
      · exact h
  | unsubscribe connId sid =>
    simp only [registryAfter]
    split
    · exact h
    · split
      · exact alterState_sound h _ (detach_registrationToken sid)
      · exact h
  | ping connId client now =>
    simp only [registryAfter]
    split
    · exact apply_sound core.registry (.daemonPing client.daemonId now) h
    · exact h
  | close connId now =>
    simp only [registryAfter]
    split
    · exact h
    · next auth _ =>
      split
      · exact apply_sound core.registry
          (.frontendDisconnect auth.daemonId auth.subscriptions.keys) h
      · exact apply_sound core.registry (.daemonDisconnect auth.daemonId now) h
  | sweep now =>
    exact apply_sound core.registry (.checkStale now env.staleTimeoutMs env.offlineEvictMs) h
  | _ => exact h

/-- What every run keeps: fresh identifiers and a sound registry. -/
def Grounded (s : RelayState) : Prop := FreshIds s ∧ Sound s.core.registry

/-- Every event keeps a relay grounded. -/
theorem relayStep_grounded (env : RelayEnv) (s : RelayState) (e : RelayEvent) (h : Grounded s) :
    Grounded (relayStep env s e) := by
  refine ⟨relayStep_freshIds env s e h.1, ?_⟩
  rw [relayStep_core, registry_apply]
  refine registryAfter_sound ?_ env _
  rw [(baseOf_view s e).1]
  exact h.2

/-- A relay at start is grounded. -/
theorem initial_grounded (env : RelayEnv) : Grounded (RelayState.initial env) :=
  ⟨fun c hc => absurd hc (AList.notMem_empty c), withMaxRegistrations_sound env.maxRegistrations⟩

end Teleprompter.RelayEffects
