import Teleprompter.RelayEffects

/-!
# Tenant isolation of the relay

Routing looks up the group of a daemon and, for each member, the auth state
of its connection. Isolation says that the two agree: a connection is in the
group of a daemon exactly when it is registered and authenticated for that
daemon. Group membership is granted by every accepted auth, also when the
connection already belongs to another daemon or has been removed from the
table by a forced close. The main result is exact: isolation holds throughout
a run if and only if no accepted auth of the run is of that kind.
-/

namespace Teleprompter.RelayIsolation

open FiniteDictionary StepRuns RelayServer RelayRegistry RelayConn RelayEffects

/-- All messages among the actions go to connections authenticated for the daemon. -/
def AddressedTo (core : RelayCore) (daemonId : String) (actions : List Action) : Prop :=
  ∀ target msg, .send target msg ∈ actions → core.authDaemon target = some daemonId

/-- Groups and auth states agree, and routing stays inside one daemon. -/
structure TenantIsolated (core : RelayCore) : Prop where
  /-- Group members are the registered connections authenticated for the daemon. -/
  membership : ∀ daemonId c,
    core.InGroup daemonId c ↔ c ∈ core.conns ∧ core.authDaemon c = some daemonId
  /-- Published frames go to connections of the publisher's daemon. -/
  published : ∀ sender client sid ct seq now,
    AddressedTo core client.daemonId (routePublish core sender client sid ct seq now).2
  /-- Key exchange frames go to connections of the sender's daemon. -/
  keyExchanged : ∀ sender client ct,
    AddressedTo core client.daemonId (routeKeyExchange core sender client ct)
  /-- Presence of a daemon goes to connections of that daemon. -/
  announced : ∀ daemonId, AddressedTo core daemonId (presenceActions core daemonId)

/-- Groups agree with auth states; registration follows from being authenticated. -/
def GroupsMatch (core : RelayCore) : Prop :=
  ∀ daemonId c, core.InGroup daemonId c ↔ core.authDaemon c = some daemonId

/-- An authenticated connection is registered. -/
theorem mem_conns_of_authDaemon {core : RelayCore} {c : ConnId} {daemonId : String}
    (h : core.authDaemon c = some daemonId) : c ∈ core.conns := by
  rw [mem_iff_lookup]
  cases hl : core.conns.lookup c with
  | none => simp [RelayCore.authDaemon, RelayCore.authedState, hl] at h
  | some handle => exact ⟨handle, rfl⟩

/-- Peers selected from a group that matches are authenticated for the daemon. -/
theorem authDaemon_of_peer {core : RelayCore} (h : GroupsMatch core) {daemonId : String}
    {p : AuthState → Bool} {peer : ConnId} (hp : peer ∈ core.peersWhere daemonId p) :
    core.authDaemon peer = some daemonId :=
  (h daemonId peer).mp (List.mem_filter.mp hp).1

/-- Agreement of groups and auth states is all there is to isolation. -/
theorem tenantIsolated_iff (core : RelayCore) : TenantIsolated core ↔ GroupsMatch core := by
  constructor
  · intro h daemonId c
    rw [h.membership]
    exact ⟨And.right, fun hc => ⟨mem_conns_of_authDaemon hc, hc⟩⟩
  · intro h
    refine ⟨fun daemonId c => ?_, ?_, ?_, ?_⟩
    · rw [h daemonId c]
      exact ⟨fun hc => ⟨mem_conns_of_authDaemon hc, hc⟩, And.right⟩
    · intro sender client sid ct seq now target msg hsend
      simp only [routePublish] at hsend
      obtain ⟨peer, hpeer, heq⟩ := List.mem_map.mp hsend
      cases heq
      have hin := (List.mem_filter.mp hpeer).1
      have hview : ∀ core' : RelayCore, core'.conns = core.conns → core'.groups = core.groups →
          target ∈ core'.peersWhere client.daemonId (fun auth => sid ∈ auth.subscriptions) →
          target ∈ core.peersWhere client.daemonId fun auth => sid ∈ auth.subscriptions := by
        intro core' hconns hgroups hm
        simpa only [RelayCore.peersWhere, RelayCore.groupMembers, RelayCore.authedState, hconns,
          hgroups] using hm
      refine authDaemon_of_peer h (hview _ ?_ ?_ hin)
      · split <;> rfl
      · split <;> rfl
    · intro sender client ct target msg hsend
      obtain ⟨peer, hpeer, heq⟩ := List.mem_map.mp hsend
      cases heq
      exact authDaemon_of_peer h (List.mem_filter.mp hpeer).1
    · intro daemonId target msg hsend
      unfold presenceActions at hsend
      split at hsend
      · cases hsend
      · obtain ⟨peer, hpeer, heq⟩ := List.mem_map.mp hsend
        cases heq
        exact authDaemon_of_peer h hpeer

/-- An accepted auth is on a registered connection that is unauthenticated or
belongs to the same daemon. Every other event passes. -/
def JoinsOwnGroup (env : RelayEnv) (s : RelayState) (e : RelayEvent) : Prop :=
  match effectOf env s e with
  | .join connId auth _ _ => connId ∈ s.core.conns ∧
      (s.core.authDaemon connId = none ∨ s.core.authDaemon connId = some auth.daemonId)
  | _ => True

/-- Group agreement after an operation, in terms of the views of the operation. -/
theorem groupsMatch_apply_iff (env : RelayEnv) (core : RelayCore) (op : CoreOp) :
    GroupsMatch (op.apply env core) ↔
      ∀ daemonId c, GroupAfter core op daemonId c ↔
        (authAfter core op c).map AuthState.daemonId = some daemonId := by
  unfold GroupsMatch
  simp only [inGroup_apply, RelayCore.authDaemon, authedState_apply]

/-- An accepted auth keeps groups and auth states in agreement exactly when it
is on a registered connection that does not change daemons. -/
theorem join_groupsMatch_iff {core : RelayCore} (h : GroupsMatch core) (env : RelayEnv)
    (connId : ConnId) (auth : AuthState) (token : Option String) (now : ℕ) :
    GroupsMatch ((CoreOp.join connId auth token now).apply env core) ↔
      connId ∈ core.conns ∧
        (core.authDaemon connId = none ∨ core.authDaemon connId = some auth.daemonId) := by
  rw [groupsMatch_apply_iff]
  simp only [GroupAfter, authAfter]
  constructor
  · intro hnext
    have hin := (hnext auth.daemonId connId).mp (.inl ⟨rfl, rfl⟩)
    by_cases hreg : connId ∈ core.conns
    · refine ⟨hreg, ?_⟩
      cases hold : core.authDaemon connId with
      | none => exact .inl rfl
      | some old =>
        have hkept := (hnext old connId).mp (.inr ((h old connId).mpr hold))
        rw [if_pos ⟨rfl, hreg⟩, Option.map_some] at hkept
        exact .inr hkept.symm
    · rw [if_neg fun hc => hreg hc.2] at hin
      exact absurd (mem_conns_of_authDaemon hin) hreg
  · rintro ⟨hreg, hown⟩ daemonId c
    by_cases hc : c = connId
    · subst hc
      rw [if_pos ⟨rfl, hreg⟩, Option.map_some, Option.some_inj, h daemonId c]
      rcases hown with hown | hown
      · rw [hown]
        simp [eq_comm]
      · rw [hown, Option.some_inj]
        simp [eq_comm]
    · rw [if_neg fun hcc => hc hcc.1, h daemonId c]
      simp only [hc, and_false, false_or]
      rfl

/-- Operations other than an accepted auth keep groups and auth states in agreement. -/
theorem apply_groupsMatch {core : RelayCore} (h : GroupsMatch core) (env : RelayEnv) {op : CoreOp}
    (ha : op.Admissible core) (hjoin : ∀ connId auth token now, op ≠ .join connId auth token now) :
    GroupsMatch (op.apply env core) := by
  rw [groupsMatch_apply_iff]
  intro daemonId c
  cases op with
  | accept connId =>
    simp only [GroupAfter, authAfter]
    rw [h daemonId c]
    split
    · next hc =>
      subst hc
      refine ⟨fun hauth => absurd (mem_conns_of_authDaemon hauth) ha, fun hnone => ?_⟩
      cases hnone
    · rfl
  | join connId auth token now => exact absurd rfl (hjoin connId auth token now)
  | subscribe connId sid after =>
    simp only [GroupAfter, authAfter]
    rw [h daemonId c]
    split
    · rw [Option.map_map, RelayCore.authDaemon]
      have hkeep : AuthState.daemonId ∘ AuthState.subscribed sid = AuthState.daemonId := by
        funext auth
        simp only [Function.comp_apply, AuthState.subscribed]
        split <;> rfl
      rw [hkeep]
    · rfl
  | unsubscribe connId sid =>
    simp only [GroupAfter, authAfter]
    rw [h daemonId c]
    split
    · rw [Option.map_map]
      rfl
    · rfl
  | close connId now =>
    simp only [GroupAfter, authAfter]
    rw [h daemonId c]
    split
    · next hc =>
      subst hc
      simp
    · next hc =>
      simp only [hc, false_and, not_false_eq_true, and_true]
      rfl
  | _ => exact h daemonId c

/-- The state an event starts from is isolated when the state before it is. -/
theorem groupsMatch_baseOf {s : RelayState} (h : GroupsMatch s.core) (e : RelayEvent) :
    GroupsMatch (baseOf s e) := by
  obtain ⟨-, hgroups, hauth, -⟩ := baseOf_view s e
  intro daemonId c
  rw [RelayCore.authDaemon, hauth, RelayCore.InGroup, RelayCore.groupMembers, hgroups]
  exact h daemonId c

/-- One event keeps an isolated relay isolated exactly when it meets the condition. -/
theorem relayStep_groupsMatch_iff (env : RelayEnv) (s : RelayState) (e : RelayEvent)
    (hs : FreshIds s) (h : GroupsMatch s.core) :
    GroupsMatch (relayStep env s e).core ↔ JoinsOwnGroup env s e := by
  have hbase := groupsMatch_baseOf h e
  have hadm := effectOf_admissible hs env e
  obtain ⟨-, -, hauth, hmem⟩ := baseOf_view s e
  rw [relayStep_core]
  unfold JoinsOwnGroup
  cases hop : effectOf env s e with
  | join connId auth token now =>
    rw [join_groupsMatch_iff hbase env connId auth token now, hmem, RelayCore.authDaemon, hauth]
    rfl
  | _ =>
    rw [hop] at hadm
    exact ⟨fun _ => trivial, fun _ => apply_groupsMatch hbase env hadm (by simp)⟩

/-- A relay at start is isolated and has handed out no identifiers. -/
theorem initial_isolated (env : RelayEnv) :
    FreshIds (RelayState.initial env) ∧ GroupsMatch (RelayState.initial env).core := by
  refine ⟨fun c hc => absurd hc (AList.notMem_empty c), fun daemonId c => ?_⟩
  constructor
  · intro h
    cases h
  · intro h
    cases h

/-- Isolation holds in every state of a run exactly when every accepted auth
of the run is on a registered connection that does not change daemons. -/
theorem tenant_isolation_iff (env : RelayEnv) (events : List RelayEvent) :
    (∀ before, before <+: events →
      TenantIsolated (runFrom (relayStep env) (RelayState.initial env) before).core) ↔
      Meets (relayStep env) (JoinsOwnGroup env) (RelayState.initial env) events := by
  simp only [tenantIsolated_iff]
  exact forall_prefix_iff_meets (relayStep_freshIds env) (relayStep_groupsMatch_iff env)
    (initial_isolated env).1 (initial_isolated env).2 events

/-- A connection that authenticates for a second daemon stays in the group of
the first one. -/
theorem tenant_isolation_second_auth :
    ¬∀ env events, TenantIsolated
      (runFrom (relayStep env) (RelayState.initial env) events).core := by
  intro h
  have hrun := h plainEnv [.accept, say 1 (.register "d1" "p" "t1" 2) 0,
    say 1 (.auth .daemon "d1" "t1" 2 none) 1, say 1 (.register "d2" "q" "t2" 2) 2,
    say 1 (.auth .daemon "d2" "t2" 2 none) 3]
  have hstale := ((hrun.membership "d1" 1).mp (by decide)).2
  exact absurd hstale (by decide)

end Teleprompter.RelayIsolation
