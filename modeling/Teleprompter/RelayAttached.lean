import Teleprompter.RelayEffects

/-!
# Attached subscription counts

Each daemon state counts, per session, the live frontend subscriptions. The
count is kept by four handlers: a fresh subscription adds one, an
unsubscription takes one away, a close releases all subscriptions of the
connection, an eviction drops the state. The count of a session is exact when
it equals the number of live frontend connections of the daemon that hold the
session. The main result says exactly which steps break exactness.
-/

namespace Teleprompter.RelayAttached

open FiniteDictionary StepRuns RelayServer RelayRegistry RelayRegistrySound RelayConn RelayEffects

/-- The connection is a frontend of the daemon that listens to the session. -/
def watches (daemonId sid : String) (auth : AuthState) : Bool :=
  auth.role = .frontend ∧ auth.daemonId = daemonId ∧ sid ∈ auth.subscriptions

/-- Number of live frontend connections of the daemon that listen to the session. -/
def subscriberCount (core : RelayCore) (daemonId sid : String) : ℕ :=
  countWhere (fun _ handle => handle.auth.any (watches daemonId sid)) core.conns

/-- The count of every session of every daemon state is the number of its subscribers. -/
def AttachedExact (core : RelayCore) : Prop :=
  ∀ daemonId state, core.registry.daemonStates.lookup daemonId = some state →
    ∀ sid, state.attachedCount sid = subscriberCount core daemonId sid

/-- The steps that keep counts exact: a registration that creates a state
meets no subscriber left over from an evicted one; an auth on a frontend
connection with subscriptions is for a daemon without a state; a counted
subscription stays below the counter's maximum; an unsubscription is for a
subscribed session or one without subscribers. -/
def KeepsCounts (env : RelayEnv) (s : RelayState) (e : RelayEvent) : Prop :=
  match effectOf env s e with
  | .register daemonId _ proof _ =>
    s.core.registry.capacityReached daemonId = false →
    s.core.registry.differentCredentials daemonId proof = false →
    daemonId ∉ s.core.registry.daemonStates → ∀ sid, subscriberCount s.core daemonId sid = 0
  | .join connId _ _ _ =>
    connId ∈ s.core.conns → ∀ old, s.core.authedState connId = some old → old.role = .frontend →
    old.daemonId ∈ s.core.registry.daemonStates → ∀ sid, sid ∉ old.subscriptions
  | .subscribe connId sid _ =>
    ∀ auth, s.core.authedState connId = some auth → auth.role = .frontend →
    dictSize auth.subscriptions < maxSubscriptionsPerClient → sid ∉ auth.subscriptions →
    ∀ state, s.core.registry.daemonStates.lookup auth.daemonId = some state →
    state.attachedCount sid < maxAttachedCount
  | .unsubscribe connId sid =>
    ∀ auth, s.core.authedState connId = some auth → auth.role = .frontend →
    sid ∉ auth.subscriptions →
    ∀ state, s.core.registry.daemonStates.lookup auth.daemonId = some state →
    state.attachedCount sid = 0
  | _ => True

/-- Subscribers in terms of auth states. -/
theorem lookup_any_watches (core : RelayCore) (daemonId sid : String) (c : ConnId) :
    (core.conns.lookup c).any (fun handle => handle.auth.any (watches daemonId sid)) =
      (core.authedState c).any (watches daemonId sid) := by
  unfold RelayCore.authedState
  cases core.conns.lookup c <;> rfl

/-- Cores with the same watchers away from one connection have subscriber
counts that differ by that connection. -/
theorem subscriberCount_off (core core' : RelayCore) (connId : ConnId) (daemonId sid : String)
    (h : ∀ c, c ≠ connId → (core'.authedState c).any (watches daemonId sid) =
      (core.authedState c).any (watches daemonId sid)) :
    subscriberCount core' daemonId sid +
        (if (core.authedState connId).any (watches daemonId sid) then 1 else 0) =
      subscriberCount core daemonId sid +
        if (core'.authedState connId).any (watches daemonId sid) then 1 else 0 := by
  rw [← lookup_any_watches core, ← lookup_any_watches core']
  refine countWhere_off fun c hc => ?_
  rw [lookup_any_watches, lookup_any_watches]
  exact h c hc

/-- Cores with the same watchers have the same subscriber counts. -/
theorem subscriberCount_congr {core core' : RelayCore} {daemonId sid : String}
    (h : ∀ c, (core'.authedState c).any (watches daemonId sid) =
      (core.authedState c).any (watches daemonId sid)) :
    subscriberCount core' daemonId sid = subscriberCount core daemonId sid := by
  refine countWhere_congr fun c => ?_
  rw [lookup_any_watches, lookup_any_watches]
  exact h c

/-- The count of one session after counting a subscription. -/
theorem attachedCount_attach (state : DaemonState) (sid x : String) :
    (state.attach sid).attachedCount x =
      if x = sid then min (state.attachedCount sid + 1) maxAttachedCount
      else state.attachedCount x := by
  simp only [DaemonState.attach, DaemonState.attachedCount, lookup_insert_eq]
  split <;> rfl

/-- The count of one session after releasing a subscription. -/
theorem attachedCount_detach (state : DaemonState) (sid x : String) :
    (state.detach sid).attachedCount x =
      if x = sid then state.attachedCount sid - 1 else state.attachedCount x := by
  unfold DaemonState.detach
  cases h : state.attached.lookup sid with
  | none =>
    dsimp only
    split
    · next hx => rw [hx, DaemonState.attachedCount, h, Option.getD_none]
    · rfl
  | some count =>
    dsimp only
    split
    · next hle =>
      simp only [DaemonState.attachedCount, lookup_erase_eq, h, Option.getD_some]
      split
      · rw [Option.getD_none]
        omega
      · rfl
    · simp only [DaemonState.attachedCount, lookup_insert_eq, h, Option.getD_some]
      split
      · rw [Option.getD_some]
      · rfl

/-- Counts after releasing distinct subscriptions. -/
theorem attachedCount_detachAll {sids : List String} (hnodup : sids.Nodup) (state : DaemonState)
    (x : String) :
    (sids.foldl (fun st sid => st.detach sid) state).attachedCount x =
      if x ∈ sids then state.attachedCount x - 1 else state.attachedCount x := by
  induction sids generalizing state with
  | nil => rfl
  | cons sid sids ih =>
    obtain ⟨hout, hrest⟩ := List.nodup_cons.mp hnodup
    rw [List.foldl_cons, ih hrest, attachedCount_detach]
    by_cases hx : x = sid
    · subst hx
      simp [hout]
    · simp [hx]

/-- The count of one session in the state of a daemon, when it has a state. -/
def countOf (r : Registry) (daemonId sid : String) : Option ℕ :=
  (r.daemonStates.lookup daemonId).map fun state => state.attachedCount sid

/-- Exactness in terms of single counts. -/
theorem attachedExact_iff (core : RelayCore) :
    AttachedExact core ↔ ∀ daemonId sid count, countOf core.registry daemonId sid = some count →
      count = subscriberCount core daemonId sid := by
  constructor
  · intro h daemonId sid count hcount
    obtain ⟨state, hs, rfl⟩ := Option.map_eq_some_iff.mp hcount
    exact h daemonId state hs sid
  · intro h daemonId state hs sid
    refine h daemonId sid _ ?_
    rw [countOf, hs, Option.map_some]

/-- Counts after an in-place change of one state. -/
theorem countOf_alterState (r : Registry) (daemonId d sid : String)
    (f : DaemonState → DaemonState) :
    countOf (r.alterState daemonId f) d sid =
      if d = daemonId then (r.daemonStates.lookup d).map fun state => (f state).attachedCount sid
      else countOf r d sid := by
  simp only [countOf, Registry.alterState, lookup_alterKey]
  split
  · rw [Option.map_map]
    rfl
  · rfl

/-- In-place changes that keep the attached map keep all counts. -/
theorem countOf_alterState_same {f : DaemonState → DaemonState}
    (hf : ∀ state, (f state).attached = state.attached) (r : Registry) (daemonId d sid : String) :
    countOf (r.alterState daemonId f) d sid = countOf r d sid := by
  rw [countOf_alterState]
  split
  · simp only [countOf, DaemonState.attachedCount, hf]
  · rfl

/-- Counts after counting a subscription. -/
theorem countOf_attach (r : Registry) (daemonId sid d x : String) :
    countOf (r.alterState daemonId (DaemonState.attach sid)) d x =
      if d = daemonId ∧ x = sid then
        (countOf r d x).map fun count => min (count + 1) maxAttachedCount
      else countOf r d x := by
  rw [countOf_alterState]
  by_cases hd : d = daemonId
  · subst hd
    rw [if_pos rfl]
    by_cases hx : x = sid
    · subst hx
      simp only [attachedCount_attach, if_true, and_self, countOf, Option.map_map,
        Function.comp_def]
    · simp only [attachedCount_attach, and_false, if_false, countOf, hx]
  · rw [if_neg hd, if_neg fun h => hd h.1]

/-- Counts after releasing distinct subscriptions. -/
theorem countOf_frontendDisconnect (r : Registry) (daemonId : String) {sids : List String}
    (hnodup : sids.Nodup) (d x : String) :
    countOf (r.frontendDisconnect daemonId sids) d x =
      if d = daemonId ∧ x ∈ sids then (countOf r d x).map fun count => count - 1
      else countOf r d x := by
  rw [Registry.frontendDisconnect, countOf_alterState]
  by_cases hd : d = daemonId
  · subst hd
    rw [if_pos rfl]
    by_cases hx : x ∈ sids
    · simp only [attachedCount_detachAll hnodup, hx, if_true, and_self, countOf, Option.map_map,
        Function.comp_def]
    · simp only [attachedCount_detachAll hnodup, hx, and_false, if_false, countOf]
  · rw [if_neg hd, if_neg fun h => hd h.1]

/-- Counts after releasing one subscription. -/
theorem countOf_detach (r : Registry) (daemonId sid d x : String) :
    countOf (r.alterState daemonId (DaemonState.detach sid)) d x =
      if d = daemonId ∧ x = sid then (countOf r d x).map fun count => count - 1
      else countOf r d x := by
  have h := countOf_frontendDisconnect r daemonId (List.nodup_singleton sid) d x
  simp only [List.mem_singleton] at h
  exact h

/-- Counts after an accepted registration: an absent state starts at zero. -/
theorem countOf_register (r : Registry) (daemonId token proof : String) (now : ℕ) (d x : String) :
    countOf ((r.dropStaleToken daemonId token).recordRegistration daemonId token proof now) d x =
      if d = daemonId then some ((countOf r d x).getD 0) else countOf r d x := by
  have hdrop : ∀ y, countOf (r.dropStaleToken daemonId token) y x = countOf r y x := by
    intro y
    unfold Registry.dropStaleToken
    split
    · rfl
    · split
      · rfl
      · exact countOf_alterState_same
          (f := fun state => { state with registrationToken := some token }) (fun _ => rfl)
          r daemonId y x
  rw [← hdrop d]
  simp only [countOf, Registry.recordRegistration, lookup_alterKey, lookup_orInsert]
  split
  · next hd =>
    rw [hd, Option.map_some, Option.map_some]
    cases (r.dropStaleToken daemonId token).daemonStates.lookup daemonId <;> rfl
  · rfl

/-- An accepted auth of a sound registry changes no count. -/
theorem countOf_join {r : Registry} (h : Sound r) {auth : AuthState} {token : Option String}
    (ha : JoinAccepted r auth token) (now : ℕ) (d x : String) :
    countOf (r.commit (joinCall r auth token now)) d x = countOf r d x := by
  have hupsert : auth.daemonId ∈ r.registrations → ∀ isDaemon regToken,
      countOf (r.upsertDaemonState auth.daemonId isDaemon regToken now) d x = countOf r d x := by
    intro hreg isDaemon regToken
    have hseed : orInsert auth.daemonId (DaemonState.seedOffline now) r.daemonStates =
        r.daemonStates := if_pos (h.mem_states_iff.mpr hreg)
    unfold Registry.upsertDaemonState
    simp only [hseed]
    split
    · exact countOf_alterState_same (f := DaemonState.connect regToken now) (fun _ => rfl)
        r auth.daemonId d x
    · rfl
  cases token with
  | some token =>
    simp only [joinCall, h.handleAuth_eq ha, Registry.commit]
    exact hupsert (h.registered_of_valid ha) _ _
  | none =>
    have hreg : auth.daemonId ∈ r.registrations := ha
    simp only [joinCall, Registry.handleAuthResume, if_pos hreg, Registry.commit]
    exact hupsert hreg _ _

/-- An eviction only removes counts. -/
theorem countOf_evictDaemon {r : Registry} {daemonId d x : String} {count : ℕ}
    (h : countOf (r.evictDaemon daemonId) d x = some count) : countOf r d x = some count := by
  simp only [countOf, Registry.evictDaemon, lookup_erase_eq] at h
  split at h
  · cases h
  · exact h

/-- A sweep only removes counts. -/
theorem countOf_checkStale {r : Registry} {now stale evict : ℕ} {d x : String} {count : ℕ}
    (h : countOf (r.checkStaleDaemons now stale evict).1 d x = some count) :
    countOf r d x = some count := by
  have hevict : ∀ (daemonIds : List String) (r' : Registry),
      countOf (daemonIds.foldl Registry.evictDaemon r') d x = some count →
      countOf r' d x = some count := by
    intro daemonIds
    induction daemonIds with
    | nil => exact fun _ h => h
    | cons daemonId daemonIds ih => exact fun r' h => countOf_evictDaemon (ih _ h)
  have hmark := hevict _ _ h
  simp only [countOf, Registry.markStale, lookup_mapValues, Option.map_map] at hmark
  rw [← hmark, countOf]
  congr 1
  funext state
  simp only [Function.comp_apply]
  split <;> rfl

/-- Operations that add no counts and change no watcher keep counts exact. -/
theorem exact_of_kept {core : RelayCore} (h : AttachedExact core) (env : RelayEnv) (op : CoreOp)
    (hcount : ∀ d x count, countOf (registryAfter env core op) d x = some count →
      countOf core.registry d x = some count)
    (hwatch : ∀ d x c, (authAfter core op c).any (watches d x) =
      (core.authedState c).any (watches d x)) :
    AttachedExact (op.apply env core) := by
  rw [attachedExact_iff] at h ⊢
  intro d x count hc
  rw [registry_apply] at hc
  rw [h d x count (hcount d x count hc)]
  refine (subscriberCount_congr fun c => ?_).symm
  rw [authedState_apply]
  exact hwatch d x c

/-- A registration keeps counts exact exactly when a state it creates meets no subscribers. -/
theorem register_exact_iff {core : RelayCore} (h : AttachedExact core) (env : RelayEnv)
    (daemonId token proof : String) (now : ℕ) :
    AttachedExact ((CoreOp.register daemonId token proof now).apply env core) ↔
      (core.registry.capacityReached daemonId = false →
        core.registry.differentCredentials daemonId proof = false →
        daemonId ∉ core.registry.daemonStates → ∀ sid, subscriberCount core daemonId sid = 0) := by
  have hwatch : ∀ d x c, (authAfter core (.register daemonId token proof now) c).any (watches d x) =
      (core.authedState c).any (watches d x) := fun _ _ _ => rfl
  by_cases hcap : core.registry.capacityReached daemonId = true
  · refine ⟨fun _ hno => absurd hno (by simp [hcap]), fun _ => exact_of_kept h env _ ?_ hwatch⟩
    intro d x count hc
    simpa only [registryAfter, Registry.handleRegister, if_pos hcap, Registry.commit] using hc
  by_cases hcred : core.registry.differentCredentials daemonId proof = true
  · refine ⟨fun _ _ hno => absurd hno (by simp [hcred]), fun _ => exact_of_kept h env _ ?_ hwatch⟩
    intro d x count hc
    simpa only [registryAfter, Registry.handleRegister, if_neg hcap, if_pos hcred, Registry.commit]
      using hc
  have hcount : ∀ d x, countOf (registryAfter env core (.register daemonId token proof now)) d x =
      if d = daemonId then some ((countOf core.registry d x).getD 0)
      else countOf core.registry d x := by
    intro d x
    simp only [registryAfter, Registry.handleRegister, if_neg hcap, if_neg hcred, Registry.commit]
    exact countOf_register core.registry daemonId token proof now d x
  constructor
  · intro hnext _ _ hnew sid
    have hzero := (attachedExact_iff _).mp hnext daemonId sid 0 (by
      rw [registry_apply, hcount, if_pos rfl, countOf, AList.lookup_eq_none.mpr hnew]
      rfl)
    exact hzero.symm
  · intro hcond
    by_cases hold : daemonId ∈ core.registry.daemonStates
    · refine exact_of_kept h env _ (fun d x count hc => ?_) hwatch
      rw [hcount] at hc
      split at hc
      · next hd =>
        obtain ⟨state, hs⟩ := mem_iff_lookup.mp hold
        rw [hd, countOf, hs, Option.map_some, Option.getD_some] at hc
        rw [hd, countOf, hs, Option.map_some]
        exact hc
      · exact hc
    · have hzero := hcond (Bool.eq_false_iff.mpr hcap) (Bool.eq_false_iff.mpr hcred) hold
      rw [attachedExact_iff] at h ⊢
      intro d x count hc
      rw [registry_apply, hcount] at hc
      split at hc
      · next hd =>
        rw [hd, countOf, AList.lookup_eq_none.mpr hold, Option.map_none, Option.getD_none] at hc
        cases hc
        rw [hd]
        exact (hzero x).symm
      · exact h d x count hc

/-- An accepted auth keeps counts exact exactly when it drops no counted subscription. -/
theorem join_exact_iff {core : RelayCore} (hsound : Sound core.registry) (h : AttachedExact core)
    (env : RelayEnv) {connId : ConnId} {auth : AuthState} {token : Option String} {now : ℕ}
    (ha : (CoreOp.join connId auth token now).Admissible core) :
    AttachedExact ((CoreOp.join connId auth token now).apply env core) ↔
      (connId ∈ core.conns → ∀ old, core.authedState connId = some old → old.role = .frontend →
        old.daemonId ∈ core.registry.daemonStates → ∀ sid, sid ∉ old.subscriptions) := by
  have hcount : ∀ d x, countOf (registryAfter env core (.join connId auth token now)) d x =
      countOf core.registry d x := countOf_join hsound ha.1 now
  have hempty : ∀ d x, watches d x auth = false := by
    intro d x
    simp [watches, ha.2]
  constructor
  · intro hnext hreg old hold hrole hstate sid hsub
    obtain ⟨state, hs⟩ := mem_iff_lookup.mp hstate
    have hwas := h old.daemonId state hs sid
    have his := (attachedExact_iff _).mp hnext old.daemonId sid (state.attachedCount sid) (by
      rw [registry_apply, hcount, countOf, hs, Option.map_some])
    have hoff := subscriberCount_off core
      ((CoreOp.join connId auth token now).apply env core) connId old.daemonId sid (by
        intro c hc
        rw [authedState_apply, authAfter, if_neg fun hcc => hc hcc.1])
    have hlost : watches old.daemonId sid old = true := by simp [watches, hrole, hsub]
    have hauth : ((CoreOp.join connId auth token now).apply env core).authedState connId =
        some auth := by
      rw [authedState_apply]
      exact if_pos ⟨rfl, hreg⟩
    rw [hauth, hold, Option.any_some, Option.any_some, hempty, hlost] at hoff
    simp only [if_true, Bool.false_eq_true, if_false] at hoff
    omega
  · intro hcond
    rw [attachedExact_iff] at h ⊢
    intro d x count hc
    rw [registry_apply, hcount] at hc
    rw [h d x count hc]
    refine (subscriberCount_congr fun c => ?_).symm
    rw [authedState_apply, authAfter]
    split
    · next hcc =>
      obtain ⟨rfl, hreg⟩ := hcc
      rw [Option.any_some, hempty]
      cases hold : core.authedState c with
      | none => rfl
      | some old =>
        rw [Option.any_some, eq_comm, Bool.eq_false_iff]
        intro hw
        obtain ⟨hrole, rfl, hsub⟩ := of_decide_eq_true hw
        obtain ⟨state, hs, -⟩ := Option.map_eq_some_iff.mp hc
        exact hcond hreg old hold hrole (mem_iff_lookup.mpr ⟨state, hs⟩) x hsub
    · rfl

/-- Watching a session after a subscription below the cap. -/
theorem watches_subscribed {auth : AuthState} {sid : String}
    (hroom : dictSize auth.subscriptions < maxSubscriptionsPerClient) (d x : String) :
    watches d x (AuthState.subscribed sid auth) =
      (watches d x auth || (x = sid ∧ auth.role = .frontend ∧ auth.daemonId = d : Bool)) := by
  rw [AuthState.subscribed, if_neg (not_le.mpr hroom), Bool.eq_iff_iff]
  simp only [watches, AList.mem_insert, Bool.or_eq_true, decide_eq_true_eq]
  tauto

/-- A subscription that is refused, repeated or not of a frontend changes nothing
that is counted. -/
theorem watches_subscribed_uncounted {auth : AuthState} {sid : String}
    (h : ¬(auth.role = .frontend ∧ dictSize auth.subscriptions < maxSubscriptionsPerClient ∧
      sid ∉ auth.subscriptions)) (d x : String) :
    watches d x (AuthState.subscribed sid auth) = watches d x auth := by
  by_cases hroom : dictSize auth.subscriptions < maxSubscriptionsPerClient
  · rw [watches_subscribed hroom]
    by_cases hrole : auth.role = .frontend
    · have hdup : sid ∈ auth.subscriptions := by
        by_contra hnew
        exact h ⟨hrole, hroom, hnew⟩
      rw [Bool.eq_iff_iff]
      simp only [watches, Bool.or_eq_true, decide_eq_true_eq]
      constructor
      · rintro (hw | ⟨rfl, -, hd⟩)
        · exact hw
        · exact ⟨hrole, hd, hdup⟩
      · exact .inl
    · simp [watches, hrole]
  · rw [AuthState.subscribed, if_pos (not_lt.mp hroom)]

/-- Subscribers after a subscription that is counted. -/
theorem subscriberCount_subscribe {core : RelayCore} (env : RelayEnv) {connId : ConnId}
    {sid : String} (after : Option ℕ) {auth : AuthState}
    (hauth : core.authedState connId = some auth) (hrole : auth.role = .frontend)
    (hroom : dictSize auth.subscriptions < maxSubscriptionsPerClient)
    (hnew : sid ∉ auth.subscriptions) (d x : String) :
    subscriberCount ((CoreOp.subscribe connId sid after).apply env core) d x =
      subscriberCount core d x + if d = auth.daemonId ∧ x = sid then 1 else 0 := by
  have hoff := subscriberCount_off core
    ((CoreOp.subscribe connId sid after).apply env core) connId d x (by
      intro c hc
      rw [authedState_apply, authAfter, if_neg hc])
  have hself : ((CoreOp.subscribe connId sid after).apply env core).authedState connId =
      some (AuthState.subscribed sid auth) := by
    rw [authedState_apply, authAfter, if_pos rfl, hauth, Option.map_some]
  rw [hself, hauth, Option.any_some, Option.any_some, watches_subscribed hroom] at hoff
  by_cases hdx : d = auth.daemonId ∧ x = sid
  · obtain ⟨rfl, rfl⟩ := hdx
    have hbefore : watches auth.daemonId x auth = false := by simp [watches, hnew]
    simpa [hbefore, hrole] using hoff
  · have hsame : (x = sid ∧ auth.role = .frontend ∧ auth.daemonId = d : Bool) = false :=
      decide_eq_false fun hx => hdx ⟨hx.2.2.symm, hx.1⟩
    rw [hsame, Bool.or_false] at hoff
    rw [if_neg hdx]
    omega

/-- A subscription keeps counts exact exactly when a counted one fits the counter. -/
theorem subscribe_exact_iff {core : RelayCore} (h : AttachedExact core) (env : RelayEnv)
    (connId : ConnId) (sid : String) (after : Option ℕ) :
    AttachedExact ((CoreOp.subscribe connId sid after).apply env core) ↔
      ∀ auth, core.authedState connId = some auth → auth.role = .frontend →
        dictSize auth.subscriptions < maxSubscriptionsPerClient → sid ∉ auth.subscriptions →
        ∀ state, core.registry.daemonStates.lookup auth.daemonId = some state →
        state.attachedCount sid < maxAttachedCount := by
  by_cases hcounted : ∃ auth, core.authedState connId = some auth ∧ auth.role = .frontend ∧
      dictSize auth.subscriptions < maxSubscriptionsPerClient ∧ sid ∉ auth.subscriptions
  · obtain ⟨auth, hauth, hrole, hroom, hnew⟩ := hcounted
    have hcount : ∀ d x, countOf (registryAfter env core (.subscribe connId sid after)) d x =
        if d = auth.daemonId ∧ x = sid then
          (countOf core.registry d x).map fun count => min (count + 1) maxAttachedCount
        else countOf core.registry d x := by
      intro d x
      simp only [registryAfter, hauth, hroom, hrole, hnew, not_false_eq_true, and_self, if_true]
      exact countOf_attach core.registry auth.daemonId sid d x
    have hsubs := subscriberCount_subscribe env after hauth hrole hroom hnew
    constructor
    · intro hnext auth' hauth' _ _ _ state hs
      rw [hauth, Option.some_inj] at hauth'
      subst hauth'
      have hwas := h auth.daemonId state hs sid
      have his := (attachedExact_iff _).mp hnext auth.daemonId sid
        (min (state.attachedCount sid + 1) maxAttachedCount) (by
          rw [registry_apply, hcount, if_pos ⟨rfl, rfl⟩, countOf, hs]
          rfl)
      rw [hsubs, if_pos ⟨rfl, rfl⟩] at his
      omega
    · intro hcond
      rw [attachedExact_iff] at h ⊢
      intro d x count hc
      rw [registry_apply, hcount] at hc
      rw [hsubs]
      split at hc
      · next hdx =>
        obtain ⟨old, hold, rfl⟩ := Option.map_eq_some_iff.mp hc
        have hfits : old < maxAttachedCount := by
          obtain ⟨rfl, rfl⟩ := hdx
          obtain ⟨state, hs, rfl⟩ := Option.map_eq_some_iff.mp hold
          exact hcond auth hauth hrole hroom hnew state hs
        rw [if_pos hdx, ← h d x old hold]
        omega
      · next hdx => rw [if_neg hdx, h d x count hc, Nat.add_zero]
  · refine ⟨fun _ auth hauth hrole hroom hnew => absurd ⟨auth, hauth, hrole, hroom, hnew⟩ hcounted,
      fun _ => exact_of_kept h env _ (fun d x count hc => ?_) fun d x c => ?_⟩
    · simp only [registryAfter] at hc
      split at hc
      · exact hc
      · next auth hauth =>
        rw [if_neg fun hg => hcounted ⟨auth, hauth, hg.2.1, hg.1, hg.2.2⟩] at hc
        exact hc
    · rw [authAfter]
      split
      · next hc =>
        subst hc
        cases hauth : core.authedState c with
        | none => rfl
        | some auth =>
          rw [Option.map_some, Option.any_some, Option.any_some]
          exact watches_subscribed_uncounted (fun hg => hcounted ⟨auth, hauth, hg⟩) d x
      · rfl

/-- Watching a session after an unsubscription. -/
theorem watches_unsubscribed (auth : AuthState) (sid d x : String) :
    watches d x (AuthState.unsubscribed sid auth) = (watches d x auth && (x ≠ sid : Bool)) := by
  rw [Bool.eq_iff_iff]
  simp only [watches, AuthState.unsubscribed, AList.mem_erase, Bool.and_eq_true, decide_eq_true_eq]
  tauto

/-- Subscribers before and after an unsubscription. -/
theorem subscriberCount_unsubscribe {core : RelayCore} (env : RelayEnv) {connId : ConnId}
    (sid : String) {auth : AuthState} (hauth : core.authedState connId = some auth) (d x : String) :
    subscriberCount ((CoreOp.unsubscribe connId sid).apply env core) d x +
        (if watches d x auth then 1 else 0) =
      subscriberCount core d x + if (watches d x auth && (x ≠ sid : Bool)) then 1 else 0 := by
  have hstep := subscriberCount_off core
    ((CoreOp.unsubscribe connId sid).apply env core) connId d x (by
      intro c hc
      rw [authedState_apply, authAfter, if_neg hc])
  have hself : ((CoreOp.unsubscribe connId sid).apply env core).authedState connId =
      some (AuthState.unsubscribed sid auth) := by
    rw [authedState_apply, authAfter, if_pos rfl, hauth, Option.map_some]
  rw [hself, hauth, Option.any_some, Option.any_some, watches_unsubscribed] at hstep
  exact hstep

/-- An unsubscription keeps counts exact exactly when it is for a subscribed
session or for one that nobody is counted for. -/
theorem unsubscribe_exact_iff {core : RelayCore} (h : AttachedExact core) (env : RelayEnv)
    (connId : ConnId) (sid : String) :
    AttachedExact ((CoreOp.unsubscribe connId sid).apply env core) ↔
      ∀ auth, core.authedState connId = some auth → auth.role = .frontend →
        sid ∉ auth.subscriptions →
        ∀ state, core.registry.daemonStates.lookup auth.daemonId = some state →
        state.attachedCount sid = 0 := by
  cases hauth : core.authedState connId with
  | none =>
    refine ⟨fun _ auth hno => (Option.some_ne_none auth hno.symm).elim,
      fun _ => exact_of_kept h env _ (fun d x count hc => ?_) fun d x c => ?_⟩
    · simpa only [registryAfter, hauth] using hc
    · rw [authAfter]
      split
      · next hc => rw [hc, hauth, Option.map_none]
      · rfl
  | some auth =>
    have hoff := subscriberCount_unsubscribe env sid hauth
    by_cases hrole : auth.role = .frontend
    · have hcount : ∀ d x, countOf (registryAfter env core (.unsubscribe connId sid)) d x =
          if d = auth.daemonId ∧ x = sid then (countOf core.registry d x).map fun count => count - 1
          else countOf core.registry d x := by
        intro d x
        simp only [registryAfter, hauth, hrole, if_true]
        exact countOf_detach core.registry auth.daemonId sid d x
      constructor
      · intro hnext auth' hauth' _ hnew state hs
        cases hauth'
        have hwas := h auth.daemonId state hs sid
        have his := (attachedExact_iff _).mp hnext auth.daemonId sid (state.attachedCount sid - 1) (by
          rw [registry_apply, hcount, if_pos ⟨rfl, rfl⟩, countOf, hs]
          rfl)
        have hkept := hoff auth.daemonId sid
        have hbefore : watches auth.daemonId sid auth = false := by simp [watches, hnew]
        simp only [hbefore, Bool.false_and, Bool.false_eq_true, if_false] at hkept
        omega
      · intro hcond
        rw [attachedExact_iff] at h ⊢
        intro d x count hc
        rw [registry_apply, hcount] at hc
        have hstep := hoff d x
        split at hc
        · next hdx =>
          obtain ⟨rfl, rfl⟩ := hdx
          obtain ⟨old, hold, rfl⟩ := Option.map_eq_some_iff.mp hc
          have hwas := h auth.daemonId x old hold
          by_cases hsub : x ∈ auth.subscriptions
          · have hbefore : watches auth.daemonId x auth = true := by simp [watches, hsub, hrole]
            simp only [hbefore, ne_eq, not_true_eq_false, decide_false, Bool.and_false, if_true,
              Bool.false_eq_true, if_false] at hstep
            omega
          · have hbefore : watches auth.daemonId x auth = false := by simp [watches, hsub]
            simp only [hbefore, Bool.false_and, Bool.false_eq_true, if_false] at hstep
            obtain ⟨state, hs, rfl⟩ := Option.map_eq_some_iff.mp hold
            have hzero := hcond auth rfl hrole hsub state hs
            omega
        · next hdx =>
          have hsame : (watches d x auth && (x ≠ sid : Bool)) = watches d x auth := by
            by_cases hx : x = sid
            · have hother : auth.daemonId ≠ d := fun hd => hdx ⟨hd.symm, hx⟩
              simp [watches, hother]
            · simp [hx]
          rw [hsame] at hstep
          have hwas := h d x count hc
          omega
    · refine ⟨fun _ auth' hauth' hfront => ?_, fun _ =>
        exact_of_kept h env _ (fun d x count hc => ?_) fun d x c => ?_⟩
      · cases hauth'
        exact absurd hfront hrole
      · simpa only [registryAfter, hauth, if_neg hrole] using hc
      · rw [authAfter]
        split
        · next hc =>
          rw [hc, hauth, Option.map_some, Option.any_some, Option.any_some, watches_unsubscribed]
          simp [watches, hrole]
        · rfl

/-- A close releases exactly the subscriptions of its connection. -/
theorem close_exact {core : RelayCore} (h : AttachedExact core) (env : RelayEnv) (connId : ConnId)
    (now : ℕ) : AttachedExact ((CoreOp.close connId now).apply env core) := by
  by_cases hfront : ∃ auth, core.authedState connId = some auth ∧ auth.role = .frontend
  · obtain ⟨auth, hauth, hrole⟩ := hfront
    rw [attachedExact_iff] at h ⊢
    intro d x count hc
    rw [registry_apply] at hc
    simp only [registryAfter, hauth, hrole, if_true] at hc
    rw [countOf_frontendDisconnect core.registry auth.daemonId auth.subscriptions.keys_nodup] at hc
    simp only [← AList.mem_keys] at hc
    have hoff := subscriberCount_off core
      ((CoreOp.close connId now).apply env core) connId d x (by
        intro c hcc
        rw [authedState_apply, authAfter, if_neg hcc])
    have hself : ((CoreOp.close connId now).apply env core).authedState connId = none := by
      rw [authedState_apply, authAfter, if_pos rfl]
    rw [hself, hauth, Option.any_some, Option.any_none] at hoff
    simp only [Bool.false_eq_true, if_false] at hoff
    split at hc
    · next hdx =>
      obtain ⟨old, hold, rfl⟩ := Option.map_eq_some_iff.mp hc
      have hwas := h d x old hold
      have hbefore : watches d x auth = true := by simp [watches, hrole, hdx.1, hdx.2]
      rw [if_pos hbefore] at hoff
      omega
    · next hdx =>
      have hwas := h d x count hc
      have hbefore : ¬watches d x auth = true := fun hw =>
        hdx ⟨(of_decide_eq_true hw).2.1.symm, (of_decide_eq_true hw).2.2⟩
      rw [if_neg hbefore] at hoff
      omega
  · refine exact_of_kept h env _ (fun d x count hc => ?_) fun d x c => ?_
    · simp only [registryAfter] at hc
      split at hc
      · exact hc
      · next auth hauth =>
        rw [if_neg fun hrole => hfront ⟨auth, hauth, hrole⟩] at hc
        rw [← hc]
        exact (countOf_alterState_same
          (f := fun state => { state with online := false, lastSeen := now }) (fun _ => rfl)
          core.registry auth.daemonId d x).symm
    · rw [authAfter]
      split
      · next hc =>
        subst hc
        cases hauth : core.authedState c with
        | none => rfl
        | some auth =>
          have hrole : auth.role ≠ .frontend := fun hrole => hfront ⟨auth, hauth, hrole⟩
          simp [watches, hrole]
      · rfl

/-- Operations outside the four critical ones keep counts exact. -/
theorem other_exact {core : RelayCore} (h : AttachedExact core) (env : RelayEnv) {op : CoreOp}
    (ha : op.Admissible core) (hregister : ∀ d t p n, op ≠ .register d t p n)
    (hjoin : ∀ c a t n, op ≠ .join c a t n) (hsub : ∀ c x a, op ≠ .subscribe c x a)
    (hunsub : ∀ c x, op ≠ .unsubscribe c x) : AttachedExact (op.apply env core) := by
  cases op with
  | skip => exact h
  | accept connId =>
    refine exact_of_kept h env _ (fun _ _ _ hc => hc) fun d x c => ?_
    rw [authAfter]
    split
    · next hc =>
      have hnone : core.authedState c = none := by
        rw [hc, RelayCore.authedState, AList.lookup_eq_none.mpr ha]
        rfl
      rw [hnone]
    · rfl
  | register d t p n => exact absurd rfl (hregister d t p n)
  | join c a t n => exact absurd rfl (hjoin c a t n)
  | publish connId client sid ct seq now =>
    refine exact_of_kept h env _ (fun d x count hc => ?_) fun _ _ _ => rfl
    simp only [registryAfter] at hc
    split at hc
    · rw [← hc]
      exact (countOf_alterState_same
        (f := fun state => { state.addSession sid with lastSeen := now })
        (fun state => by simp only [DaemonState.addSession])
        core.registry client.daemonId d x).symm
    · exact hc
  | subscribe c x a => exact absurd rfl (hsub c x a)
  | unsubscribe c x => exact absurd rfl (hunsub c x)
  | ping connId client now =>
    refine exact_of_kept h env _ (fun d x count hc => ?_) fun _ _ _ => rfl
    simp only [registryAfter] at hc
    split at hc
    · rw [← hc]
      exact (countOf_alterState_same (f := fun state => { state with lastSeen := now })
        (fun _ => rfl) core.registry client.daemonId d x).symm
    · exact hc
  | close connId now => exact close_exact h env connId now
  | sweep now =>
    exact exact_of_kept h env _ (fun _ _ _ hc => countOf_checkStale hc) fun _ _ _ => rfl

/-- The state an event starts from shows the same subscribers. -/
theorem subscriberCount_baseOf (s : RelayState) (e : RelayEvent) (d x : String) :
    subscriberCount (baseOf s e) d x = subscriberCount s.core d x :=
  subscriberCount_congr fun c => by rw [(baseOf_view s e).2.2.1 c]

/-- One event keeps counts exact exactly when it meets the condition. -/
theorem relayStep_exact_iff (env : RelayEnv) (s : RelayState) (e : RelayEvent) (hs : Grounded s)
    (h : AttachedExact s.core) : AttachedExact (relayStep env s e).core ↔ KeepsCounts env s e := by
  have hadm := effectOf_admissible hs.1 env e
  obtain ⟨hreg, -, hauth, hmem⟩ := baseOf_view s e
  have hbase : AttachedExact (baseOf s e) := by
    intro d state hst x
    rw [hreg] at hst
    rw [h d state hst x, subscriberCount_baseOf]
  have hsound : Sound (baseOf s e).registry := by
    rw [hreg]
    exact hs.2
  rw [relayStep_core]
  unfold KeepsCounts
  cases hop : effectOf env s e with
  | register daemonId token proof now =>
    rw [register_exact_iff hbase, hreg]
    simp only [subscriberCount_baseOf]
  | join connId auth token now =>
    rw [hop] at hadm
    rw [join_exact_iff hsound hbase env hadm, hreg, hmem, hauth]
  | subscribe connId sid after => rw [subscribe_exact_iff hbase, hreg, hauth]
  | unsubscribe connId sid => rw [unsubscribe_exact_iff hbase, hreg, hauth]
  | _ =>
    rw [hop] at hadm
    exact ⟨fun _ => trivial, fun _ => other_exact hbase env hadm nofun nofun nofun nofun⟩

/-- Counts are exact in every state of a run exactly when every step of the
run keeps them. -/
theorem attached_exact_iff (env : RelayEnv) (events : List RelayEvent) :
    (∀ before, before <+: events →
      AttachedExact (runFrom (relayStep env) (RelayState.initial env) before).core) ↔
      Meets (relayStep env) (KeepsCounts env) (RelayState.initial env) events := by
  refine forall_prefix_iff_meets (relayStep_grounded env) (relayStep_exact_iff env)
    (initial_grounded env) ?_ events
  intro daemonId state hs
  cases hs

/-- A client that unsubscribes a session it never subscribed takes the count of another one. -/
theorem attached_exact_foreign_unsubscribe :
    ¬∀ env events, AttachedExact (runFrom (relayStep env) (RelayState.initial env) events).core := by
  intro h
  have hrun := h plainEnv [.accept, .accept, say 1 (.register "d" "p" "t" 2) 0,
    say 1 (.auth .frontend "d" "t" 2 (some "f1")) 1, say 2 (.auth .frontend "d" "t" 2 (some "f2")) 2,
    say 1 (.subscribe "s" none) 3, say 2 (.unsubscribe "s") 4]
  have hcount := (attachedExact_iff _).mp hrun "d" "s" 0 (by decide)
  exact absurd hcount (by decide)

end Teleprompter.RelayAttached
