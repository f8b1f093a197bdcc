import Teleprompter.RelayRegistry

/-!
# Soundness and interference of the relay registry

The three maps of the registry stay in agreement under every sequence of
calls: states and registrations have the same daemon ids, each state records
the token of its registration, a token authenticates a daemon only while it
is that daemon's current token, and the registration cap is kept. The token
map is shared by all daemons, so a call about one daemon can take a token
away from another; the second half says exactly which calls do.
-/

namespace Teleprompter.RelayRegistrySound

open FiniteDictionary StepRuns RelayRegistry

/-- The token under which a daemon is registered now. -/
def currentToken (r : Registry) (daemonId : String) : Option String :=
  (r.registrations.lookup daemonId).map Registration.token

/-- The token recorded in the state of a daemon, when it has a state. -/
def stateToken (r : Registry) (daemonId : String) : Option (Option String) :=
  (r.daemonStates.lookup daemonId).map DaemonState.registrationToken

/-- The registry's maps agree. -/
structure Sound (r : Registry) : Prop where
  /-- A daemon has a state exactly when it is registered, under the same token. -/
  statesMatch : ∀ daemonId, stateToken r daemonId = (currentToken r daemonId).map some
  /-- A token leads only to the daemon that is registered with it now. -/
  tokensCurrent : ∀ token daemonId,
    r.validTokens.lookup token = some daemonId → currentToken r daemonId = some token
  /-- A positive cap bounds the number of registrations. -/
  capKept : 0 < r.maxRegistrations → dictSize r.registrations ≤ r.maxRegistrations

/-- Being registered in terms of the current token. -/
theorem mem_registrations_iff {r : Registry} {daemonId : String} :
    daemonId ∈ r.registrations ↔ ∃ token, currentToken r daemonId = some token := by
  rw [mem_iff_lookup, currentToken]
  cases r.registrations.lookup daemonId <;> simp

/-- In a sound registry a state exists exactly for registered daemons. -/
theorem Sound.mem_states_iff {r : Registry} (h : Sound r) {daemonId : String} :
    daemonId ∈ r.daemonStates ↔ daemonId ∈ r.registrations := by
  have hm := h.statesMatch daemonId
  rw [stateToken, currentToken] at hm
  rw [mem_iff_lookup, mem_iff_lookup]
  cases hs : r.daemonStates.lookup daemonId <;> cases hg : r.registrations.lookup daemonId <;>
    simp_all

/-- The empty registry is sound. -/
theorem withMaxRegistrations_sound (cap : ℕ) : Sound (Registry.withMaxRegistrations cap) where
  statesMatch := fun _ => rfl
  tokensCurrent := by
    intro token daemonId h
    cases h
  capKept := fun _ => Nat.zero_le _

/-- Changes that touch states only, and keep which states exist and the
tokens they record, keep the registry sound. -/
theorem Sound.of_states {r r' : Registry} (h : Sound r) (hreg : r'.registrations = r.registrations)
    (htok : r'.validTokens = r.validTokens) (hcap : r'.maxRegistrations = r.maxRegistrations)
    (hst : ∀ daemonId, stateToken r' daemonId = stateToken r daemonId) : Sound r' where
  statesMatch := by
    intro daemonId
    rw [hst, h.statesMatch, currentToken, currentToken, hreg]
  tokensCurrent := by
    intro token daemonId ht
    rw [htok] at ht
    rw [currentToken, hreg]
    exact h.tokensCurrent token daemonId ht
  capKept := by
    rw [hreg, hcap]
    exact h.capKept

/-- An in-place change that keeps the recorded token is invisible to `stateToken`. -/
theorem stateToken_alterState {f : DaemonState → DaemonState}
    (hf : ∀ state, (f state).registrationToken = state.registrationToken)
    (r : Registry) (daemonId other : String) :
    stateToken (r.alterState daemonId f) other = stateToken r other := by
  simp only [stateToken, Registry.alterState, lookup_alterKey]
  split
  · rw [Option.map_map]
    congr 1
    funext state
    exact hf state
  · rfl

/-- An in-place change that keeps the recorded token keeps the registry sound. -/
theorem alterState_sound {r : Registry} (h : Sound r) (daemonId : String)
    {f : DaemonState → DaemonState}
    (hf : ∀ state, (f state).registrationToken = state.registrationToken) :
    Sound (r.alterState daemonId f) :=
  h.of_states rfl rfl rfl (stateToken_alterState hf r daemonId)

/-- Releasing a subscription keeps the recorded token. -/
theorem detach_registrationToken (sid : String) (state : DaemonState) :
    (state.detach sid).registrationToken = state.registrationToken := by
  unfold DaemonState.detach
  split
  · rfl
  · split <;> rfl

/-- Releasing a list of subscriptions keeps the recorded token. -/
theorem detachAll_registrationToken (sids : List String) (state : DaemonState) :
    (sids.foldl (fun st sid => st.detach sid) state).registrationToken =
      state.registrationToken := by
  induction sids generalizing state with
  | nil => rfl
  | cons sid sids ih => rw [List.foldl_cons, ih, detach_registrationToken]

/-- A seeded or reconnecting state of a registered daemon keeps its token. -/
theorem upsertDaemonState_sound {r : Registry} (h : Sound r) {daemonId : String}
    (hd : daemonId ∈ r.registrations) (isDaemon : Bool) (regToken : Option String) (nowMs : ℕ) :
    Sound (r.upsertDaemonState daemonId isDaemon regToken nowMs) := by
  have hseed : orInsert daemonId (DaemonState.seedOffline nowMs) r.daemonStates =
      r.daemonStates := if_pos (h.mem_states_iff.mpr hd)
  obtain ⟨token, ht⟩ := mem_registrations_iff.mp hd
  have hstate := h.statesMatch daemonId
  rw [ht, Option.map_some, stateToken] at hstate
  unfold Registry.upsertDaemonState
  simp only [hseed]
  split
  · refine h.of_states rfl rfl rfl fun other => ?_
    simp only [stateToken, Registry.alterState, lookup_alterKey]
    split
    · next ho =>
      obtain ⟨state, hs, htok⟩ := Option.map_eq_some_iff.mp hstate
      rw [ho, hs]
      cases regToken <;> simp only [Option.map_some, DaemonState.connect, htok]
    · rfl
  · exact h

/-- A token accepted by the token map belongs to a registered daemon. -/
theorem Sound.registered_of_valid {r : Registry} (h : Sound r) {daemonId token : String}
    (ht : r.validTokens.lookup token = some daemonId) : daemonId ∈ r.registrations :=
  mem_registrations_iff.mpr ⟨token, h.tokensCurrent token daemonId ht⟩

/-- In a sound registry an accepted auth only upserts the state: the branch
that seeds a registration is never taken. -/
theorem Sound.handleAuth_eq {r : Registry} (h : Sound r) {daemonId token : String}
    (ht : r.validTokens.lookup token = some daemonId) (isDaemon : Bool) (nowMs : ℕ) :
    r.handleAuth daemonId token isDaemon nowMs =
      .ok (r.upsertDaemonState daemonId isDaemon (if isDaemon then some token else none) nowMs) := by
  have hreg : (r.upsertDaemonState daemonId isDaemon (if isDaemon then some token else none)
      nowMs).registrations = r.registrations := by
    unfold Registry.upsertDaemonState
    dsimp only
    split <;> rfl
  have hd := h.registered_of_valid ht
  unfold Registry.handleAuth
  rw [if_pos ht]
  dsimp only
  rw [if_neg]
  rintro ⟨-, hn⟩
  rw [hreg] at hn
  exact hn hd

/-- Evicting a daemon removes its state, its registration and its token. -/
theorem evictDaemon_sound {r : Registry} (h : Sound r) (daemonId : String) :
    Sound (r.evictDaemon daemonId) where
  statesMatch := by
    intro other
    simp only [stateToken, currentToken, Registry.evictDaemon, lookup_erase_eq]
    split
    · rfl
    · exact h.statesMatch other
  tokensCurrent := by
    intro token other ht
    have hne : r.validTokens.lookup token = some other ∧ other ≠ daemonId := by
      have hm := h.statesMatch daemonId
      simp only [Registry.evictDaemon] at ht
      cases hs : r.daemonStates.lookup daemonId with
      | none =>
        rw [hs] at ht
        refine ⟨ht, ?_⟩
        rintro rfl
        rw [stateToken, hs, h.tokensCurrent token other ht] at hm
        cases hm
      | some state =>
        rw [stateToken, hs, Option.map_some] at hm
        cases hc : currentToken r daemonId with
        | none => rw [hc] at hm; cases hm
        | some old =>
          rw [hc, Option.map_some, Option.some_inj] at hm
          rw [hs, Option.bind_some, hm, lookup_erase_eq] at ht
          split at ht
          · cases ht
          · next hold =>
            refine ⟨ht, ?_⟩
            rintro rfl
            rw [h.tokensCurrent token other ht, Option.some_inj] at hc
            exact hold hc
    rw [currentToken]
    simp only [Registry.evictDaemon, lookup_erase_eq, if_neg hne.2]
    exact h.tokensCurrent token other hne.1
  capKept := by
    intro hpos
    exact (dictSize_erase_le _ _).trans (h.capKept hpos)

/-- Marking stale daemons offline keeps every recorded token. -/
theorem markStale_sound {r : Registry} (h : Sound r) (nowMs staleTimeoutMs : ℕ) :
    Sound (r.markStale nowMs staleTimeoutMs) := by
  refine h.of_states rfl rfl rfl fun other => ?_
  simp only [stateToken, Registry.markStale, lookup_mapValues, Option.map_map]
  congr 1
  funext state
  dsimp only [Function.comp_apply]
  split <;> rfl

/-- Evicting a list of daemons keeps the registry sound. -/
theorem evictAll_sound (daemonIds : List String) {r : Registry} (h : Sound r) :
    Sound (daemonIds.foldl Registry.evictDaemon r) := by
  induction daemonIds generalizing r with
  | nil => exact h
  | cons daemonId daemonIds ih => exact ih (evictDaemon_sound h daemonId)

/-- The token map after an accepted registration: the old token of the daemon
is gone, the new one leads to it, every other token is as before. -/
theorem lookup_validTokens_register (r : Registry) (daemonId token proof : String) (nowMs : ℕ)
    (other : String) :
    ((r.dropStaleToken daemonId token).recordRegistration daemonId token proof
      nowMs).validTokens.lookup other =
      if other = token then some daemonId
      else if currentToken r daemonId = some other then none
      else r.validTokens.lookup other := by
  simp only [Registry.recordRegistration, lookup_insert_eq]
  split
  · rfl
  · next hne =>
    unfold Registry.dropStaleToken currentToken
    cases hg : r.registrations.lookup daemonId with
    | none => simp
    | some existing =>
      dsimp only [Option.map_some]
      split
      · next he =>
        rw [if_neg]
        rw [he, Option.some_inj]
        exact fun h => hne h.symm
      · simp only [lookup_erase_eq, Option.some_inj, eq_comm]

/-- The current tokens after an accepted registration. -/
theorem currentToken_register (r : Registry) (daemonId token proof : String) (nowMs : ℕ)
    (other : String) :
    currentToken ((r.dropStaleToken daemonId token).recordRegistration daemonId token proof nowMs)
      other = if other = daemonId then some token else currentToken r other := by
  have hreg : (r.dropStaleToken daemonId token).registrations = r.registrations := by
    unfold Registry.dropStaleToken
    split
    · rfl
    · split <;> rfl
  simp only [currentToken, Registry.recordRegistration, lookup_insert_eq, hreg]
  split <;> rfl

/-- The state tokens after an accepted registration of a sound registry. -/
theorem stateToken_register {r : Registry} (h : Sound r) (daemonId token proof : String)
    (nowMs : ℕ) (other : String) :
    stateToken ((r.dropStaleToken daemonId token).recordRegistration daemonId token proof nowMs)
      other = if other = daemonId then some (some token) else stateToken r other := by
  have hm := h.statesMatch daemonId
  simp only [stateToken, Registry.recordRegistration, lookup_alterKey, lookup_orInsert]
  unfold Registry.dropStaleToken
  unfold stateToken currentToken at hm
  cases hg : r.registrations.lookup daemonId with
  | none =>
    rw [hg] at hm
    dsimp only
    split
    · cases hs : r.daemonStates.lookup daemonId with
      | none => rfl
      | some state => rw [hs] at hm; cases hm
    · rfl
  | some existing =>
    rw [hg] at hm
    obtain ⟨state, hs, htok⟩ := Option.map_eq_some_iff.mp hm
    dsimp only
    split
    · split
      · next he =>
        rw [hs, Option.getD_some, Option.map_some, Option.map_some, htok, Option.getD_some, he]
      · simp only [lookup_alterKey]
        rw [if_pos trivial, hs]
        rfl
    · next hne =>
      split
      · rfl
      · simp only [lookup_alterKey, if_neg hne]

/-- An accepted registration keeps the registry sound. -/
theorem register_sound {r : Registry} (h : Sound r) {daemonId token proof : String} {nowMs : ℕ}
    (hcap : r.capacityReached daemonId = false) :
    Sound ((r.dropStaleToken daemonId token).recordRegistration daemonId token proof nowMs) where
  statesMatch := by
    intro other
    rw [stateToken_register h, currentToken_register]
    split
    · rfl
    · exact h.statesMatch other
  tokensCurrent := by
    intro tok other ht
    rw [lookup_validTokens_register] at ht
    rw [currentToken_register]
    split at ht
    · next htok =>
      cases ht
      rw [if_pos rfl, htok]
    · split at ht
      · cases ht
      · next hold =>
        have hcur := h.tokensCurrent tok other ht
        rw [if_neg]
        · exact hcur
        · rintro rfl
          exact hold hcur
  capKept := by
    have hreg : (r.dropStaleToken daemonId token).registrations = r.registrations ∧
        (r.dropStaleToken daemonId token).maxRegistrations = r.maxRegistrations := by
      unfold Registry.dropStaleToken
      split
      · exact ⟨rfl, rfl⟩
      · split <;> exact ⟨rfl, rfl⟩
    simp only [Registry.recordRegistration, hreg.1, hreg.2]
    intro hpos
    by_cases hd : daemonId ∈ r.registrations
    · rw [dictSize_insert_present hd]
      exact h.capKept hpos
    · have hroom : dictSize r.registrations < r.maxRegistrations := by
        simp only [Registry.capacityReached, decide_eq_false_iff_not] at hcap
        by_contra hfull
        exact hcap ⟨hd, hpos, not_lt.mp hfull⟩
      have hle := dictSize_insert_le r.registrations daemonId ⟨token, some proof⟩
      omega

/-- One call keeps the registry sound. -/
theorem apply_sound (r : Registry) (op : RegistryOp) (h : Sound r) : Sound (r.apply op) := by
  cases op with
  | register daemonId token proof nowMs =>
    simp only [Registry.apply, Registry.handleRegister]
    split
    · exact h
    · next hcap =>
      split
      · exact h
      · exact register_sound h (Bool.eq_false_iff.mpr hcap)
  | auth daemonId token isDaemon nowMs =>
    by_cases ht : r.validTokens.lookup token = some daemonId
    · simp only [Registry.apply, h.handleAuth_eq ht, Registry.commit]
      exact upsertDaemonState_sound h (h.registered_of_valid ht) isDaemon _ nowMs
    · simp only [Registry.apply, Registry.handleAuth, if_neg ht]
      exact h
  | authResume daemonId isDaemon nowMs =>
    simp only [Registry.apply, Registry.handleAuthResume]
    split
    · next hd => exact upsertDaemonState_sound h hd isDaemon none nowMs
    · exact h
  | daemonDisconnect daemonId nowMs => exact alterState_sound h daemonId fun _ => rfl
  | frontendDisconnect daemonId subscriptions =>
    exact alterState_sound h daemonId (detachAll_registrationToken subscriptions)
  | daemonPub daemonId sid nowMs =>
    refine alterState_sound h daemonId fun state => ?_
    simp only [DaemonState.addSession]
  | daemonPing daemonId nowMs => exact alterState_sound h daemonId fun _ => rfl
  | evict daemonId => exact evictDaemon_sound h daemonId
  | checkStale nowMs staleTimeoutMs offlineEvictMs =>
    exact evictAll_sound _ (markStale_sound h nowMs staleTimeoutMs)

/-- Every reachable registry is sound. -/
theorem run_sound (cap : ℕ) (ops : List RegistryOp) :
    Sound (runFrom Registry.apply (Registry.withMaxRegistrations cap) ops) :=
  runFrom_induction apply_sound (withMaxRegistrations_sound cap) ops

/-- An accepted auth upserts the state and at most seeds a registration. -/
theorem handleAuth_of_valid {r : Registry} {daemonId token : String}
    (ht : r.validTokens.lookup token = some daemonId) (isDaemon : Bool) (nowMs : ℕ) :
    ∃ registrations, r.handleAuth daemonId token isDaemon nowMs =
      .ok { r.upsertDaemonState daemonId isDaemon (if isDaemon then some token else none) nowMs with
        registrations := registrations } := by
  unfold Registry.handleAuth
  rw [if_pos ht]
  dsimp only
  generalize r.upsertDaemonState daemonId isDaemon (if isDaemon then some token else none) nowMs =
    upserted
  split
  · exact ⟨_, rfl⟩
  · exact ⟨_, rfl⟩

/-- An auth is accepted exactly when the token map leads to the daemon. -/
theorem handleAuth_isOk_iff (r : Registry) (daemonId token : String) (isDaemon : Bool)
    (nowMs : ℕ) :
    (r.handleAuth daemonId token isDaemon nowMs).isOk = true ↔
      r.validTokens.lookup token = some daemonId := by
  by_cases ht : r.validTokens.lookup token = some daemonId
  · obtain ⟨registrations, hok⟩ := handleAuth_of_valid ht isDaemon nowMs
    rw [hok]
    exact ⟨fun _ => ht, fun _ => rfl⟩
  · rw [Registry.handleAuth, if_neg ht]
    exact ⟨fun hok => absurd hok (by decide), fun h => absurd h ht⟩

/-- No call changes the registration cap. -/
theorem apply_maxRegistrations (r : Registry) (op : RegistryOp) :
    (r.apply op).maxRegistrations = r.maxRegistrations := by
  have hupsert : ∀ daemonId isDaemon regToken nowMs,
      (r.upsertDaemonState daemonId isDaemon regToken nowMs).maxRegistrations =
        r.maxRegistrations := by
    intro daemonId isDaemon regToken nowMs
    unfold Registry.upsertDaemonState
    dsimp only
    split <;> rfl
  have hevict : ∀ (daemonIds : List String) (r' : Registry),
      (daemonIds.foldl Registry.evictDaemon r').maxRegistrations = r'.maxRegistrations := by
    intro daemonIds
    induction daemonIds with
    | nil => exact fun _ => rfl
    | cons daemonId daemonIds ih => exact fun r' => ih (r'.evictDaemon daemonId)
  cases op with
  | register daemonId token proof nowMs =>
    simp only [Registry.apply, Registry.handleRegister, Registry.dropStaleToken]
    repeat' split
    all_goals rfl
  | auth daemonId token isDaemon nowMs =>
    by_cases ht : r.validTokens.lookup token = some daemonId
    · obtain ⟨registrations, hok⟩ := handleAuth_of_valid ht isDaemon nowMs
      rw [Registry.apply, hok]
      exact hupsert _ _ _ _
    · rw [Registry.apply, Registry.handleAuth, if_neg ht]
      rfl
  | authResume daemonId isDaemon nowMs =>
    simp only [Registry.apply, Registry.handleAuthResume]
    split
    · exact hupsert _ _ _ _
    · rfl
  | daemonDisconnect daemonId nowMs => rfl
  | frontendDisconnect daemonId subscriptions => rfl
  | daemonPub daemonId sid nowMs => rfl
  | daemonPing daemonId nowMs => rfl
  | evict daemonId => rfl
  | checkStale nowMs staleTimeoutMs offlineEvictMs => exact hevict _ _

/-- The cap of a run is the cap it started with. -/
theorem run_maxRegistrations (cap : ℕ) (ops : List RegistryOp) :
    (runFrom Registry.apply (Registry.withMaxRegistrations cap) ops).maxRegistrations = cap := by
  have hstep : ∀ (r : Registry) (op : RegistryOp), r.maxRegistrations = cap →
      (r.apply op).maxRegistrations = cap := fun r op h => (apply_maxRegistrations r op).trans h
  exact runFrom_induction hstep rfl ops

/-- After any sequence of calls, states and registrations name the same
daemons under the same tokens, a token authenticates a daemon only while the
daemon is registered with it, and a positive cap bounds the registrations. -/
theorem registry_sound (cap : ℕ) (ops : List RegistryOp) :
    let r := runFrom Registry.apply (Registry.withMaxRegistrations cap) ops
    (∀ daemonId, daemonId ∈ r.daemonStates ↔ daemonId ∈ r.registrations) ∧
    (∀ daemonId state registration, r.daemonStates.lookup daemonId = some state →
      r.registrations.lookup daemonId = some registration →
      state.registrationToken = some registration.token) ∧
    (∀ token daemonId, r.validTokens.lookup token = some daemonId →
      ∃ registration, r.registrations.lookup daemonId = some registration ∧
        registration.token = token) ∧
    (∀ daemonId token isDaemon nowMs,
      (r.handleAuth daemonId token isDaemon nowMs).isOk = true →
      ∃ registration, r.registrations.lookup daemonId = some registration ∧
        registration.token = token) ∧
    (∀ daemonId token isDaemon nowMs,
      ((r.evictDaemon daemonId).handleAuth daemonId token isDaemon nowMs).isOk = false) ∧
    (0 < cap → dictSize r.registrations ≤ cap) := by
  intro r
  have h : Sound r := run_sound cap ops
  have htokens : ∀ token daemonId, r.validTokens.lookup token = some daemonId →
      ∃ registration, r.registrations.lookup daemonId = some registration ∧
        registration.token = token := fun token daemonId ht =>
    Option.map_eq_some_iff.mp (h.tokensCurrent token daemonId ht)
  refine ⟨fun _ => h.mem_states_iff, ?_, htokens, ?_, ?_, ?_⟩
  · intro daemonId state registration hs hg
    have hm := h.statesMatch daemonId
    rw [stateToken, currentToken, hs, hg] at hm
    exact Option.some_inj.mp hm
  · intro daemonId token isDaemon nowMs hok
    exact htokens token daemonId ((handleAuth_isOk_iff r daemonId token isDaemon nowMs).mp hok)
  · intro daemonId token isDaemon nowMs
    rw [Bool.eq_false_iff, ne_eq, handleAuth_isOk_iff]
    intro ht
    have hcur := (evictDaemon_sound h daemonId).tokensCurrent token daemonId ht
    simp [currentToken, Registry.evictDaemon] at hcur
  · intro hpos
    have hcap : r.maxRegistrations = cap := run_maxRegistrations cap ops
    rw [← hcap]
    exact h.capKept (hcap ▸ hpos)

/-- A call about some daemon other than this one. -/
def ForeignTo (daemonId : String) (op : RegistryOp) : Prop :=
  ∃ other, op.daemonId = some other ∧ other ≠ daemonId

/-- A call that takes a token out of the hands of whoever holds it: a
registration that passes both guards and either claims the token or rotates
away from it, or the eviction of a daemon whose state records it. -/
def TakesToken (token : String) (r : Registry) : RegistryOp → Prop
  | .register daemonId new proof _ =>
    r.capacityReached daemonId = false ∧ r.differentCredentials daemonId proof = false ∧
      (new = token ∨ currentToken r daemonId = some token)
  | .evict daemonId =>
    (r.daemonStates.lookup daemonId).bind DaemonState.registrationToken = some token
  | _ => False

/-- Seeding or reconnecting a state leaves the token map alone. -/
theorem upsertDaemonState_validTokens (r : Registry) (daemonId : String) (isDaemon : Bool)
    (regToken : Option String) (nowMs : ℕ) :
    (r.upsertDaemonState daemonId isDaemon regToken nowMs).validTokens = r.validTokens := by
  unfold Registry.upsertDaemonState
  dsimp only
  split <;> rfl

/-- Auth calls leave the token map alone, accepted or not. -/
theorem auth_validTokens (r : Registry) (daemonId token : String) (isDaemon : Bool) (nowMs : ℕ) :
    (r.commit (r.handleAuth daemonId token isDaemon nowMs)).validTokens = r.validTokens := by
  by_cases ht : r.validTokens.lookup token = some daemonId
  · obtain ⟨registrations, hok⟩ := handleAuth_of_valid ht isDaemon nowMs
    rw [hok]
    exact upsertDaemonState_validTokens r daemonId isDaemon _ nowMs
  · rw [Registry.handleAuth, if_neg ht]
    rfl

/-- A call about another daemon keeps a token for its owner exactly when it
does not take the token, and never gives the token to that owner. -/
theorem foreign_step {r : Registry} {op : RegistryOp} {daemonId : String}
    (hf : ForeignTo daemonId op) (token : String) :
    (r.apply op).validTokens.lookup token = some daemonId ↔
      r.validTokens.lookup token = some daemonId ∧ ¬TakesToken token r op := by
  obtain ⟨other, hop, hne⟩ := hf
  cases op with
  | register d new proof nowMs =>
    cases hop
    simp only [Registry.apply, Registry.handleRegister, TakesToken]
    split
    · next hcap => simp [Registry.commit, hcap]
    · next hcap =>
      split
      · next hcred => simp [Registry.commit, hcred]
      · next hcred =>
        rw [Registry.commit, lookup_validTokens_register]
        simp only [Bool.eq_false_iff.mpr hcap, Bool.eq_false_iff.mpr hcred, true_and]
        split
        · next ht => simp [ht, hne]
        · next ht =>
          split
          · next hcur => simp [hcur]
          · next hcur => simp [hcur, Ne.symm ht]
  | auth d tok isDaemon nowMs =>
    rw [Registry.apply, auth_validTokens]
    exact ⟨fun h => ⟨h, id⟩, And.left⟩
  | authResume d isDaemon nowMs =>
    have hkeep : (r.apply (.authResume d isDaemon nowMs)).validTokens = r.validTokens := by
      simp only [Registry.apply, Registry.handleAuthResume]
      split
      · exact upsertDaemonState_validTokens r d isDaemon none nowMs
      · rfl
    rw [hkeep]
    exact ⟨fun h => ⟨h, id⟩, And.left⟩
  | daemonDisconnect d nowMs => exact ⟨fun h => ⟨h, id⟩, And.left⟩
  | frontendDisconnect d subscriptions => exact ⟨fun h => ⟨h, id⟩, And.left⟩
  | daemonPub d sid nowMs => exact ⟨fun h => ⟨h, id⟩, And.left⟩
  | daemonPing d nowMs => exact ⟨fun h => ⟨h, id⟩, And.left⟩
  | evict d =>
    simp only [Registry.apply, Registry.evictDaemon, TakesToken]
    cases (r.daemonStates.lookup d).bind DaemonState.registrationToken with
    | none => simp
    | some old =>
      rw [lookup_erase_eq, Option.some_inj]
      split
      · next ht => simp [ht]
      · next ht => simp [Ne.symm ht]
  | checkStale nowMs staleTimeoutMs offlineEvictMs => cases hop

/-- Over a run of calls about other daemons, a token stays with its owner
exactly when it was there and no call took it. -/
theorem foreign_run {daemonId : String} (token : String) {ops : List RegistryOp}
    (hf : ∀ op ∈ ops, ForeignTo daemonId op) (r : Registry) :
    (runFrom Registry.apply r ops).validTokens.lookup token = some daemonId ↔
      r.validTokens.lookup token = some daemonId ∧
        Meets Registry.apply (fun s op => ¬TakesToken token s op) r ops := by
  induction ops generalizing r with
  | nil => exact ⟨fun h => ⟨h, trivial⟩, And.left⟩
  | cons op ops ih =>
    rw [runFrom_cons, ih (fun o ho => hf o (List.mem_cons_of_mem op ho)),
      foreign_step (hf op List.mem_cons_self), Meets, and_assoc]

/-- Calls about other daemons leave the outcome of an auth as it was exactly
when, should it have succeeded, none of them takes its token. -/
theorem auth_interference_iff (daemonId token : String) (r : Registry) (ops : List RegistryOp)
    (hf : ∀ op ∈ ops, ForeignTo daemonId op) (isDaemon : Bool) (nowMs : ℕ) :
    (((runFrom Registry.apply r ops).handleAuth daemonId token isDaemon nowMs).isOk =
        (r.handleAuth daemonId token isDaemon nowMs).isOk) ↔
      (r.validTokens.lookup token = some daemonId →
        Meets Registry.apply (fun s op => ¬TakesToken token s op) r ops) := by
  rw [Bool.eq_iff_iff, handleAuth_isOk_iff, handleAuth_isOk_iff, foreign_run token hf]
  constructor
  · intro h ht
    exact (h.mpr ht).2
  · intro h
    exact ⟨And.left, fun ht => ⟨ht, h ht⟩⟩

/-- Two daemons under distinct tokens: the rotation of one leaves the auth of
the other alone. -/
theorem auth_interference_rotation :
    ((runFrom Registry.apply (Registry.withMaxRegistrations 0)
      [.register "d1" "t1" "p" 0, .register "d2" "t2" "q" 0,
        .register "d2" "t3" "q" 1]).handleAuth "d1" "t1" true 2).isOk =
    ((runFrom Registry.apply (Registry.withMaxRegistrations 0)
      [.register "d1" "t1" "p" 0]).handleAuth "d1" "t1" true 2).isOk := by
  refine (auth_interference_iff "d1" "t1" (runFrom Registry.apply
    (Registry.withMaxRegistrations 0) [.register "d1" "t1" "p" 0])
    [.register "d2" "t2" "q" 0, .register "d2" "t3" "q" 1] ?_ true 2).mpr fun _ => ⟨?_, ?_, trivial⟩
  · simp [ForeignTo, RegistryOp.daemonId]
  · rintro ⟨-, -, h | h⟩
    · exact absurd h (by decide)
    · exact absurd h (by decide)
  · rintro ⟨-, -, h | h⟩
    · exact absurd h (by decide)
    · exact absurd h (by decide)

/-- A daemon that registers the token of another one locks it out. -/
theorem auth_interference_stolen :
    ¬∀ r, Reachable r → ∀ daemonId token, currentToken r daemonId = some token →
      ∀ ops : List RegistryOp, (∀ op ∈ ops, ForeignTo daemonId op) → ∀ isDaemon nowMs,
        ((runFrom Registry.apply r ops).handleAuth daemonId token isDaemon nowMs).isOk =
          (r.handleAuth daemonId token isDaemon nowMs).isOk := by
  intro h
  have hstep := h _ ⟨0, [.register "d1" "t" "p" 0], rfl⟩ "d1" "t" rfl
    [.register "d2" "t" "q" 1] (by simp [ForeignTo, RegistryOp.daemonId]) true 2
  exact absurd hstep (by decide)

end Teleprompter.RelayRegistrySound
