import Teleprompter.RelayPresence
import Teleprompter.ResumeTokens

/-!
# Resume tokens of evicted daemons

A sweep evicts a daemon that was offline for longer than the eviction
interval, counted from its last traffic. A daemon's token is issued with
traffic of that daemon, so when tokens live no longer than the interval, every
token issued to the daemon before an eviction has expired by then. It stays
rejected when the daemon registers again.
-/

namespace Teleprompter.ResumeEviction

open StepRuns RelayServer RelayRegistry RelayConn RelayEffects RelayPresence ResumeTokens

/-- A relay whose resume tokens come from a signer. -/
def signedBy (signer : ResumeTokenSigner) (env : RelayEnv) : RelayEnv :=
  { env with
    issue := fun payload now => signer.issue payload now none
    verify := signer.verify }

/-- The relay after a run from its start. -/
def relayAfter (env : RelayEnv) (events : List RelayEvent) : RelayState :=
  runFrom (relayStep env) (RelayState.initial env) events

/-- The event is an auth or a resume in the daemon role. -/
def asDaemon (env : RelayEnv) : RelayEvent → Prop
  | .inbound _ (.message (.auth role _ _ _ _)) _ _ _ => role = .daemon
  | .inbound _ (.message (.authResume token _)) _ _ now =>
    ∃ daemonId expiresAt, env.verify token now = some (.daemon daemonId expiresAt)
  | _ => False

/-- The event answers a daemon-role auth or resume with a token for the daemon. -/
def Issued (env : RelayEnv) (s : RelayState) (e : RelayEvent) (daemonId token : String) : Prop :=
  asDaemon env e ∧ ∃ connId expiresAt resumed,
    Action.send connId (.authOk daemonId (some token) expiresAt resumed) ∈
      (relayStepActions env s e).2

/-- The event is a sweep that evicts the daemon. -/
def Evicted (env : RelayEnv) (s : RelayState) (e : RelayEvent) (daemonId : String) : Prop :=
  ∃ now, e = .sweep now ∧ daemonId ∈
    (s.core.registry.checkStaleDaemons now env.staleTimeoutMs env.offlineEvictMs).2.evicted

/-- The clock does not run backwards along the events and up to a last reading. -/
def Forward (events : List RelayEvent) (now : ℕ) : Prop :=
  (events.filterMap eventTime ++ [now]).Pairwise (· ≤ ·)

instance (events : List RelayEvent) (now : ℕ) : Decidable (Forward events now) :=
  inferInstanceAs (Decidable (List.Pairwise _ _))

/-- Whatever the registry knows of the daemon, its last traffic is not older. -/
def SeenSince (r : Registry) (daemonId : String) (t : ℕ) : Prop :=
  ∀ status, statusOf r daemonId = some status → t ≤ status.2

/-- A success reply is not among the presence messages. -/
theorem authOk_of_finishAuth {core : RelayCore} {connId c : ConnId} {reply : RelayServerMessage}
    {role : Role} {daemonId d : String} {frontendId token : Option String} {expiresAt : Option ℕ}
    {resumed : Option Bool}
    (h : Action.send c (.authOk d token expiresAt resumed) ∈
      (finishAuth core connId reply role daemonId frontendId).2.actions) :
    reply = .authOk d token expiresAt resumed := by
  rcases List.mem_cons.mp h with heq | hpresence
  · injection heq with _ hreply
    exact hreply.symm
  · unfold presenceActions at hpresence
    split at hpresence
    · cases hpresence
    · obtain ⟨_, _, heq⟩ := List.mem_map.mp hpresence
      injection heq with _ hreply
      cases hreply

/-- The operation lets a connection in as the daemon. -/
def JoinsAsDaemon (op : CoreOp) (daemonId : String) (now : ℕ) : Prop :=
  ∃ connId auth credential, op = .join connId auth credential now ∧ auth.role = .daemon ∧
    auth.daemonId = daemonId

/-- A token in the answer to a daemon's auth comes with an accepted auth. -/
theorem auth_issues {env : RelayEnv} {core : RelayCore} {connId c : ConnId} {now : ℕ}
    {daemonId authToken d token : String} {v : ℚ} {frontendId : Option String}
    {expiresAt : Option ℕ} {resumed : Option Bool}
    (h : Action.send c (.authOk d (some token) expiresAt resumed) ∈
      (dispatchAdmitted env core connId now
        (.auth .daemon daemonId authToken v frontendId)).2.actions) :
    JoinsAsDaemon (messageOp env core connId now (.auth .daemon daemonId authToken v frontendId)) d
        now ∧ token = (env.issue (.daemon d 0) now).1 := by
  have hfront : ¬((Role.daemon = .frontend) ∧ (frontendId = none ∨ frontendId = some "")) :=
    fun hrole => by cases hrole.1
  simp only [dispatchAdmitted, RelayConn.handleAuth] at h
  rw [if_neg (by simp)] at h
  by_cases hvalid : core.registry.validTokens.lookup authToken = some daemonId
  · obtain ⟨registrations, hok⟩ := RelayRegistrySound.handleAuth_of_valid hvalid
      (decide True) now
    rw [hok] at h
    have hreply := authOk_of_finishAuth h
    simp only [authOkReply, RelayServerMessage.authOk.injEq, Option.some.injEq] at hreply
    obtain ⟨rfl, htoken, -⟩ := hreply
    rw [messageOp, if_neg hfront, if_pos hvalid]
    exact ⟨⟨_, _, _, rfl, rfl, rfl⟩, htoken.symm⟩
  · rw [Registry.handleAuth, if_neg hvalid] at h
    simp [rejectAuth, DispatchOutcome.ofActions] at h

/-- A token in the answer to a daemon's resume comes with an accepted resume. -/
theorem resume_issues {env : RelayEnv} {core : RelayCore} {connId c : ConnId} {now : ℕ}
    {daemonId resumeToken d token : String} {v : ℚ} {expires : ℕ} {expiresAt : Option ℕ}
    {resumed : Option Bool} (hverify : env.verify resumeToken now = some (.daemon daemonId expires))
    (h : Action.send c (.authOk d (some token) expiresAt resumed) ∈
      (dispatchAdmitted env core connId now (.authResume resumeToken v)).2.actions) :
    JoinsAsDaemon (messageOp env core connId now (.authResume resumeToken v)) d now ∧
      token = (env.issue (.daemon d 0) now).1 := by
  simp only [dispatchAdmitted, RelayConn.handleAuthResume, hverify, resumeIdentity] at h
  by_cases hreg : daemonId ∈ core.registry.registrations
  · rw [Registry.handleAuthResume, if_pos hreg] at h
    have hreply := authOk_of_finishAuth h
    simp only [authOkReply, RelayServerMessage.authOk.injEq, Option.some.injEq] at hreply
    obtain ⟨rfl, htoken, -⟩ := hreply
    have hop : messageOp env core connId now (.authResume resumeToken v) =
        .join connId ⟨.daemon, daemonId, none, ∅⟩ none now := by
      simp only [messageOp, hverify]
      exact if_pos hreg
    exact ⟨⟨_, _, _, hop, rfl, rfl⟩, htoken.symm⟩
  · rw [Registry.handleAuthResume, if_neg hreg] at h
    simp [DispatchOutcome.ofActions] at h

/-- A token is issued by the dispatch of a message that nothing held up. -/
theorem inbound_issues {env : RelayEnv} {core : RelayCore} {connId c : ConnId}
    {clientOk groupOk : Bool} {now : ℕ} {msg : RelayClientMessage} {d token : String}
    {expiresAt : Option ℕ} {resumed : Option Bool}
    (h : Action.send c (.authOk d (some token) expiresAt resumed) ∈
      (handleInbound env core connId clientOk groupOk now (.message msg)).2.actions) :
    inboundOp env (countPreauth core connId) connId clientOk groupOk now (.message msg) =
        messageOp env (countPreauth core connId) connId now msg ∧
      Action.send c (.authOk d (some token) expiresAt resumed) ∈
        (dispatchAdmitted env (countPreauth core connId) connId now msg).2.actions := by
  simp only [handleInbound] at h
  unfold inboundOp
  dsimp only
  generalize countPreauth core connId = counted at h ⊢
  by_cases hover : overPreauthBudget env counted connId = true
  · rw [if_pos hover] at h
    cases h
  · rw [if_neg hover] at h ⊢
    unfold dispatchLocked at h
    by_cases hclient : rateChecked counted connId msg = true ∧ ¬clientOk = true
    · rw [if_pos hclient] at h
      simp [rateLimited, DispatchOutcome.ofActions] at h
    · rw [if_neg hclient] at h
      by_cases hgroup : rateChecked counted connId msg = true ∧ ¬groupOk = true
      · rw [if_pos hgroup] at h
        simp [rateLimited, DispatchOutcome.ofActions] at h
      · rw [if_neg hgroup] at h
        rw [if_neg]
        · exact ⟨rfl, h⟩
        · rintro ⟨hrate, hneither⟩
          refine hneither ⟨?_, ?_⟩
          · by_contra hno
            exact hclient ⟨hrate, hno⟩
          · by_contra hno
            exact hgroup ⟨hrate, hno⟩

/-- An inbound message issues a token only while its socket is read. -/
theorem relayStep_issues {env : RelayEnv} {s : RelayState} {connId c : ConnId}
    {clientOk groupOk : Bool} {now : ℕ} {msg : RelayClientMessage} {d token : String}
    {expiresAt : Option ℕ} {resumed : Option Bool}
    (h : Action.send c (.authOk d (some token) expiresAt resumed) ∈
      (relayStepActions env s (.inbound connId (.message msg) clientOk groupOk now)).2) :
    ∃ core, effectOf env s (.inbound connId (.message msg) clientOk groupOk now) =
        messageOp env core connId now msg ∧
      Action.send c (.authOk d (some token) expiresAt resumed) ∈
        (dispatchAdmitted env core connId now msg).2.actions := by
  unfold relayStepActions at h
  unfold effectOf baseOf
  dsimp only at h ⊢
  by_cases hreading : s.sockets.lookup connId = some .reading
  · simp only [hreading, if_true] at h ⊢
    exact ⟨_, inbound_issues h⟩
  · rw [if_neg hreading] at h
    cases h

/-- A daemon's token is issued when the daemon is let in, for that time. -/
theorem Issued.joins {env : RelayEnv} {s : RelayState} {e : RelayEvent} {daemonId token : String}
    (h : Issued env s e daemonId token) :
    ∃ now, eventTime e = some now ∧ JoinsAsDaemon (effectOf env s e) daemonId now ∧
      token = (env.issue (.daemon daemonId 0) now).1 := by
  obtain ⟨hrole, c, expiresAt, resumed, hsent⟩ := h
  unfold asDaemon at hrole
  split at hrole
  · rename_i connId role d authToken v frontendId clientOk groupOk now
    obtain ⟨core, heffect, hadmitted⟩ := relayStep_issues hsent
    rw [hrole] at hadmitted heffect ⊢
    rw [heffect]
    exact ⟨now, rfl, auth_issues hadmitted⟩
  · rename_i connId resumeToken v clientOk groupOk now
    obtain ⟨d, expires, hverify⟩ := hrole
    obtain ⟨core, heffect, hadmitted⟩ := relayStep_issues hsent
    rw [heffect]
    exact ⟨now, rfl, resume_issues hverify hadmitted⟩
  · exact hrole.elim

/-- Letting the daemon in is traffic of the daemon. -/
theorem seenSince_of_joins {env : RelayEnv} {s : RelayState} (hs : Grounded s) {e : RelayEvent}
    {daemonId : String} {now : ℕ} (h : JoinsAsDaemon (effectOf env s e) daemonId now) :
    SeenSince (relayStep env s e).core.registry daemonId now := by
  obtain ⟨connId, auth, credential, hop, hrole, hdaemon⟩ := h
  have hsound : RelayRegistrySound.Sound (baseOf s e).registry := by
    rw [(baseOf_view s e).1]
    exact hs.2
  have hadmissible := effectOf_admissible hs.1 env e
  rw [hop] at hadmissible
  intro status hstatus
  rw [relayStep_core, hop, statusOf_apply hsound env hadmissible nofun nofun, statusAfter,
    if_pos ⟨hdaemon.symm, hrole⟩] at hstatus
  rw [← Option.some.inj hstatus]

/-- Later events never set the last traffic back. -/
theorem SeenSince.relayStep {env : RelayEnv} {s : RelayState} (hs : Grounded s) {e : RelayEvent}
    {daemonId : String} {t : ℕ} (h : SeenSince s.core.registry daemonId t)
    (htime : ∀ now, eventTime e = some now → t ≤ now) :
    SeenSince (relayStep env s e).core.registry daemonId t := by
  have hview := (baseOf_view s e).1
  have hsound : RelayRegistrySound.Sound (baseOf s e).registry := hview ▸ hs.2
  intro status hstatus
  rw [relayStep_core] at hstatus
  rcases status_seen hsound (effectOf_admissible hs.1 env e) hstatus with hop | ⟨⟨online, hold⟩, -⟩
  · exact htime status.2 (opTime_effectOf hop)
  · rw [hview] at hold
    exact h (online, status.2) hold

/-- Along later events the last traffic is not set back. -/
theorem SeenSince.run (env : RelayEnv) {daemonId : String} {t : ℕ} (events : List RelayEvent)
    (htimes : ∀ e ∈ events, ∀ now, eventTime e = some now → t ≤ now) {s : RelayState}
    (hs : Grounded s) (h : SeenSince s.core.registry daemonId t) :
    SeenSince (runFrom (RelayConn.relayStep env) s events).core.registry daemonId t := by
  have hkept : ∀ s e, Grounded s ∧ SeenSince s.core.registry daemonId t →
      (∀ now, eventTime e = some now → t ≤ now) →
      Grounded (RelayConn.relayStep env s e) ∧
        SeenSince (RelayConn.relayStep env s e).core.registry daemonId t :=
    fun s e hinv htime => ⟨relayStep_grounded env s e hinv.1, hinv.2.relayStep hinv.1 htime⟩
  have hmeets : Meets (RelayConn.relayStep env) (fun _ e => ∀ now, eventTime e = some now → t ≤ now)
      s events := meets_of_forall_mem (fun e he _ => htimes e he) s
  have hinv : Grounded s ∧ SeenSince s.core.registry daemonId t := ⟨hs, h⟩
  exact (runFrom_induction_of_meets hkept hinv hmeets).2

/-- An evicted daemon was without traffic for longer than the interval. -/
theorem Evicted.time_lt {env : RelayEnv} {s : RelayState} {e : RelayEvent} {daemonId : String}
    {t : ℕ} (h : Evicted env s e daemonId) (hseen : SeenSince s.core.registry daemonId t) :
    ∃ now, eventTime e = some now ∧ t + env.offlineEvictMs < now := by
  obtain ⟨now, rfl, hmem⟩ := h
  obtain ⟨state, hlookup, hexpired⟩ := (mem_daemonsWhere _ _ _).mp hmem
  have hmarked : statusOf (s.core.registry.markStale now env.staleTimeoutMs) daemonId =
      some (state.online, state.lastSeen) := by
    rw [statusOf, hlookup, Option.map_some]
  rw [statusOf_markStale] at hmarked
  obtain ⟨status, hstatus, heq⟩ := Option.map_eq_some_iff.mp hmarked
  have hlast : t ≤ state.lastSeen := by
    rw [← (Prod.mk.inj heq).2]
    exact hseen status hstatus
  simp only [DaemonState.isExpired, decide_eq_true_eq] at hexpired
  exact ⟨now, rfl, by omega⟩

/-- What the clock says about a run with a token issued and an eviction. -/
theorem Forward.times {before between after : List RelayEvent} {grant evict : RelayEvent}
    {t sweep now : ℕ} (h : Forward (before ++ grant :: (between ++ evict :: after)) now)
    (hgrant : eventTime grant = some t) (hevict : eventTime evict = some sweep) :
    (∀ e ∈ between, ∀ n, eventTime e = some n → t ≤ n) ∧ sweep ≤ now := by
  unfold Forward at h
  rw [List.filterMap_append, List.append_assoc, List.filterMap_cons_some hgrant,
    List.filterMap_append, List.filterMap_cons_some hevict, List.cons_append,
    List.append_assoc] at h
  have hrest := (List.pairwise_append.mp h).2.1
  obtain ⟨hfirst, htail⟩ := List.pairwise_cons.mp hrest
  refine ⟨fun e he n hn => hfirst n ?_, ?_⟩
  · exact List.mem_append.mpr (.inl (List.mem_filterMap.mpr ⟨e, he, hn⟩))
  · have hlast := (List.pairwise_append.mp htail).2.1
    exact (List.pairwise_cons.mp hlast).1 now (List.mem_append.mpr (.inr List.mem_cons_self))

/-- When tokens live no longer than the eviction interval and the clock does
not run backwards, a daemon's token issued before an eviction of the daemon is
rejected at and after that eviction, whatever happened in between. -/
theorem resume_rejected_after_eviction (signer : ResumeTokenSigner) (config : RelayEnv)
    (httl : signer.ttlMs ≤ config.offlineEvictMs) (before between after : List RelayEvent)
    (grant evict : RelayEvent) (now : ℕ) (daemonId token : String)
    (hclock : Forward (before ++ grant :: (between ++ evict :: after)) now)
    (hissued : Issued (signedBy signer config) (relayAfter (signedBy signer config) before) grant
      daemonId token)
    (hevicted : Evicted (signedBy signer config)
      (relayAfter (signedBy signer config) (before ++ grant :: between)) evict daemonId) :
    (handleAuthResume (signedBy signer config)
      (relayAfter (signedBy signer config)
        (before ++ grant :: (between ++ evict :: after))).core.registry token now).2 =
      .error "Resume token invalid or expired" := by
  obtain ⟨t, hgrant, hjoins, rfl⟩ := hissued.joins
  obtain ⟨sweep, hevict, -⟩ : ∃ sweep, eventTime evict = some sweep ∧ evict = .sweep sweep := by
    obtain ⟨sweep, rfl, -⟩ := hevicted
    exact ⟨sweep, rfl, rfl⟩
  obtain ⟨hbetween, hnow⟩ := hclock.times hgrant hevict
  have hgrounded : Grounded (relayAfter (signedBy signer config) before) :=
    runFrom_induction (relayStep_grounded _) (initial_grounded _) before
  have hseen := SeenSince.run (signedBy signer config) between hbetween
    (relayStep_grounded _ _ grant hgrounded) (seenSince_of_joins hgrounded hjoins)
  have hrun : relayAfter (signedBy signer config) (before ++ grant :: between) =
      runFrom (relayStep (signedBy signer config)) (relayStep (signedBy signer config)
        (relayAfter (signedBy signer config) before) grant) between := List.foldl_append
  rw [hrun] at hevicted
  obtain ⟨sweep', hevict', hlate⟩ := hevicted.time_lt hseen
  have hsame : sweep = sweep' := Option.some.inj (hevict.symm.trans hevict')
  have hexpired : t + signer.ttlMs ≤ now := by
    change t + config.offlineEvictMs < sweep' at hlate
    omega
  have hverify : (signedBy signer config).verify
      ((signedBy signer config).issue (.daemon daemonId 0) t).1 now = none :=
    signer.verify_issue_of_le (.daemon daemonId 0) hexpired
  rw [handleAuthResume, hverify]

/-- The keyed hash under a key of 32 times the letter s, where it is needed:
the token of daemon d1 that is issued at time 1000 and lives for an hour. -/
def sampleHash (body : FrameCodec.Bytes) : FrameCodec.Bytes :=
  if body = [2, 0, 0, 0, 0, 2, 100, 49, 0, 0, 0, 0, 0, 0, 0, 0, 0, 54, 242, 104] then
    [252, 205, 68, 6, 85, 113, 230, 46, 207, 28, 80, 7, 39, 76, 78, 139, 46, 30, 218, 44, 163, 32,
      127, 211, 254, 203, 168, 127, 18, 221, 29, 69]
  else List.replicate 32 0

/-- A signer with the default lifetime. -/
def sampleSigner : ResumeTokenSigner := ⟨Base64.urlSafe, sampleHash, defaultTtlMs⟩

/-- The token that the signer issues to daemon d1 at time 1000. -/
def sampleToken : String := "AgAAAAACZDEAAAAAAAAAAAA28mg._M1EBlVx5i7PHFAHJ0xOiy4e2iyjIH_T_suofxLdHUU"

/-- Daemon d1 registers. -/
def sampleRegister (connId : ConnId) (now : ℕ) : RelayEvent :=
  say connId (.register "d1" "proof" "tok" 2) now

/-- Daemon d1 authenticates. -/
def sampleAuth : RelayEvent := say 1 (.auth .daemon "d1" "tok" 2 none) 1000

/-- A token that was good to its last millisecond is rejected by the sweep that
evicts its daemon and after the daemon has registered again. -/
theorem resume_rejected_after_eviction_sample :
    sampleSigner.verify sampleToken 3600999 = some (.daemon "d1" 3601000) ∧
      (handleAuthResume (signedBy sampleSigner plainEnv)
        (relayAfter (signedBy sampleSigner plainEnv)
          ([.accept, sampleRegister 1 1000] ++ sampleAuth :: ([.teardown 1 1000] ++
            .sweep 3601001 :: [.accept, sampleRegister 2 3601001]))).core.registry sampleToken
        3601001).2 = .error "Resume token invalid or expired" :=
  ⟨by decide +kernel,
    resume_rejected_after_eviction sampleSigner plainEnv (by decide)
      [.accept, sampleRegister 1 1000] [.teardown 1 1000] [.accept, sampleRegister 2 3601001]
      sampleAuth (.sweep 3601001) 3601001 "d1" sampleToken (by decide +kernel)
      ⟨rfl, 1, some 3601000, some false, by decide +kernel⟩
      ⟨3601001, rfl, by decide +kernel⟩⟩

end Teleprompter.ResumeEviction
