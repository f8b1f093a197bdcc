import Teleprompter.RelayPresence

/-!
# One rate budget per daemon

The limiter of a daemon is stored beside its group, and every connection that
authenticates for the daemon takes a reference to it. A limiter is dropped with
the last member of the group, or by the sweep when no group remains; a second
limiter for the same daemon would double its budget. A limiter is known by its
identity. Every operation other than an accepted auth only takes limiters away,
and only together with their groups.
-/

namespace Teleprompter.GroupBudgets

open FiniteDictionary StepRuns RelayRegistry RelayServer RelayConn RelayEffects

/-- The connections of a daemon share the limiter that is stored for it. -/
structure OneBudget (core : RelayCore) : Prop where
  /-- A connection that is authenticated for a daemon holds the stored limiter. -/
  shared : ∀ c handle auth, core.conns.lookup c = some handle → handle.auth = some auth →
    ∃ limiter, handle.groupLimiter = some limiter ∧
      core.groupLimiters.lookup auth.daemonId = some limiter
  /-- Exactly the daemons with a group have a limiter. -/
  sameKeys : ∀ daemonId, daemonId ∈ core.groupLimiters ↔ daemonId ∈ core.groups
  /-- No two daemons share a limiter. -/
  separate : ∀ d d' limiter, core.groupLimiters.lookup d = some limiter →
    core.groupLimiters.lookup d' = some limiter → d = d'

/-- Budgets with what keeps them: members are grouped and identities are fresh. -/
structure Sound (core : RelayCore) : Prop extends OneBudget core where
  grouped : ∀ c auth, core.authedState c = some auth → core.InGroup auth.daemonId c
  fresh : ∀ daemonId limiter, core.groupLimiters.lookup daemonId = some limiter →
    limiter < core.nextLimiter

variable {core core' : RelayCore}

/-- An authenticated connection of the later state was authenticated for the same
daemon before, with the same limiter. -/
def Retains (core core' : RelayCore) : Prop :=
  ∀ c handle' auth', core'.conns.lookup c = some handle' → handle'.auth = some auth' →
    ∃ handle auth, core.conns.lookup c = some handle ∧ handle.auth = some auth ∧
      auth.daemonId = auth'.daemonId ∧ handle.groupLimiter = handle'.groupLimiter

/-- A group with a member is stored. -/
theorem mem_groups_of_inGroup {daemonId : String} {c : ConnId} (h : core.InGroup daemonId c) :
    daemonId ∈ core.groups := by
  rw [mem_iff_lookup]
  cases hgroup : core.groups.lookup daemonId with
  | none =>
    rw [RelayCore.InGroup, RelayCore.groupMembers, hgroup] at h
    cases h
  | some group => exact ⟨group, rfl⟩

theorem authedState_of_lookup {c : ConnId} {handle : ConnHandle} {auth : AuthState}
    (hlookup : core.conns.lookup c = some handle) (hauth : handle.auth = some auth) :
    core.authedState c = some auth := by
  rw [RelayCore.authedState, hlookup]
  exact hauth

section Shrink

/-- Limiters are taken away only together with their groups. -/
structure Shrinks (core core' : RelayCore) : Prop where
  kept : ∀ d limiter, core'.groupLimiters.lookup d = some limiter →
    core.groupLimiters.lookup d = some limiter
  sameKeys : (∀ d, d ∈ core.groupLimiters ↔ d ∈ core.groups) →
    ∀ d, d ∈ core'.groupLimiters ↔ d ∈ core'.groups
  nextLimiter : core'.nextLimiter = core.nextLimiter

/-- Budgets that only shrink stay sound as long as members stay grouped: the limiter
of a daemon with a live member is still stored. -/
theorem Sound.shrink (h : Sound core) (hretains : Retains core core') (hshrinks : Shrinks core core')
    (hgrouped : ∀ c auth, core'.authedState c = some auth → core'.InGroup auth.daemonId c) :
    Sound core' := by
  have hkeys := hshrinks.sameKeys h.sameKeys
  refine ⟨⟨fun c handle' auth' hlookup' hauth' => ?_, hkeys, fun d d' limiter hd hd' => ?_⟩,
    hgrouped, fun d limiter hd => ?_⟩
  · obtain ⟨handle, auth, hlookup, hauth, hdaemon, hlimiter⟩ := hretains c handle' auth' hlookup' hauth'
    obtain ⟨limiter, hheld, hstored⟩ := h.shared c handle auth hlookup hauth
    have hmember := hgrouped c auth' (authedState_of_lookup hlookup' hauth')
    obtain ⟨left, hleft⟩ := mem_iff_lookup.mp ((hkeys auth'.daemonId).mpr (mem_groups_of_inGroup hmember))
    have hsame : core.groupLimiters.lookup auth'.daemonId = some left := hshrinks.kept _ _ hleft
    rw [← hdaemon, hstored, Option.some_inj] at hsame
    exact ⟨limiter, hlimiter ▸ hheld, hsame ▸ hleft⟩
  · exact h.separate d d' limiter (hshrinks.kept d limiter hd) (hshrinks.kept d' limiter hd')
  · rw [hshrinks.nextLimiter]
    exact h.fresh d limiter (hshrinks.kept d limiter hd)

theorem shrinks_of_eq (hlimiters : core'.groupLimiters = core.groupLimiters)
    (hgroups : core'.groups = core.groups) (hnext : core'.nextLimiter = core.nextLimiter) :
    Shrinks core core' := by
  refine ⟨fun d limiter hd => hlimiters ▸ hd, fun hkeys d => ?_, hnext⟩
  rw [hlimiters, hgroups]
  exact hkeys d

theorem Shrinks.trans {core'' : RelayCore} (h : Shrinks core core') (h' : Shrinks core' core'') :
    Shrinks core core'' :=
  ⟨fun d limiter hd => h.kept d limiter (h'.kept d limiter hd),
    fun hkeys => h'.sameKeys (h.sameKeys hkeys), h'.nextLimiter.trans h.nextLimiter⟩

/-- The last member of a group takes the limiter along. -/
theorem shrinks_removeFromGroup (core : RelayCore) (daemonId : String) (connId : ConnId) :
    Shrinks core (core.removeFromGroup daemonId connId) := by
  rw [RelayCore.removeFromGroup]
  split
  · exact shrinks_of_eq rfl rfl rfl
  · rename_i group hgroup
    split
    · refine ⟨fun d limiter hd => ?_, fun hkeys d => ?_, rfl⟩
      · rw [lookup_erase_eq] at hd
        split at hd
        · cases hd
        · exact hd
      · rw [AList.mem_erase, AList.mem_erase, hkeys d]
    · refine ⟨fun d limiter hd => hd, fun hkeys d => ?_, rfl⟩
      rw [AList.mem_insert, hkeys d]
      refine ⟨.inr, fun h => h.elim (fun heq => ?_) id⟩
      exact mem_iff_lookup.mpr ⟨group, heq ▸ hgroup⟩

/-- An eviction drops a limiter only when no group remains, so it drops none. -/
theorem shrinks_dropEvicted (core : RelayCore) (daemonId : String) :
    Shrinks core (dropEvicted core daemonId) := by
  refine ⟨fun d limiter hd => ?_, fun hkeys d => ?_, rfl⟩
  · dsimp only [dropEvicted] at hd
    split at hd
    · exact hd
    · rw [lookup_erase_eq] at hd
      split at hd
      · cases hd
      · exact hd
  · dsimp only [dropEvicted]
    split
    · exact hkeys d
    · next hgone =>
      rw [AList.mem_erase, hkeys d]
      exact ⟨And.right, fun hd => ⟨fun heq => hgone (heq ▸ hd), hd⟩⟩

theorem shrinks_foldl_dropEvicted (daemonIds : List String) (core : RelayCore) :
    Shrinks core (daemonIds.foldl dropEvicted core) := by
  induction daemonIds generalizing core with
  | nil => exact shrinks_of_eq rfl rfl rfl
  | cons daemonId daemonIds ih => exact (shrinks_dropEvicted core daemonId).trans (ih _)

end Shrink

section Retain

theorem retains_of_eq (hconns : core'.conns = core.conns) : Retains core core' := by
  intro c handle auth hlookup hauth
  exact ⟨handle, auth, hconns ▸ hlookup, hauth, rfl, rfl⟩

/-- Handles whose auth changes within its daemon keep their limiters. -/
theorem retains_alterKey {connId : ConnId} {f : ConnHandle → ConnHandle}
    (hconns : core'.conns = alterKey connId f core.conns)
    (hf : ∀ handle auth', (f handle).auth = some auth' → ∃ auth, handle.auth = some auth ∧
      auth.daemonId = auth'.daemonId ∧ handle.groupLimiter = (f handle).groupLimiter) :
    Retains core core' := by
  intro c handle' auth' hlookup' hauth'
  rw [hconns, lookup_alterKey] at hlookup'
  split at hlookup'
  · obtain ⟨handle, hlookup, rfl⟩ := Option.map_eq_some_iff.mp hlookup'
    obtain ⟨auth, hauth, hdaemon, hlimiter⟩ := hf handle auth' hauth'
    exact ⟨handle, auth, hlookup, hauth, hdaemon, hlimiter⟩
  · exact ⟨handle', auth', hlookup', hauth', rfl, rfl⟩

theorem retains_alterAuth (core : RelayCore) (connId : ConnId) {f : AuthState → AuthState}
    (hf : ∀ auth, (f auth).daemonId = auth.daemonId)
    (hconns : core'.conns = (core.alterAuth connId f).conns) : Retains core core' := by
  refine retains_alterKey hconns fun handle auth' hauth' => ?_
  obtain ⟨auth, hauth, rfl⟩ := Option.map_eq_some_iff.mp hauth'
  exact ⟨auth, hauth, (hf auth).symm, rfl⟩

theorem retains_countPreauth (core : RelayCore) (connId : ConnId) :
    Retains core (countPreauth core connId) := by
  refine retains_alterKey rfl fun handle auth' hauth' => ?_
  by_cases hnone : handle.auth.isNone
  · rw [if_pos hnone] at hauth'
    rw [Option.isNone_iff_eq_none.mp hnone] at hauth'
    cases hauth'
  · rw [if_neg hnone] at hauth' ⊢
    exact ⟨auth', hauth', rfl, rfl⟩

theorem retains_erase (connId : ConnId) (hconns : core'.conns = core.conns.erase connId) :
    Retains core core' := by
  intro c handle auth hlookup hauth
  rw [hconns, lookup_erase_eq] at hlookup
  split at hlookup
  · cases hlookup
  · exact ⟨handle, auth, hlookup, hauth, rfl, rfl⟩

end Retain

section Operations

theorem shrinks_handleClose (core : RelayCore) (connId : ConnId) (now : ℕ) :
    Shrinks core (handleClose core connId now).1 := by
  rw [handleClose]
  split
  · exact shrinks_of_eq rfl rfl rfl
  · dsimp only
    split
    · exact shrinks_of_eq rfl rfl rfl
    · rename_i auth hauth
      have hreleased : ∀ released : RelayCore, Shrinks core released →
          Shrinks core (if auth.role = .daemon then
            ((released.removeFromGroup auth.daemonId connId).alterRegistry
              (Registry.daemonDisconnect auth.daemonId now), some auth.daemonId)
          else (released.removeFromGroup auth.daemonId connId, none)).1 := by
        intro released hshrinks
        have hleft := hshrinks.trans (shrinks_removeFromGroup released auth.daemonId connId)
        split
        · exact hleft.trans (shrinks_of_eq rfl rfl rfl)
        · exact hleft
      apply hreleased
      split <;> exact shrinks_of_eq rfl rfl rfl

theorem retains_routeSubscribe (core : RelayCore) (connId : ConnId) (sid : String)
    (after : Option ℕ) : Retains core (routeSubscribe core connId sid after).1 := by
  rw [routeSubscribe]
  split
  · exact retains_of_eq rfl
  · split
    · exact retains_of_eq rfl
    · refine retains_alterAuth core connId (f := fun a =>
        { a with subscriptions := a.subscriptions.insert sid () }) (fun _ => rfl) ?_
      dsimp only
      split <;> rfl

theorem shrinks_routeSubscribe (core : RelayCore) (connId : ConnId) (sid : String)
    (after : Option ℕ) : Shrinks core (routeSubscribe core connId sid after).1 := by
  rw [routeSubscribe]
  split
  · exact shrinks_of_eq rfl rfl rfl
  · split
    · exact shrinks_of_eq rfl rfl rfl
    · dsimp only
      split <;> exact shrinks_of_eq rfl rfl rfl

theorem retains_routeUnsubscribe (core : RelayCore) (connId : ConnId) (sid : String) :
    Retains core (routeUnsubscribe core connId sid) := by
  rw [routeUnsubscribe]
  split
  · exact retains_of_eq rfl
  · refine retains_alterAuth core connId (f := fun a =>
      { a with subscriptions := a.subscriptions.erase sid }) (fun _ => rfl) ?_
    dsimp only
    split <;> rfl

theorem shrinks_routeUnsubscribe (core : RelayCore) (connId : ConnId) (sid : String) :
    Shrinks core (routeUnsubscribe core connId sid) := by
  rw [routeUnsubscribe]
  split
  · exact shrinks_of_eq rfl rfl rfl
  · dsimp only
    split <;> exact shrinks_of_eq rfl rfl rfl

/-- Operations other than an accepted auth bring no connection into a daemon and
only take limiters away. -/
theorem retains_and_shrinks (env : RelayEnv) (core : RelayCore) {op : CoreOp}
    (hjoin : ∀ connId auth token now, op ≠ .join connId auth token now) :
    Retains core (op.apply env core) ∧ Shrinks core (op.apply env core) := by
  cases op with
  | skip => exact ⟨retains_of_eq rfl, shrinks_of_eq rfl rfl rfl⟩
  | accept connId =>
    refine ⟨fun c handle auth hlookup hauth => ?_, shrinks_of_eq rfl rfl rfl⟩
    rw [CoreOp.apply, lookup_insert_eq] at hlookup
    split at hlookup
    · cases hlookup
      cases hauth
    · exact ⟨handle, auth, hlookup, hauth, rfl, rfl⟩
  | register daemonId token proof now =>
    exact ⟨retains_of_eq rfl, shrinks_of_eq rfl rfl rfl⟩
  | join connId auth token now => exact absurd rfl (hjoin connId auth token now)
  | publish connId client sid ct seq now =>
    rw [CoreOp.apply, routePublish]
    dsimp only
    split <;> exact ⟨retains_of_eq rfl, shrinks_of_eq rfl rfl rfl⟩
  | subscribe connId sid after =>
    exact ⟨retains_routeSubscribe core connId sid after, shrinks_routeSubscribe core connId sid after⟩
  | unsubscribe connId sid =>
    exact ⟨retains_routeUnsubscribe core connId sid, shrinks_routeUnsubscribe core connId sid⟩
  | ping connId client now =>
    rw [CoreOp.apply, routePing]
    dsimp only
    split <;> exact ⟨retains_of_eq rfl, shrinks_of_eq rfl rfl rfl⟩
  | close connId now =>
    exact ⟨retains_erase connId (conns_handleClose core connId now), shrinks_handleClose core connId now⟩
  | sweep now =>
    rw [CoreOp.apply, staleSweep]
    dsimp only
    refine ⟨retains_of_eq (dropEvicted_fold _ _).1, ?_⟩
    have hchecked : Shrinks core { core with
        registry := (core.registry.checkStaleDaemons now env.staleTimeoutMs env.offlineEvictMs).1 } :=
      shrinks_of_eq rfl rfl rfl
    exact hchecked.trans (shrinks_foldl_dropEvicted _ _)

end Operations

section Join

/-- A stored limiter is reused, and a fresh one has an identity of its own. -/
theorem lookup_seedGroupLimiter (core : RelayCore) (daemonId d : String) :
    (core.seedGroupLimiter daemonId).groupLimiters.lookup d =
      if d = daemonId then some ((core.groupLimiters.lookup daemonId).getD core.nextLimiter)
      else core.groupLimiters.lookup d := by
  rw [RelayCore.seedGroupLimiter]
  by_cases hmem : daemonId ∈ core.groupLimiters
  · rw [if_pos hmem]
    obtain ⟨limiter, hlimiter⟩ := mem_iff_lookup.mp hmem
    split
    · next hd => rw [hd, hlimiter, Option.getD_some]
    · rfl
  · rw [if_neg hmem]
    dsimp only
    rw [lookup_insert_eq, AList.lookup_eq_none.mpr hmem, Option.getD_none]

/-- An accepted auth: whoever authenticates takes the one limiter of the daemon. -/
theorem Sound.join (h : Sound core) (connId : ConnId) (auth : AuthState)
    (hgrouped : ∀ c auth', (registerAuthedConn core connId auth).authedState c = some auth' →
      (registerAuthedConn core connId auth).InGroup auth'.daemonId c) :
    Sound (registerAuthedConn core connId auth) := by
  have hlimiters : ∀ d, (registerAuthedConn core connId auth).groupLimiters.lookup d =
      if d = auth.daemonId then
        some ((core.groupLimiters.lookup auth.daemonId).getD core.nextLimiter)
      else core.groupLimiters.lookup d := lookup_seedGroupLimiter core auth.daemonId
  have hstored : ∀ d limiter, (registerAuthedConn core connId auth).groupLimiters.lookup d =
      some limiter → core.groupLimiters.lookup d = some limiter ∨
        (d = auth.daemonId ∧ auth.daemonId ∉ core.groupLimiters ∧ limiter = core.nextLimiter) := by
    intro d limiter hd
    rw [hlimiters] at hd
    split at hd
    · next heq =>
      subst heq
      cases hold : core.groupLimiters.lookup auth.daemonId with
      | some old =>
        rw [hold, Option.getD_some] at hd
        exact .inl hd
      | none =>
        rw [hold, Option.getD_none, Option.some_inj] at hd
        exact .inr ⟨rfl, AList.lookup_eq_none.mp hold, hd.symm⟩
    · exact .inl hd
  have hgroups : ∀ d, d ∈ (registerAuthedConn core connId auth).groups ↔
      d = auth.daemonId ∨ d ∈ core.groups := by
    intro d
    dsimp only [registerAuthedConn, RelayCore.addToGroup]
    rw [AList.mem_insert, (seedGroupLimiter_view core auth.daemonId).2.1]
  refine ⟨⟨fun c handle' auth' hlookup hauth => ?_, fun d => ?_, fun d d' limiter hd hd' => ?_⟩,
    hgrouped, fun d limiter hd => ?_⟩
  · rw [hlimiters]
    dsimp only [registerAuthedConn, RelayCore.addToGroup] at hlookup
    rw [lookup_alterKey, (seedGroupLimiter_view core auth.daemonId).1] at hlookup
    split at hlookup
    · obtain ⟨handle, -, rfl⟩ := Option.map_eq_some_iff.mp hlookup
      cases hauth
      dsimp only
      rw [if_pos rfl, lookup_seedGroupLimiter, if_pos rfl]
      exact ⟨_, rfl, rfl⟩
    · obtain ⟨limiter, hheld, hold⟩ := h.shared c handle' auth' hlookup hauth
      refine ⟨limiter, hheld, ?_⟩
      split
      · next heq => rw [← heq, hold, Option.getD_some]
      · exact hold
  · rw [hgroups, mem_iff_lookup, hlimiters]
    split
    · next heq => exact ⟨fun _ => .inl heq, fun _ => ⟨_, rfl⟩⟩
    · next hne =>
      rw [← mem_iff_lookup, h.sameKeys d]
      exact ⟨.inr, fun hd => hd.resolve_left hne⟩
  · rcases hstored d limiter hd with hold | ⟨rfl, hnew, rfl⟩
    · rcases hstored d' limiter hd' with hold' | ⟨rfl, hnew, rfl⟩
      · exact h.separate d d' limiter hold hold'
      · exact absurd (h.fresh d _ hold) (lt_irrefl _)
    · rcases hstored d' _ hd' with hold' | ⟨rfl, -, -⟩
      · exact absurd (h.fresh d' _ hold') (lt_irrefl _)
      · rfl
  · have hnext : (registerAuthedConn core connId auth).nextLimiter =
        if auth.daemonId ∈ core.groupLimiters then core.nextLimiter else core.nextLimiter + 1 := by
      dsimp only [registerAuthedConn, RelayCore.addToGroup, RelayCore.seedGroupLimiter]
      split <;> rfl
    rw [hnext]
    rcases hstored d limiter hd with hold | ⟨-, hnew, rfl⟩
    · have hlt := h.fresh d limiter hold
      split <;> omega
    · rw [if_neg hnew]
      exact Nat.lt_succ_self _

end Join

section Runs

theorem sound_apply (h : Sound core) (env : RelayEnv) (op : CoreOp) : Sound (op.apply env core) := by
  have hgrouped := RelayPresence.inGroup_step h.grouped env op
  by_cases hjoin : ∃ connId auth token now, op = .join connId auth token now
  · obtain ⟨connId, auth, token, now, rfl⟩ := hjoin
    have haltered : Sound (core.alterRegistry fun r => r.commit (joinCall r auth token now)) :=
      h.shrink (retains_of_eq rfl) (shrinks_of_eq rfl rfl rfl) h.grouped
    exact haltered.join connId auth hgrouped
  · have hother : ∀ connId auth token now, op ≠ .join connId auth token now :=
      fun connId auth token now heq => hjoin ⟨connId, auth, token, now, heq⟩
    obtain ⟨hretains, hshrinks⟩ := retains_and_shrinks env core hother
    exact h.shrink hretains hshrinks hgrouped

theorem sound_baseOf {s : RelayState} (h : Sound s.core) (e : RelayEvent) : Sound (baseOf s e) := by
  have hgrouped : ∀ c auth, (baseOf s e).authedState c = some auth →
      (baseOf s e).InGroup auth.daemonId c := by
    obtain ⟨-, hgroups, hauth, -⟩ := baseOf_view s e
    intro c auth hc
    rw [RelayCore.InGroup, RelayCore.groupMembers, hgroups]
    exact h.grouped c auth (hauth c ▸ hc)
  unfold baseOf at hgrouped ⊢
  split
  · exact h
  · split
    · exact h.shrink (retains_countPreauth s.core _) (shrinks_of_eq rfl rfl rfl) fun c auth hc =>
        h.grouped c auth (authedState_countPreauth s.core _ c ▸ hc)
    · exact h
  · exact h

theorem sound_relayStep (env : RelayEnv) (s : RelayState) (e : RelayEvent) (h : Sound s.core) :
    Sound (relayStep env s e).core := by
  rw [relayStep_core]
  exact sound_apply (sound_baseOf h e) env (effectOf env s e)

theorem sound_initial (env : RelayEnv) : Sound (RelayState.initial env).core := by
  refine ⟨⟨fun c handle auth hlookup => ?_, fun d => Iff.rfl, fun d d' limiter hd => ?_⟩,
    fun c auth hc => ?_, fun d limiter hd => ?_⟩
  · cases hlookup
  · cases hd
  · cases hc
  · cases hd

/-- In every state of every run, the connections of a daemon share the one limiter
that is stored for it, and limiters are stored exactly beside groups. -/
theorem one_budget_per_daemon (env : RelayEnv) (events : List RelayEvent) :
    OneBudget (runFrom (relayStep env) (RelayState.initial env) events).core :=
  have hsound : Sound (runFrom (relayStep env) (RelayState.initial env) events).core :=
    runFrom_induction (sound_relayStep env) (sound_initial env) events
  hsound.toOneBudget

end Runs

end Teleprompter.GroupBudgets
