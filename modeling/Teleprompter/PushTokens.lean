import Teleprompter.RelayManager

/-!
# Push tokens of removed pairings

A removal deletes the stored push tokens of its pairing; the notifier keeps
them in memory, and a push whose pairing has no client goes through all of
the others. In every run in which a removal finishes only when no token of its
pairing is held and no push with one is on its way, no push for a removed
pairing is sent before a token is registered for it again.
-/

namespace Teleprompter.RelayManager

open FiniteDictionary KeyExchange StepRuns

/-- The daemon whose removal a stage finishes. -/
def Task.finishes : Task → Option String
  | .remove t =>
    match t.stage with
    | .reentrant | .releasing _ => some t.daemonId
    | _ => none
  | _ => none

/-- The daemon of a push that may still be sent. -/
def Task.unsent : Task → Option String
  | .push t => if t.targets = some [] then none else some t.request.daemonId
  | _ => none

/-- The step condition: a removal finishes when the notifier holds no token of
its daemon, and no push with one is on its way. -/
def Untokened (s : Daemon) : ManagerEvent → Prop
  | .run i _ => ∀ t ∈ s.tasks[i]?, ∀ daemonId ∈ t.finishes,
    (∀ entry ∈ s.manager.tokens.entries, entry.2.daemonId ≠ daemonId) ∧
      ∀ u ∈ s.tasks, u.unsent ≠ some daemonId
  | _ => True

/-- The step condition can be decided. -/
instance Untokened.decidable (s : Daemon) : (e : ManagerEvent) → Decidable (Untokened s e)
  | .run i _ => inferInstanceAs (Decidable (∀ t ∈ s.tasks[i]?, ∀ daemonId ∈ t.finishes,
    (∀ entry ∈ s.manager.tokens.entries, entry.2.daemonId ≠ daemonId) ∧
      ∀ u ∈ s.tasks, u.unsent ≠ some daemonId))
  | .removePairing .. | .renamePairing .. | .reconnectSaved | .promote .. | .connection ..
  | .authOk .. | .frontendJoined .. | .helloAsked .. | .pushToken .. | .pushTokenUseless ..
  | .peerUnpair .. | .peerRename .. | .record .. => isTrue trivial

/-- What holds between the steps of such a run. -/
structure Silent (s : Daemon) : Prop where
  /-- No token is held for a removed pairing. -/
  tokens : ∀ entry ∈ s.manager.tokens.entries, entry.2.daemonId ∉ s.manager.tokenless
  /-- No push for one is on its way. -/
  pushes : ∀ t ∈ s.tasks, ∀ daemonId, t.unsent = some daemonId → daemonId ∉ s.manager.tokenless
  /-- None was sent. -/
  sent : ∀ push ∈ s.manager.pushesSent, push.removed = false

/-- Nothing happens to the tokens. -/
structure SameTokens (m m' : Manager) : Prop where
  tokens : m'.tokens = m.tokens
  tokenless : m'.tokenless = m.tokenless
  pushesSent : m'.pushesSent = m.pushesSent

section Frames

variable {m : Manager}

/-- Nothing happens. -/
theorem SameTokens.refl (m : Manager) : SameTokens m m := ⟨rfl, rfl, rfl⟩

/-- A label is stored. -/
theorem sameTokens_tryRename (daemonId : String) (label : Label) (storeOk : Bool) :
    SameTokens m (m.tryRename daemonId label storeOk) := by
  unfold Manager.tryRename Manager.updatePairingLabel
  split
  · split
    · exact ⟨rfl, rfl, rfl⟩
    · exact SameTokens.refl m
  · exact SameTokens.refl m

/-- A row is deleted, with the stored tokens only. -/
theorem sameTokens_tryDelete (daemonId : String) (env : Env) :
    SameTokens m (m.tryDelete daemonId env) := by
  unfold Manager.tryDelete
  split
  · exact ⟨rfl, rfl, rfl⟩
  · exact SameTokens.refl m

/-- A broadcast. -/
theorem sameTokens_broadcast (id : ClientId) :
    SameTokens m (m.broadcastDaemonPublicKey id) := by
  unfold Manager.broadcastDaemonPublicKey
  split
  · split
    · exact ⟨rfl, rfl, rfl⟩
    · exact SameTokens.refl m
  · exact SameTokens.refl m

/-- A greeting is sent. -/
theorem sameTokens_greet (id : ClientId) (greeting : Greeting) :
    SameTokens m (m.greet id greeting) := by
  unfold Manager.greet
  split
  · exact ⟨rfl, rfl, rfl⟩
  · split
    · split
      · exact ⟨rfl, rfl, rfl⟩
      · exact SameTokens.refl m
    · exact SameTokens.refl m

/-- A stage that finishes no removal and sends no push. -/
theorem sameTokens_next {t : Task} (env : Env) (hf : t.finishes = none)
    (hp : ∀ push, t ≠ .push push) : SameTokens m (t.next m env).1 := by
  cases t with
  | remove t =>
    obtain ⟨d, notifyPeer, stage, reentrant, deleted⟩ := t
    cases stage with
    | start =>
      dsimp only [Task.next, RemoveTask.next]
      split
      · exact SameTokens.refl m
      · exact ⟨rfl, rfl, rfl⟩
    | reentrant | releasing notified => exact absurd hf nofun
    | notifying id peers notified => cases peers <;> exact SameTokens.refl m
    | deleting client notified => exact sameTokens_tryDelete d env
    | finding | found client | returned notified => exact SameTokens.refl m
    | disposing id notified | dropping id notified => exact ⟨rfl, rfl, rfl⟩
  | rename t =>
    dsimp only [Task.next]
    unfold RenameTask.next
    split
    · exact sameTokens_tryRename _ _ _
    all_goals exact SameTokens.refl m
  | reconnect t =>
    dsimp only [Task.next]
    unfold ReconnectTask.next
    split
    case h_5 =>
      split
      · exact ⟨rfl, rfl, rfl⟩
      · exact SameTokens.refl m
    all_goals exact ⟨rfl, rfl, rfl⟩
  | hello t =>
    dsimp only [Task.next]
    unfold HelloTask.next
    split
    case h_4 =>
      dsimp only
      split
      · exact sameTokens_greet _ _
      · exact SameTokens.refl m
    all_goals exact SameTokens.refl m
  | push t => exact absurd rfl (hp t)

end Frames

section Steps

variable {s : Daemon}

/-- What does nothing to the tokens and starts no push keeps the silence. -/
theorem Silent.same (h : Silent s) {s' : Daemon} (hm : SameTokens s.manager s'.manager)
    (htasks : ∀ t ∈ s'.tasks, t ∈ s.tasks ∨ t.unsent = none) : Silent s' := by
  refine ⟨?_, ?_, ?_⟩
  · rw [hm.tokens, hm.tokenless]
    exact h.tokens
  · intro t ht d hd
    rw [hm.tokenless]
    rcases htasks t ht with hold | hnone
    · exact h.pushes t hold d hd
    · exact absurd (hnone.symm.trans hd) nofun
  · rw [hm.pushesSent]
    exact h.sent

/-- A task is started that is no push. -/
theorem Silent.spawn (h : Silent s) {m' : Manager} (hm : SameTokens s.manager m') {t : Task}
    (ht : t.unsent = none) : Silent ({ s with manager := m' }.spawn [t]) := by
  refine h.same hm fun u hu => ?_
  rcases List.mem_append.mp hu with hold | hnew
  · exact .inl hold
  · rw [List.mem_singleton.mp hnew]
    exact .inr ht

/-- A removal finishes when nothing of its pairing is left. -/
theorem Silent.finish (h : Silent s) {m' : Manager} {d : String} {tasks : List Task}
    (htokens : m'.tokens = s.manager.tokens) (hless : m'.tokenless = d :: s.manager.tokenless)
    (hsent : m'.pushesSent = s.manager.pushesSent)
    (htasks : ∀ t ∈ tasks, t ∈ s.tasks ∨ t.unsent = none)
    (hheld : ∀ entry ∈ s.manager.tokens.entries, entry.2.daemonId ≠ d)
    (hway : ∀ t ∈ s.tasks, t.unsent ≠ some d) : Silent ⟨m', tasks⟩ := by
  refine ⟨?_, ?_, ?_⟩
  · dsimp only
    rw [htokens, hless]
    intro entry hentry hmem
    rcases List.mem_cons.mp hmem with heq | hold
    · exact hheld entry hentry heq
    · exact h.tokens entry hentry hold
  · dsimp only
    rw [hless]
    intro t ht d' hd' hmem
    rcases htasks t ht with hold | hnone
    · rcases List.mem_cons.mp hmem with rfl | hless'
      · exact hway t hold hd'
      · exact h.pushes t hold d' hd' hless'
    · exact absurd (hnone.symm.trans hd') nofun
  · dsimp only
    rw [hsent]
    exact h.sent

/-- A push goes on. -/
theorem Silent.nextPush (h : Silent s) {i : ℕ} {t : PushTask} (hget : s.tasks[i]? = some (.push t)) :
    Silent ⟨(t.next s.manager).1, s.tasks.set i (.push (t.next s.manager).2)⟩ := by
  have hmem : Task.push t ∈ s.tasks := List.mem_of_getElem? hget
  have hown : ∀ u ∈ s.tasks.set i (.push (t.next s.manager).2), ∀ d, u.unsent = some d →
      d ∉ s.manager.tokenless := by
    intro u hu d hd
    rcases List.mem_or_eq_of_mem_set hu with hold | rfl
    · exact h.pushes u hold d hd
    · refine h.pushes _ hmem d ?_
      obtain ⟨request, targets⟩ := t
      rcases targets with _ | _ | ⟨id, targets⟩
      · dsimp only [Task.unsent, PushTask.next] at hd ⊢
        split at hd
        · exact absurd hd nofun
        · exact hd
      · exact hd
      · dsimp only [Task.unsent, PushTask.next] at hd ⊢
        split at hd
        · exact absurd hd nofun
        · exact hd
  obtain ⟨request, targets⟩ := t
  rcases targets with _ | _ | ⟨id, targets⟩
  · exact ⟨h.tokens, hown, h.sent⟩
  · exact ⟨h.tokens, hown, h.sent⟩
  · dsimp only [PushTask.next] at hown ⊢
    rw [Manager.sendPush]
    split
    · refine ⟨h.tokens, hown, fun push hpush => ?_⟩
      rcases List.mem_append.mp hpush with hold | hnew
      · exact h.sent push hold
      · rw [List.mem_singleton.mp hnew]
        exact decide_eq_false (h.pushes _ hmem request.daemonId rfl)
    · exact ⟨h.tokens, hown, h.sent⟩

/-- A token is registered, and its pairing counts as removed no more. -/
theorem Silent.register (h : Silent s) (frontendId daemonId sealed platform : String)
    (saved : Bool) :
    Silent ⟨s.manager.registerSealedToken frontendId daemonId sealed platform saved, s.tasks⟩ := by
  have hless : ∀ d ∈ s.manager.tokenless.filter (· != daemonId),
      d ∈ s.manager.tokenless ∧ d ≠ daemonId := by
    intro d hd
    obtain ⟨hmem, hne⟩ := List.mem_filter.mp hd
    exact ⟨hmem, bne_iff_ne.mp hne⟩
  refine ⟨?_, fun t ht d hd hmem => h.pushes t ht d hd (hless d hmem).1, h.sent⟩
  intro entry hentry hmem
  have hcons : entry ∈ ⟨frontendId, ⟨sealed, platform, daemonId⟩⟩ ::
      s.manager.tokens.entries.kerase frontendId := hentry
  rcases List.mem_cons.mp hcons with rfl | hold
  · exact (hless _ hmem).2 rfl
  · exact h.tokens entry ((List.kerase_sublist _ _).subset hold) (hless _ hmem).1

/-- A token is dropped. -/
theorem Silent.drop (h : Silent s) (frontendId : String) (deleted : Bool) :
    Silent { s with manager := s.manager.dropToken frontendId deleted } := by
  rw [Manager.dropToken]
  split
  · refine ⟨fun entry hentry => ?_, h.pushes, h.sent⟩
    have hold : entry ∈ s.manager.tokens.entries.kerase frontendId := hentry
    exact h.tokens entry ((List.kerase_sublist _ _).subset hold)
  · exact h

/-- A record asks for pushes with the tokens that are held. -/
theorem Silent.record (h : Silent s) (isEvent : Bool) (name : Option String) :
    Silent (s.spawn ((s.manager.onRecord isEvent name).map fun request => .push ⟨request, none⟩)) := by
  refine ⟨h.tokens, fun t ht d hd => ?_, h.sent⟩
  rcases List.mem_append.mp ht with hold | hnew
  · exact h.pushes t hold d hd
  · obtain ⟨request, hrequest, rfl⟩ := List.mem_map.mp hnew
    rw [Manager.onRecord] at hrequest
    split at hrequest
    · obtain ⟨entry, hentry, rfl⟩ := List.mem_map.mp hrequest
      obtain rfl : entry.2.daemonId = d := Option.some.inj hd
      exact h.tokens entry hentry
    · exact absurd hrequest List.not_mem_nil

/-- A task that is no push goes on, and with it what it leaves. -/
theorem unsent_set {tasks : List Task} {i : ℕ} {t' : Task} (ht' : t'.unsent = none) :
    ∀ t ∈ tasks.set i t', t ∈ tasks ∨ t.unsent = none := by
  intro t ht
  rcases List.mem_or_eq_of_mem_set ht with hold | rfl
  · exact .inl hold
  · exact .inr ht'

/-- A stage of a removal. -/
theorem Silent.nextRemove (h : Silent s) {i : ℕ} {t : RemoveTask} (env : Env)
    (hfinish : ∀ d ∈ (Task.remove t).finishes,
      (∀ entry ∈ s.manager.tokens.entries, entry.2.daemonId ≠ d) ∧
        ∀ u ∈ s.tasks, u.unsent ≠ some d) :
    Silent ⟨(t.next s.manager env).1, s.tasks.set i (.remove (t.next s.manager env).2)⟩ := by
  have htasks : ∀ t' : RemoveTask, ∀ u ∈ s.tasks.set i (.remove t'), u ∈ s.tasks ∨ u.unsent = none :=
    fun _ => unsent_set rfl
  cases hf : (Task.remove t).finishes with
  | none => exact h.same (sameTokens_next env hf (by simp)) (htasks _)
  | some d =>
    obtain ⟨hheld, hway⟩ := hfinish d hf
    obtain ⟨daemonId, notifyPeer, stage, reentrant, deleted⟩ := t
    cases stage with
    | reentrant =>
      obtain rfl : daemonId = d := Option.some.inj hf
      have hdelete := sameTokens_tryDelete (m := s.manager) daemonId env
      exact h.finish hdelete.tokens (congrArg _ hdelete.tokenless) hdelete.pushesSent (htasks _)
        hheld hway
    | releasing notified =>
      obtain rfl : daemonId = d := Option.some.inj hf
      exact h.finish rfl rfl rfl (htasks _) hheld hway
    | _ => exact absurd hf nofun

/-- Every step that meets the condition keeps the silence. -/
theorem Silent.managerStep (h : Silent s) {e : ManagerEvent} (he : Untokened s e) :
    Silent (managerStep s e) := by
  have hrefl := SameTokens.refl s.manager
  have hsame : ∀ m', SameTokens s.manager m' → Silent { s with manager := m' } :=
    fun _ hm => h.same hm fun t ht => .inl ht
  cases e with
  | removePairing daemonId notifyPeer => exact h.spawn hrefl rfl
  | renamePairing daemonId label => exact h.spawn hrefl rfl
  | reconnectSaved => exact h.spawn hrefl rfl
  | promote config storeOk now =>
    dsimp only [RelayManager.managerStep, Daemon.promote]
    split
    · exact hsame _ ⟨rfl, rfl, rfl⟩
    · apply h.spawn
      · exact ⟨rfl, rfl, rfl⟩
      · rfl
  | connection id authenticated isOpen => exact hsame _ ⟨rfl, rfl, rfl⟩
  | authOk id resumed =>
    cases hget : s.manager.clients[id]? with
    | none => simpa only [RelayManager.managerStep, hget] using h
    | some c =>
      simp only [RelayManager.managerStep, hget]
      split
      · exact h
      · exact hsame _ (sameTokens_broadcast id)
  | frontendJoined id frontendId =>
    cases hget : s.manager.clients[id]? with
    | none => simpa only [RelayManager.managerStep, hget] using h
    | some c =>
      simp only [RelayManager.managerStep, hget]
      split
      · exact h
      · have hcast := sameTokens_broadcast (m := s.manager.modifyClient id fun c =>
          { c with peers := c.peers.insert frontendId }) id
        exact h.spawn ⟨hcast.tokens, hcast.tokenless, hcast.pushesSent⟩ rfl
  | helloAsked frontendId => exact h.spawn hrefl rfl
  | pushToken id frontendId sealed platform storeOk =>
    cases hget : s.manager.clients[id]? with
    | none => simpa only [RelayManager.managerStep, hget] using h
    | some c =>
      simpa only [RelayManager.managerStep, hget] using
        h.register frontendId c.config.daemonId sealed platform storeOk
  | pushTokenUseless frontendId storeOk => exact h.drop frontendId storeOk
  | peerUnpair id =>
    cases hget : s.manager.clients[id]? with
    | none => simpa only [RelayManager.managerStep, hget] using h
    | some c =>
      simp only [RelayManager.managerStep, hget]
      exact h.spawn hrefl rfl
  | peerRename id label storeOk =>
    cases hget : s.manager.clients[id]? with
    | none => simpa only [RelayManager.managerStep, hget] using h
    | some c =>
      simpa only [RelayManager.managerStep, hget] using
        hsame _ (sameTokens_tryRename c.config.daemonId label storeOk)
  | record isEvent name => exact h.record isEvent name
  | run i env =>
    rw [RelayManager.managerStep, Daemon.run]
    cases hget : s.tasks[i]? with
    | none => exact h
    | some t =>
      cases t with
      | remove t => exact h.nextRemove env (he _ hget)
      | rename t => exact h.same (sameTokens_next env rfl (by simp)) (unsent_set rfl)
      | reconnect t => exact h.same (sameTokens_next env rfl (by simp)) (unsent_set rfl)
      | hello t => exact h.same (sameTokens_next env rfl (by simp)) (unsent_set rfl)
      | push t => exact h.nextPush hget

end Steps

/-- In every run whose removals finish without a token or a push of their
pairing, no push for a removed pairing is sent before a token is registered
for it again. -/
theorem removed_pairing_unpushed {s : Daemon} (htokenless : s.manager.tokenless = [])
    (hsent : s.manager.pushesSent = []) {events : List ManagerEvent}
    (hm : Meets managerStep Untokened s events) :
    ∀ before, before <+: events →
      ∀ push ∈ (runFrom managerStep s before).manager.pushesSent, push.removed = false := by
  intro before hp
  have hstart : Silent s := by
    refine ⟨fun entry _ => ?_, fun t _ d _ => ?_, fun push hpush => ?_⟩
    · rw [htokenless]
      exact List.not_mem_nil
    · rw [htokenless]
      exact List.not_mem_nil
    · rw [hsent] at hpush
      exact absurd hpush List.not_mem_nil
  have hsilent : Silent (runFrom managerStep s before) :=
    runFrom_induction_of_meets (fun s e h he => h.managerStep he) hstart (meets_of_isPrefix hp hm)
  exact hsilent.sent

/-- Two pairings; a frontend gives a token to the client of the second one,
which is then removed while the client of the first one is connected. -/
def removeTokenOwner (useless : List ManagerEvent) : List ManagerEvent :=
  [.connection 0 true true, .pushToken 1 "phone" "blob" "ios" true] ++ useless ++
    .removePairing "e" false :: runs 0 7 true

/-- A hook event then asks for a push, which is sent. -/
def notifyAfterwards : List ManagerEvent := .record true (some "Notification") :: runs 1 2 true

/-- The token was dropped before the removal: only the other pairing's token
is used. -/
theorem removed_pairing_unpushed_once_dropped :
    let events := removeTokenOwner [.pushTokenUseless "phone" true,
      .pushToken 0 "tablet" "blob" "ios" true] ++ notifyAfterwards
    (runFrom managerStep (pairedDaemon ["d", "e"]) events).manager.pushesSent.length = 1 ∧
    ∀ push ∈ (runFrom managerStep (pairedDaemon ["d", "e"]) events).manager.pushesSent,
      push.removed = false := by
  intro events
  have hm : Meets managerStep Untokened (pairedDaemon ["d", "e"]) events := by decide +kernel
  exact ⟨by decide +kernel, removed_pairing_unpushed (by decide +kernel) (by decide +kernel) hm _
    List.prefix_rfl⟩

/-- The token of a removed pairing is sent through the client of another. -/
theorem removed_pairing_pushed :
    (pairedDaemon ["d", "e"]).manager.tokenless = [] ∧
    (pairedDaemon ["d", "e"]).manager.pushesSent = [] ∧
    let removal := runFrom managerStep (pairedDaemon ["d", "e"]) (removeTokenOwner [])
    removal.tasks = [.remove ⟨"e", false, .returned 0, false, some true⟩] ∧
    removal.manager.pushTokens.entries = [] ∧
    (runFrom managerStep removal notifyAfterwards).manager.pushesSent =
      [⟨⟨"phone", "blob", "e"⟩, 0, true⟩] := by
  decide +kernel

end Teleprompter.RelayManager
