import Teleprompter.PairingReconnect

/-!
# The label of a pairing and its copies

The label of a pairing is stored in its row; a client keeps the one it was
created with, a greeting the one its client had, and a reconnect that of the
snapshot. A key exchange carries the client's copy and a hello the greeting's,
while a rename changes the row only. In every run in which a rename is stored
only when all copies have the new label already, every label that is sent
after a rename is the stored one.
-/

namespace Teleprompter.RelayManager

open FiniteDictionary KeyExchange StepRuns

/-- The client may still send: it is not disposed, or has a sender. -/
def Client.isLive (c : Client) : Bool := !c.disposed || c.isOpen

/-- Configurations of the clients that may still send. -/
def Manager.live (m : Manager) : List RelayClientConfig :=
  (m.clients.filter Client.isLive).map Client.config

/-- The label that a greeting still to be sent has captured, and for which
daemon. -/
def Task.greets : Task → Option (String × Label)
  | .hello t =>
    match t.greeting with
    | .joined label daemonId =>
      if t.stage = .finished then none else some (daemonId, label.getD .unset)
    | .asked => none
  | _ => none

/-- What a task is still to save or send for the daemon has the label. -/
def Task.Carries (daemonId : String) (label : Label) (t : Task) : Prop :=
  (∀ save ∈ t.saves, save.1 = daemonId → save.2 = some label) ∧
    ∀ greeting ∈ t.greets, greeting.1 = daemonId → greeting.2 = label

/-- Every copy of the daemon's label has this value. -/
def Carries (s : Daemon) (daemonId : String) (label : Label) : Prop :=
  (∀ config ∈ s.manager.live, config.daemonId = daemonId → config.label.getD .unset = label) ∧
    ∀ t ∈ s.tasks, t.Carries daemonId label

/-- The step condition: a label is stored when every copy has it. -/
def Agreeing (s : Daemon) : ManagerEvent → Prop
  | .run i env => ∀ t ∈ s.tasks[i]?, ∀ rename ∈ t.relabels env, rename.1 ∈ s.manager.rows →
    Carries s rename.1 rename.2
  | .peerRename id label storeOk => storeOk = true → ∀ c ∈ s.manager.clients[id]?,
    c.config.daemonId ∈ s.manager.rows → Carries s c.config.daemonId label
  | _ => True

/-- Whether all copies agree can be decided. -/
instance Carries.decidable (s : Daemon) (daemonId : String) (label : Label) :
    Decidable (Carries s daemonId label) :=
  inferInstanceAs (Decidable ((∀ config ∈ s.manager.live, config.daemonId = daemonId →
    config.label.getD .unset = label) ∧ ∀ t ∈ s.tasks,
      (∀ save ∈ t.saves, save.1 = daemonId → save.2 = some label) ∧
        ∀ greeting ∈ t.greets, greeting.1 = daemonId → greeting.2 = label))

/-- The step condition can be decided. -/
instance Agreeing.decidable (s : Daemon) : (e : ManagerEvent) → Decidable (Agreeing s e)
  | .run i env => inferInstanceAs (Decidable (∀ t ∈ s.tasks[i]?, ∀ rename ∈ t.relabels env,
    rename.1 ∈ s.manager.rows → Carries s rename.1 rename.2))
  | .peerRename id label storeOk => inferInstanceAs (Decidable (storeOk = true →
    ∀ c ∈ s.manager.clients[id]?, c.config.daemonId ∈ s.manager.rows →
      Carries s c.config.daemonId label))
  | .removePairing .. | .renamePairing .. | .reconnectSaved | .promote .. | .connection ..
  | .authOk .. | .frontendJoined .. | .helloAsked .. | .pushToken .. | .pushTokenUseless ..
  | .peerUnpair .. | .record .. => isTrue trivial

/-- A label that was sent after a rename is the one that was stored. -/
def LabelSent.Agrees (sent : LabelSent) : Prop :=
  sent.renamed = true → ∀ label, sent.stored = some label → sent.label = label

/-- What holds between the steps of such a run. -/
structure Agreed (s : Daemon) : Prop where
  labelled : Labelled s.manager
  /-- Every copy has the label that was stored last. -/
  copies : ∀ daemonId label, s.manager.renamed.lookup daemonId = some label →
    Carries s daemonId label
  /-- And so had those that were sent. -/
  sent : ∀ sent ∈ s.manager.labelsSent, sent.Agrees

/-- Rows and what was sent stay, and no client is revived. -/
structure Unlabelled (m m' : Manager) : Prop where
  rows : m'.rows = m.rows
  renamed : m'.renamed = m.renamed
  live : m'.live ⊆ m.live
  labelsSent : m'.labelsSent = m.labelsSent

section Frames

variable {m : Manager}

/-- Nothing happens. -/
theorem Unlabelled.refl (m : Manager) : Unlabelled m m := ⟨rfl, rfl, List.Subset.refl _, rfl⟩

/-- A live client's configuration is live. -/
theorem mem_live {id : ClientId} {c : Client} (hget : m.clients[id]? = some c)
    (hc : c.isLive = true) : c.config ∈ m.live :=
  List.mem_map_of_mem (List.mem_filter.mpr ⟨List.mem_of_getElem? hget, hc⟩)

/-- A change of a client object that neither revives it nor changes its
configuration. -/
theorem unlabelled_modifyClient {f : Client → Client}
    (hf : ∀ c, (f c).config = c.config ∧ ((f c).isLive = true → c.isLive = true)) (m : Manager)
    (id : ClientId) : Unlabelled m (m.modifyClient id f) := by
  refine ⟨rfl, rfl, fun config hconfig => ?_, rfl⟩
  obtain ⟨c, hc, rfl⟩ := List.mem_map.mp hconfig
  obtain ⟨hmem, hlive⟩ := List.mem_filter.mp hc
  obtain ⟨j, hj⟩ := List.mem_iff_getElem?.mp hmem
  rw [Manager.modifyClient, List.getElem?_modify] at hj
  obtain ⟨old, hold, hnew⟩ := Option.map_eq_some_iff.mp hj
  split at hnew
  · rw [← hnew, (hf old).1]
    exact mem_live hold ((hf old).2 (hnew ▸ hlive))
  · subst hnew
    exact mem_live hold hlive

/-- A dispose. -/
theorem unlabelled_dispose (m : Manager) (id : ClientId) : Unlabelled m (m.dispose id) := by
  apply unlabelled_modifyClient
  exact fun c => ⟨rfl, fun h => absurd h Bool.false_ne_true⟩

end Frames

section Steps

variable {s : Daemon}

/-- What touches no label keeps the agreement. -/
theorem Agreed.keep (h : Agreed s) {m' : Manager} (hm : Unlabelled s.manager m') :
    Agreed { s with manager := m' } := by
  refine ⟨h.labelled.congr hm.rows hm.renamed, ?_, ?_⟩
  · intro d label hl
    have hl' : m'.renamed.lookup d = some label := hl
    rw [hm.renamed] at hl'
    obtain ⟨hclients, htasks⟩ := h.copies d label hl'
    exact ⟨fun config hc => hclients config (hm.live hc), htasks⟩
  · dsimp only
    rw [hm.labelsSent]
    exact h.sent

/-- Tasks are started or go on, each carrying the stored labels. -/
theorem Agreed.tasks (h : Agreed s) {tasks : List Task}
    (htasks : ∀ t ∈ tasks, t ∈ s.tasks ∨
      ∀ d label, s.manager.renamed.lookup d = some label → t.Carries d label) :
    Agreed { s with tasks } := by
  refine ⟨h.labelled, fun d label hl => ?_, h.sent⟩
  obtain ⟨hclients, hold⟩ := h.copies d label hl
  refine ⟨hclients, fun t ht => ?_⟩
  rcases htasks t ht with hmem | hnew
  · exact hold t hmem
  · exact hnew d label hl

/-- A task goes on, carrying the stored labels. -/
theorem Agreed.setTask (h : Agreed s) {i : ℕ} {t' : Task}
    (ht' : ∀ d label, s.manager.renamed.lookup d = some label → t'.Carries d label) :
    Agreed { s with tasks := s.tasks.set i t' } := by
  refine h.tasks fun t ht => ?_
  rcases List.mem_or_eq_of_mem_set ht with hold | rfl
  · exact .inl hold
  · exact .inr ht'

/-- A task that holds no label carries every one. -/
theorem carries_of_plain {t : Task} (hsaves : t.saves = []) (hgreets : t.greets = none)
    (d : String) (label : Label) : t.Carries d label := by
  refine ⟨?_, ?_⟩
  · rw [hsaves]
    exact fun save hs => absurd hs List.not_mem_nil
  · rw [hgreets]
    exact nofun

/-- A task is started that carries the stored labels. -/
theorem Agreed.spawn (h : Agreed s) {new : List Task}
    (hnew : ∀ t ∈ new, ∀ d label, s.manager.renamed.lookup d = some label → t.Carries d label) :
    Agreed (s.spawn new) := by
  refine h.tasks fun t ht => ?_
  rcases List.mem_append.mp ht with hold | hn
  · exact .inl hold
  · exact .inr (hnew t hn)

/-- A label is sent that is the stored one. -/
theorem Agreed.send (h : Agreed s) (d : String) (label : Label)
    (hlabel : ∀ last, s.manager.renamed.lookup d = some last → label = last) :
    Agreed { s with manager := s.manager.recordLabel d label } := by
  refine ⟨h.labelled.congr rfl rfl, h.copies, fun sent hsent => ?_⟩
  rcases List.mem_append.mp hsent with hold | hnew
  · exact h.sent sent hold
  · rw [List.mem_singleton.mp hnew]
    intro hrenamed stored hstored
    have hmem : d ∈ s.manager.renamed := of_decide_eq_true hrenamed
    obtain ⟨last, hlast⟩ := Option.isSome_iff_exists.mp (AList.lookup_isSome.mpr hmem)
    obtain ⟨row, hrow, rfl⟩ := Option.map_eq_some_iff.mp hstored
    exact (hlabel last hlast).trans (h.labelled.labels d last hlast row hrow).symm

/-- A client broadcasts its key and label. -/
theorem Agreed.broadcast (h : Agreed s) (id : ClientId) :
    Agreed { s with manager := s.manager.broadcastDaemonPublicKey id } := by
  unfold Manager.broadcastDaemonPublicKey
  split
  · rename_i c hget
    split
    · rename_i hopen
      have hlive : c.isLive = true := by rw [Client.isLive, hopen, Bool.or_true]
      exact h.send _ _ fun last hl => (h.copies _ last hl).1 _ (mem_live hget hlive) rfl
    · exact h
  · exact h

/-- A label is stored that every copy has. -/
theorem Agreed.relabel (h : Agreed s) {d : String} {label : Label}
    (hcopies : d ∈ s.manager.rows → Carries s d label) :
    Agreed { s with manager := s.manager.updatePairingLabel d label } := by
  have hlabelled := h.labelled.relabel d label
  unfold Manager.updatePairingLabel at hlabelled ⊢
  split at hlabelled
  · rename_i hd
    rw [if_pos hd]
    refine ⟨hlabelled, fun d' label' hl => ?_, h.sent⟩
    have hl' : (s.manager.renamed.insert d label).lookup d' = some label' := hl
    rw [lookup_insert_eq] at hl'
    split at hl'
    · rename_i heq
      obtain rfl : label = label' := Option.some.inj hl'
      rw [heq]
      exact hcopies hd
    · exact h.copies d' label' hl'
  · rename_i hd
    rw [if_neg hd]
    exact h

/-- A row is deleted. -/
theorem Agreed.tryDelete (h : Agreed s) (d : String) (env : Env) :
    Agreed { s with manager := s.manager.tryDelete d env } := by
  unfold Manager.tryDelete
  split
  · exact ⟨h.labelled.delete d, h.copies, h.sent⟩
  · exact h

/-- A row is saved with the label that was stored last. -/
theorem Agreed.save (h : Agreed s) {config : RelayClientConfig} {label : Label} (now : ℕ)
    (hlabel : ∀ last, s.manager.renamed.lookup config.daemonId = some last → label = last) :
    Agreed { s with manager := s.manager.savePairing config label now } :=
  ⟨h.labelled.save now hlabel, h.copies, h.sent⟩

/-- A client object is created with the label that was stored last. -/
theorem Agreed.create (h : Agreed s) (config : RelayClientConfig)
    (hlabel : ∀ last, s.manager.renamed.lookup config.daemonId = some last →
      config.label.getD .unset = last) :
    Agreed { s with manager :=
      { s.manager with clients := s.manager.clients ++ [Client.new config] } } := by
  refine ⟨h.labelled.congr rfl rfl, fun d label hl => ?_, h.sent⟩
  obtain ⟨hclients, htasks⟩ := h.copies d label hl
  refine ⟨fun config' hc hd => ?_, htasks⟩
  dsimp only [Manager.live] at hc
  rw [List.filter_append, List.map_append] at hc
  rcases List.mem_append.mp hc with hold | hnew
  · exact hclients config' hold hd
  · obtain rfl : config' = config := List.mem_singleton.mp hnew
    exact hlabel label (hd ▸ hl)

/-- A rename is forgotten. -/
theorem Agreed.forget (h : Agreed s) (d : String) :
    Agreed { s with manager := { s.manager with renamed := s.manager.renamed.erase d } } := by
  have hold : ∀ d' label, (s.manager.renamed.erase d).lookup d' = some label →
      s.manager.renamed.lookup d' = some label := by
    intro d' label hl
    rw [lookup_erase_eq] at hl
    split at hl
    · exact absurd hl nofun
    · exact hl
  exact ⟨⟨h.labelled.keys, fun d' label hl => h.labelled.labels d' label (hold d' label hl)⟩,
    fun d' label hl => h.copies d' label (hold d' label hl), h.sent⟩

/-- A completed pairing starts with its own label. -/
theorem Agreed.promote (h : Agreed s) (config : RelayClientConfig) (storeOk : Bool) (now : ℕ) :
    Agreed (s.promote config storeOk now) := by
  have hforgot : ∀ last, (s.manager.renamed.erase config.daemonId).lookup config.daemonId ≠
      some last := by
    intro last hl
    rw [lookup_erase_eq, if_pos rfl] at hl
    exact absurd hl nofun
  have hcreated := (h.forget config.daemonId).create config
    fun last hl => absurd hl (hforgot last)
  have hpooled : Agreed { s with manager := { s.manager with
      clients := s.manager.clients ++ [Client.new config]
      pool := s.manager.pool ++ [s.manager.clients.length]
      renamed := s.manager.renamed.erase config.daemonId } } :=
    hcreated.keep ⟨rfl, rfl, List.Subset.refl _, rfl⟩
  unfold Daemon.promote
  dsimp only
  split
  · exact hpooled.save now fun last hl => absurd hl (hforgot last)
  · refine hpooled.spawn fun t ht d label _ => ?_
    rw [List.mem_singleton.mp ht]
    exact carries_of_plain rfl rfl d label

/-- A stage of a removal. -/
theorem Agreed.nextRemove (h : Agreed s) {i : ℕ} (t : RemoveTask) (env : Env) :
    Agreed ⟨(t.next s.manager env).1, s.tasks.set i (.remove (t.next s.manager env).2)⟩ := by
  suffices hm : Agreed { s with manager := (t.next s.manager env).1 } from
    hm.setTask fun d label _ => carries_of_plain rfl rfl d label
  have hlive := List.Subset.refl s.manager.live
  obtain ⟨d, notifyPeer, stage, reentrant, deleted⟩ := t
  cases stage with
  | start =>
    dsimp only [RemoveTask.next]
    split
    · exact h
    · exact h.keep ⟨rfl, rfl, hlive, rfl⟩
  | reentrant => exact (h.tryDelete d env).keep ⟨rfl, rfl, List.Subset.refl _, rfl⟩
  | notifying id peers notified => cases peers <;> exact h
  | deleting client notified => exact h.tryDelete d env
  | disposing id notified => exact h.keep (unlabelled_dispose s.manager id)
  | dropping id notified | releasing notified => exact h.keep ⟨rfl, rfl, hlive, rfl⟩
  | finding | found client | returned notified => exact h

/-- A stage of a rename. -/
theorem Agreed.nextRename (h : Agreed s) {i : ℕ} {t : RenameTask} {env : Env}
    (hcopies : ∀ rename ∈ (Task.rename t).relabels env, rename.1 ∈ s.manager.rows →
      Carries s rename.1 rename.2) :
    Agreed ⟨(t.next s.manager env).1, s.tasks.set i (.rename (t.next s.manager env).2)⟩ := by
  suffices hm : Agreed { s with manager := (t.next s.manager env).1 } from
    hm.setTask fun d label _ => carries_of_plain rfl rfl d label
  unfold RenameTask.next
  split
  · rename_i hst
    dsimp only
    rw [Manager.tryRename]
    split
    · rename_i hok
      have hmem : (t.daemonId, t.label) ∈ (Task.rename t).relabels env := by
        rw [Task.relabels, hst]
        exact if_pos hok
      exact h.relabel (hcopies _ hmem)
    · exact h
  all_goals exact h

/-- The reconnect goes on with no other labels than before. -/
theorem Agreed.setReconnect (h : Agreed s) {i : ℕ} {a b : ReconnectTask}
    (hmem : Task.reconnect a ∈ s.tasks)
    (hsaves : (Task.reconnect b).saves ⊆ (Task.reconnect a).saves) :
    Agreed { s with tasks := s.tasks.set i (.reconnect b) } :=
  h.setTask fun d label hl =>
    ⟨fun save hs => ((h.copies d label hl).2 _ hmem).1 save (hsaves hs), nofun⟩

/-- A stage of the reconnect. -/
theorem Agreed.nextReconnect (h : Agreed s) {i : ℕ} {t : ReconnectTask} (env : Env)
    (hmem : Task.reconnect t ∈ s.tasks) :
    Agreed ⟨(t.next s.manager env).1, s.tasks.set i (.reconnect (t.next s.manager env).2)⟩ := by
  have hsave : ∀ save ∈ (Task.reconnect t).saves, ∀ last,
      s.manager.renamed.lookup save.1 = some last → save.2 = some last :=
    fun save hs last hl => ((h.copies _ last hl).2 _ hmem).1 save hs rfl
  cases t with
  | start =>
    refine h.setTask fun d label hl => ⟨fun save hs hd => ?_, nofun⟩
    obtain ⟨row, hrow, rfl⟩ := List.mem_map.mp hs
    subst hd
    exact congrArg some (h.labelled.labels _ label hl row (h.labelled.mem_loadPairings hrow))
  | adding rest count =>
    cases rest with
    | nil => exact h.setReconnect hmem (List.Subset.refl _)
    | cons row rest =>
      have hcreated := h.create row.config fun last hl =>
        Option.some.inj (hsave (row.daemonId, some row.label) List.mem_cons_self last hl)
      exact hcreated.setReconnect hmem (List.Subset.refl _)
  | connecting id config rest count => exact h.setReconnect hmem (List.Subset.refl _)
  | saving id config rest count =>
    dsimp only [ReconnectTask.next]
    split
    · have hlabel : ∀ last, s.manager.renamed.lookup config.daemonId = some last →
          s.manager.labelToSave config = last := by
        intro last hl
        have hconfig : config.label = some last :=
          hsave (config.daemonId, config.label) List.mem_cons_self last hl
        rw [Manager.labelToSave, hconfig, Option.getD_some]
      exact (h.save env.now hlabel).setReconnect hmem (List.subset_cons_self _ _)
    · exact h.setReconnect hmem (List.subset_cons_self _ _)
  | pushing id config rest count =>
    have hpooled : Agreed { s with manager := { s.manager with pool := s.manager.pool ++ [id] } } :=
      h.keep ⟨rfl, rfl, List.Subset.refl _, rfl⟩
    exact hpooled.setReconnect hmem (List.Subset.refl _)
  | failing id rest count =>
    exact (h.keep (unlabelled_dispose s.manager id)).setReconnect hmem (List.Subset.refl _)
  | returned count => exact h.setReconnect hmem (List.Subset.refl _)

/-- A client sends a greeting with a captured label that is the stored one, or
with its own. -/
theorem Agreed.greet (h : Agreed s) {id : ClientId} {t : HelloTask} (hmem : Task.hello t ∈ s.tasks)
    (hst : t.stage ≠ .finished) (hcan : s.manager.canSend id = true) :
    Agreed { s with manager := s.manager.greet id t.greeting } := by
  obtain ⟨frontendId, greeting, stage⟩ := t
  cases greeting with
  | joined label daemonId =>
    exact h.send _ _ fun last hl =>
      ((h.copies _ last hl).2 _ hmem).2 (daemonId, label.getD .unset) (if_neg hst) rfl
  | asked =>
    dsimp only [Manager.greet]
    split
    · rename_i c hget
      have hlive : c.isLive = true := by
        rw [Manager.canSend, hget, Option.any_some, Bool.and_eq_true] at hcan
        rw [Client.isLive, hcan.2, Bool.or_true]
      split
      · rename_i label hlabel
        refine h.send _ _ fun last hl => ?_
        have hcopy := (h.copies _ last hl).1 _ (mem_live hget hlive) rfl
        rwa [hlabel, Option.getD_some] at hcopy
      · exact h
    · exact h

/-- A stage of a greeting. -/
theorem Agreed.nextHello (h : Agreed s) {i : ℕ} {t : HelloTask} (hmem : Task.hello t ∈ s.tasks) :
    Agreed ⟨(t.next s.manager).1, s.tasks.set i (.hello (t.next s.manager).2)⟩ := by
  have hgreets : ∀ stage, t.stage ≠ .finished → ∀ d label,
      s.manager.renamed.lookup d = some label →
      (Task.hello { t with stage }).Carries d label := by
    intro stage hst d label hl
    refine ⟨fun save hs => absurd hs List.not_mem_nil, fun greeting hg => ?_⟩
    refine ((h.copies d label hl).2 _ hmem).2 greeting ?_
    dsimp only [Task.greets] at hg ⊢
    split at hg
    · rw [if_neg hst]
      split at hg
      · exact absurd hg nofun
      · exact hg
    · exact absurd hg nofun
  unfold HelloTask.next
  split <;> rename_i hst
  · exact h.setTask (hgreets _ (by rw [hst]; exact nofun))
  · exact h.setTask (hgreets _ (by rw [hst]; exact nofun))
  · exact h.setTask (hgreets _ (by rw [hst]; exact nofun))
  · have hne : t.stage ≠ .finished := by rw [hst]; exact nofun
    dsimp only
    split
    · rename_i hcan
      rw [Bool.and_eq_true] at hcan
      have hsent := h.greet hmem hne hcan.1
      refine hsent.setTask fun d label hl => hgreets _ hne d label ?_
      rw [(calm_greet s.manager _ _).renamed] at hl
      exact hl
    · exact h.setTask (hgreets _ hne)
  · exact h.setTask fun d label hl => (h.copies d label hl).2 _ hmem

/-- A stage of a push. -/
theorem Agreed.nextPush (h : Agreed s) {i : ℕ} (t : PushTask) :
    Agreed ⟨(t.next s.manager).1, s.tasks.set i (.push (t.next s.manager).2)⟩ := by
  suffices hm : Agreed { s with manager := (t.next s.manager).1 } from
    hm.setTask fun d label _ => carries_of_plain rfl rfl d label
  unfold PushTask.next
  split
  · exact h
  · exact h
  · dsimp only [Manager.sendPush]
    split
    · exact h.keep ⟨rfl, rfl, List.Subset.refl _, rfl⟩
    · exact h

/-- A frontend joins a client, which broadcasts its label and captures it for
the greeting. -/
theorem Agreed.join (h : Agreed s) {id : ClientId} {c : Client}
    (hget : s.manager.clients[id]? = some c) (hd : c.disposed = false) (frontendId : String) :
    Agreed ({ s with manager := (s.manager.modifyClient id fun c =>
        { c with peers := c.peers.insert frontendId }).broadcastDaemonPublicKey id }.spawn
      [.hello ⟨frontendId, .joined c.config.label c.config.daemonId, .finding⟩]) := by
  have hlive : c.isLive = true := by rw [Client.isLive, hd]; rfl
  have hjoined : Agreed { s with manager := s.manager.modifyClient id fun c =>
      { c with peers := c.peers.insert frontendId } } := by
    apply h.keep
    apply unlabelled_modifyClient
    exact fun c => ⟨rfl, fun hlive => hlive⟩
  have hcast := hjoined.broadcast id
  refine hcast.spawn fun t ht d label hl => ?_
  have hl' : s.manager.renamed.lookup d = some label := by
    rw [(calm_broadcast _ id).renamed] at hl
    exact hl
  rw [List.mem_singleton.mp ht]
  refine ⟨fun save hs => absurd hs List.not_mem_nil, fun greeting hg hgd => ?_⟩
  obtain rfl : (c.config.daemonId, c.config.label.getD .unset) = greeting := Option.some.inj hg
  exact (h.copies d label hl').1 c.config (mem_live hget hlive) hgd

/-- Every step that meets the condition keeps the agreement. -/
theorem Agreed.managerStep (h : Agreed s) {e : ManagerEvent} (he : Agreeing s e) :
    Agreed (managerStep s e) := by
  have hplain : ∀ t : Task, t.saves = [] → t.greets = none → Agreed (s.spawn [t]) := by
    intro t hsaves hgreets
    refine h.spawn fun u hu d label _ => ?_
    rw [List.mem_singleton.mp hu]
    exact carries_of_plain hsaves hgreets d label
  cases e with
  | removePairing daemonId notifyPeer => exact hplain _ rfl rfl
  | renamePairing daemonId label => exact hplain _ rfl rfl
  | reconnectSaved => exact hplain _ rfl rfl
  | promote config storeOk now => exact h.promote config storeOk now
  | connection id authenticated isOpen =>
    refine h.keep (unlabelled_modifyClient (fun c => ?_) s.manager id)
    cases hd : c.disposed with
    | true => exact ⟨rfl, fun hlive => hlive⟩
    | false => exact ⟨rfl, fun _ => by rw [Client.isLive, hd]; rfl⟩
  | authOk id resumed =>
    dsimp only [RelayManager.managerStep]
    split
    · split
      · exact h
      · exact h.broadcast id
    · exact h
  | frontendJoined id frontendId =>
    dsimp only [RelayManager.managerStep]
    split
    · rename_i c hget
      split
      · exact h
      · rename_i hd
        exact h.join hget (Bool.eq_false_of_not_eq_true hd) frontendId
    · exact h
  | helloAsked frontendId => exact hplain _ rfl rfl
  | pushToken id frontendId sealed platform storeOk =>
    dsimp only [RelayManager.managerStep]
    split
    · exact h.keep ⟨rfl, rfl, List.Subset.refl _, rfl⟩
    · exact h
  | pushTokenUseless frontendId storeOk =>
    refine h.keep ?_
    unfold Manager.dropToken
    split
    · exact ⟨rfl, rfl, List.Subset.refl _, rfl⟩
    · exact Unlabelled.refl s.manager
  | peerUnpair id =>
    dsimp only [RelayManager.managerStep]
    split
    · exact hplain _ rfl rfl
    · exact h
  | peerRename id label storeOk =>
    dsimp only [RelayManager.managerStep]
    split
    · rename_i c hget
      rw [Manager.tryRename]
      split
      · rename_i hok
        exact h.relabel (he hok c hget)
      · exact h
    · exact h
  | record isEvent name =>
    refine h.spawn fun t ht d label _ => ?_
    obtain ⟨request, _, rfl⟩ := List.mem_map.mp ht
    exact carries_of_plain rfl rfl d label
  | run i env =>
    rw [RelayManager.managerStep, Daemon.run]
    cases hget : s.tasks[i]? with
    | none => exact h
    | some t =>
      have hmem : t ∈ s.tasks := List.mem_of_getElem? hget
      cases t with
      | remove t => exact h.nextRemove t env
      | rename t => exact h.nextRename (he _ hget)
      | reconnect t => exact h.nextReconnect env hmem
      | hello t => exact h.nextHello hmem
      | push t => exact h.nextPush t

end Steps

/-- In every run whose renames are stored when all copies have the new label,
every label that is sent after a rename is the stored one. -/
theorem labels_agree {s : Daemon}
    (hkeys : ∀ daemonId row, s.manager.rows.lookup daemonId = some row → row.daemonId = daemonId)
    (hrenamed : s.manager.renamed = ∅) (hsent : s.manager.labelsSent = [])
    {events : List ManagerEvent} (hm : Meets managerStep Agreeing s events) :
    ∀ before, before <+: events →
      ∀ sent ∈ (runFrom managerStep s before).manager.labelsSent, sent.Agrees := by
  intro before hp
  have hnone : ∀ d label, s.manager.renamed.lookup d ≠ some label := by
    intro d label hl
    rw [hrenamed] at hl
    exact absurd hl nofun
  have hstart : Agreed s := by
    refine ⟨⟨hkeys, fun d label hl => absurd hl (hnone d label)⟩,
      fun d label hl => absurd hl (hnone d label), fun sent hs => ?_⟩
    rw [hsent] at hs
    exact absurd hs List.not_mem_nil
  have hagreed : Agreed (runFrom managerStep s before) :=
    runFrom_induction_of_meets (fun s e h he => h.managerStep he) hstart (meets_of_isPrefix hp hm)
  exact hagreed.sent

/-- A client connects, a frontend joins, and it asks for another hello. -/
def connectAndGreet (task : ℕ) : List ManagerEvent :=
  [.connection 0 true true, .authOk 0 false, .frontendJoined 0 "phone", .helloAsked "phone"] ++
    runs task 3 true ++ runs (task + 1) 3 true

/-- A pairing is renamed before the reconnect reads it, then its client
connects. -/
def renameThenReconnect : List ManagerEvent :=
  .renamePairing "e" (.set "lamp") :: runs 1 1 true ++ runs 0 9 true ++ connectAndGreet 2

/-- A pairing is renamed while its client is connected, which then connects
again. -/
def renameThenConnect : List ManagerEvent :=
  .renamePairing "d" (.set "lamp") :: runs 0 1 true ++ connectAndGreet 1

/-- The client was created with the new label, and so all four messages carry
it. -/
theorem labels_agree_after_reconnect :
    (runFrom managerStep (savedDaemon ["d", "e"]) renameThenReconnect).manager.labelsSent =
      List.replicate 4 ⟨"e", .set "lamp", some (.set "lamp"), true⟩ ∧
    ∀ sent ∈ (runFrom managerStep (savedDaemon ["d", "e"]) renameThenReconnect).manager.labelsSent,
      sent.Agrees := by
  have hm : Meets managerStep Agreeing (savedDaemon ["d", "e"]) renameThenReconnect := by
    decide +kernel
  exact ⟨by decide +kernel, labels_agree started_savedDaemon.keys started_savedDaemon.renamed
    (by decide +kernel) hm _ List.prefix_rfl⟩

/-- A client that was created before the rename goes on with the old label, in
its key exchanges and in both kinds of hello. -/
theorem labels_stale_after_rename :
    (pairedDaemon ["d"]).manager.renamed.entries = [] ∧
    (pairedDaemon ["d"]).manager.labelsSent = [] ∧
    (runFrom managerStep (pairedDaemon ["d"]) renameThenConnect).manager.labelsSent =
      List.replicate 4 ⟨"d", .set "desk", some (.set "lamp"), true⟩ := by
  decide +kernel

end Teleprompter.RelayManager
