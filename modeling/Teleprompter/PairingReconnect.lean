import Teleprompter.RelayManager

/-!
# The reconnect of saved pairings beside removals and renames

The reconnect works from a snapshot of the rows: for each of them it connects
a client, saves the whole row again and pools the client. A pairing that is
removed or renamed in between comes back, or gets its old label again. In
every run in which deletes and renames of a pairing meet no such row ahead of
them, and a delete only clients that are about to be taken out of the pool,
nothing that was removed returns and every stored label stays.
-/

namespace Teleprompter.RelayManager

open FiniteDictionary KeyExchange StepRuns

/-- Daemons whose saved pairing is still to be added, or being added. -/
def Task.pending : Task → List String
  | .reconnect (.adding rest _) | .reconnect (.failing _ rest _) => rest.map StoredPairing.daemonId
  | .reconnect (.connecting _ config rest _) | .reconnect (.saving _ config rest _)
  | .reconnect (.pushing _ config rest _) => config.daemonId :: rest.map StoredPairing.daemonId
  | _ => []

/-- Labels that are still to be saved. -/
def Task.saves : Task → List (String × Option Label)
  | .reconnect (.adding rest _) | .reconnect (.failing _ rest _)
  | .reconnect (.pushing _ _ rest _) => rest.map fun row => (row.daemonId, some row.label)
  | .reconnect (.connecting _ config rest _) | .reconnect (.saving _ config rest _) =>
    (config.daemonId, config.label) :: rest.map fun row => (row.daemonId, some row.label)
  | _ => []

/-- The client that is being added. -/
def Task.current : Task → Option (ClientId × RelayClientConfig)
  | .reconnect (.connecting id config _ _) | .reconnect (.saving id config _ _)
  | .reconnect (.pushing id config _ _) => some (id, config)
  | _ => none

/-- The client that a removal is about to take out of the pool. -/
def RemoveTask.aim (m : Manager) (t : RemoveTask) : Option ClientId :=
  match t.stage with
  | .finding => m.findClient t.daemonId
  | _ => t.client.join

/-- The client of a daemon that a task is about to take out of the pool. -/
def Task.target (m : Manager) (daemonId : String) : Task → Option ClientId
  | .remove t => if t.daemonId = daemonId then t.aim m else none
  | _ => none

/-- The daemon whose row a step deletes. -/
def Task.deletes (env : Env) : Task → Option String
  | .remove t =>
    match t.stage with
    | .reentrant | .deleting .. => if env.storeOk then some t.daemonId else none
    | _ => none
  | _ => none

/-- The label that a step asks to store, and for which daemon. -/
def Task.relabels (env : Env) : Task → Option (String × Label)
  | .rename t =>
    match t.stage with
    | .start => if env.storeOk then some (t.daemonId, t.label) else none
    | _ => none
  | _ => none

/-- Every pooled client of the daemon is about to be taken out. -/
def Doomed (s : Daemon) (daemonId : String) : Prop :=
  ∀ id ∈ s.manager.pool, s.manager.isOf daemonId id = true →
    ∃ t ∈ s.tasks, t.target s.manager daemonId = some id

/-- No label of the daemon is still to be saved. -/
def Unsaved (s : Daemon) (daemonId : String) : Prop :=
  ∀ t ∈ s.tasks, ∀ save ∈ t.saves, save.1 ≠ daemonId

/-- The step condition: a delete meets no pairing that is still to be added
and no client that stays pooled, and a label is stored when none is still to
be saved. -/
def Undisturbed (s : Daemon) : ManagerEvent → Prop
  | .run i env => ∀ t ∈ s.tasks[i]?,
    (∀ daemonId ∈ t.deletes env, (∀ u ∈ s.tasks, daemonId ∉ u.pending) ∧ Doomed s daemonId) ∧
    ∀ rename ∈ t.relabels env, Unsaved s rename.1
  | .peerRename id _ storeOk => storeOk = true → ∀ c ∈ s.manager.clients[id]?,
    Unsaved s c.config.daemonId
  | _ => True

/-- Whether clients leave the pool can be decided. -/
instance Doomed.decidable (s : Daemon) (daemonId : String) : Decidable (Doomed s daemonId) :=
  inferInstanceAs (Decidable (∀ id ∈ s.manager.pool, s.manager.isOf daemonId id = true →
    ∃ t ∈ s.tasks, t.target s.manager daemonId = some id))

/-- Whether labels are still to be saved can be decided. -/
instance Unsaved.decidable (s : Daemon) (daemonId : String) : Decidable (Unsaved s daemonId) :=
  inferInstanceAs (Decidable (∀ t ∈ s.tasks, ∀ save ∈ t.saves, save.1 ≠ daemonId))

/-- The step condition can be decided. -/
instance Undisturbed.decidable (s : Daemon) : (e : ManagerEvent) → Decidable (Undisturbed s e)
  | .run i env => inferInstanceAs (Decidable (∀ t ∈ s.tasks[i]?,
    (∀ daemonId ∈ t.deletes env, (∀ u ∈ s.tasks, daemonId ∉ u.pending) ∧ Doomed s daemonId) ∧
    ∀ rename ∈ t.relabels env, Unsaved s rename.1))
  | .peerRename id _ storeOk => inferInstanceAs (Decidable (storeOk = true →
    ∀ c ∈ s.manager.clients[id]?, Unsaved s c.config.daemonId))
  | .removePairing .. | .renamePairing .. | .reconnectSaved | .promote .. | .connection ..
  | .authOk .. | .frontendJoined .. | .helloAsked .. | .pushToken .. | .pushTokenUseless ..
  | .peerUnpair .. | .record .. => isTrue trivial

/-- Rows are kept under their daemon, with the label that was stored last. -/
structure Labelled (m : Manager) : Prop where
  keys : ∀ daemonId row, m.rows.lookup daemonId = some row → row.daemonId = daemonId
  labels : ∀ daemonId label, m.renamed.lookup daemonId = some label →
    ∀ row, m.rows.lookup daemonId = some row → row.label = label

/-- A reconnect is about to start, and nothing else. -/
structure Started (s : Daemon) : Prop where
  tasks : s.tasks = [.reconnect .start]
  removed : s.manager.removed = []
  renamed : s.manager.renamed = ∅
  nodup : s.manager.pool.Nodup
  valid : ∀ id ∈ s.manager.pool, id < s.manager.clients.length
  keys : ∀ daemonId row, s.manager.rows.lookup daemonId = some row → row.daemonId = daemonId

/-- What was removed is neither saved nor pooled again, and a label that was
stored is not replaced by an older one. -/
def Unrevived (s : Daemon) : Prop :=
  (∀ daemonId ∈ s.manager.removed, s.manager.rows.lookup daemonId = none ∧
    (¬UnderWay s daemonId → ∀ id ∈ s.manager.pool, s.manager.isOf daemonId id = false)) ∧
  ∀ daemonId label, s.manager.renamed.lookup daemonId = some label →
    ∀ row, s.manager.rows.lookup daemonId = some row → row.label = label

/-- What holds between the steps of an undisturbed run. -/
structure Protected (s : Daemon) : Prop where
  labelled : Labelled s.manager
  nodup : s.manager.pool.Nodup
  valid : ∀ id ∈ s.manager.pool, id < s.manager.clients.length
  /-- There is one reconnect. -/
  only : ∀ (i : ℕ) task, s.tasks[i]? = some (.reconnect task) → i = 0
  /-- The client that is being added is not pooled. -/
  built : ∀ t ∈ s.tasks, ∀ current, t.current = some current →
    (s.manager.clients.map Client.config)[current.1]? = some current.2 ∧
      current.1 ∉ s.manager.pool
  /-- A deleted row stays away. -/
  gone : ∀ daemonId ∈ s.manager.removed, s.manager.rows.lookup daemonId = none
  /-- Its pairing is not added again. -/
  unpending : ∀ daemonId ∈ s.manager.removed, ∀ t ∈ s.tasks, daemonId ∉ t.pending
  /-- Its clients leave the pool. -/
  doomed : ∀ daemonId ∈ s.manager.removed, Doomed s daemonId
  /-- What is still to be saved has the label that was stored last. -/
  saves : ∀ daemonId label, s.manager.renamed.lookup daemonId = some label →
    ∀ t ∈ s.tasks, ∀ save ∈ t.saves, save.1 = daemonId → save.2 = some label

/-- The reconnect starts protected. -/
theorem protected_of_started {s : Daemon} (h : Started s) : Protected s where
  labelled := ⟨h.keys, fun d label hl => by rw [h.renamed] at hl; exact absurd hl nofun⟩
  nodup := h.nodup
  valid := h.valid
  only i task hget := by
    rw [h.tasks, List.getElem?_singleton] at hget
    by_contra hne
    rw [if_neg hne] at hget
    exact absurd hget nofun
  built t hmem := by
    rw [h.tasks] at hmem
    rw [List.mem_singleton.mp hmem]
    exact nofun
  gone d hd := by rw [h.removed] at hd; exact absurd hd List.not_mem_nil
  unpending d hd := by rw [h.removed] at hd; exact absurd hd List.not_mem_nil
  doomed d hd := by rw [h.removed] at hd; exact absurd hd List.not_mem_nil
  saves d label hl := by rw [h.renamed] at hl; exact absurd hl nofun

section Rows

variable {m m' : Manager}

/-- Other rows and renames do not matter. -/
theorem Labelled.congr (h : Labelled m) (hrows : m'.rows = m.rows)
    (hrenamed : m'.renamed = m.renamed) : Labelled m' := by
  refine ⟨?_, ?_⟩
  · rw [hrows]
    exact h.keys
  · rw [hrows, hrenamed]
    exact h.labels

/-- A row is deleted. -/
theorem Labelled.delete (h : Labelled m) (d : String) : Labelled (m.deletePairing d) := by
  have hrows : ∀ d' row, (m.rows.erase d).lookup d' = some row → m.rows.lookup d' = some row := by
    intro d' row hl
    rw [lookup_erase_eq] at hl
    split at hl
    · exact absurd hl nofun
    · exact hl
  exact ⟨fun d' row hl => h.keys d' row (hrows d' row hl),
    fun d' label hl row hrow => h.labels d' label hl row (hrows d' row hrow)⟩

/-- A label is stored. -/
theorem Labelled.relabel (h : Labelled m) (d : String) (label : Label) :
    Labelled (m.updatePairingLabel d label) := by
  unfold Manager.updatePairingLabel
  split
  · have hrows : ∀ d' row, (alterKey d (fun row => { row with label }) m.rows).lookup d' =
        some row → ∃ old, m.rows.lookup d' = some old ∧ row.daemonId = old.daemonId ∧
          (d' = d → row.label = label) ∧ (d' ≠ d → row = old) := by
      intro d' row hl
      rw [lookup_alterKey] at hl
      split at hl
      · rename_i heq
        obtain ⟨old, hold, rfl⟩ := Option.map_eq_some_iff.mp hl
        exact ⟨old, hold, rfl, fun _ => rfl, fun hne => absurd heq hne⟩
      · rename_i hne
        exact ⟨row, hl, rfl, fun heq => absurd heq hne, fun _ => rfl⟩
    refine ⟨?_, ?_⟩
    · intro d' row hl
      obtain ⟨old, hold, hid, _⟩ := hrows d' row hl
      exact hid.trans (h.keys d' old hold)
    · intro d' label' hl row hrow
      obtain ⟨old, hold, _, hsame, hother⟩ := hrows d' row hrow
      have hl' : (m.renamed.insert d label).lookup d' = some label' := hl
      rw [lookup_insert_eq] at hl'
      split at hl'
      · rename_i heq
        rw [hsame heq]
        exact Option.some.inj hl'
      · rename_i hne
        rw [hother hne]
        exact h.labels d' label' hl' old hold
  · exact h

/-- A row is saved with the label that was stored last. -/
theorem Labelled.save (h : Labelled m) {config : RelayClientConfig} {label : Label} (now : ℕ)
    (hlabel : ∀ last, m.renamed.lookup config.daemonId = some last → label = last) :
    Labelled (m.savePairing config label now) := by
  obtain ⟨new, hnew, hid, hrow⟩ : ∃ new : StoredPairing, m.savePairing config label now =
      { m with rows := m.rows.insert config.daemonId new } ∧
      new.daemonId = config.daemonId ∧ new.label = label := by
    refine ⟨_, rfl, ?_⟩
    split <;> exact ⟨rfl, rfl⟩
  have hrows : ∀ d row, (m.rows.insert config.daemonId new).lookup d = some row →
      d = config.daemonId ∧ row = new ∨ m.rows.lookup d = some row := by
    intro d row hl
    rw [lookup_insert_eq] at hl
    split at hl
    · rename_i heq
      exact .inl ⟨heq, (Option.some.inj hl).symm⟩
    · exact .inr hl
  rw [hnew]
  refine ⟨?_, ?_⟩
  · intro d row hl
    rcases hrows d row hl with ⟨rfl, rfl⟩ | hold
    · exact hid
    · exact h.keys d row hold
  · intro d last hl row hrow'
    rcases hrows d row hrow' with ⟨rfl, rfl⟩ | hold
    · exact hrow.trans (hlabel last hl)
    · exact h.labels d last hl row hold

/-- The snapshot holds rows of the table. -/
theorem Labelled.mem_loadPairings (h : Labelled m) {row : StoredPairing}
    (hrow : row ∈ m.loadPairings) : m.rows.lookup row.daemonId = some row := by
  have hmem : row ∈ m.rows.entries.map Sigma.snd := (List.mem_insertionSort _).mp hrow
  obtain ⟨entry, hentry, rfl⟩ := List.mem_map.mp hmem
  have hlookup : m.rows.lookup entry.1 = some entry.2 := AList.mem_lookup_iff.mpr hentry
  rw [h.keys entry.1 entry.2 hlookup]
  exact hlookup

end Rows

section Steps

variable {s : Daemon}

/-- A removal that is about to take a client out is under way. -/
theorem underWay_of_target {t : Task} {daemonId : String} {id : ClientId} (hmem : t ∈ s.tasks)
    (h : t.target s.manager daemonId = some id) : UnderWay s daemonId := by
  cases t with
  | remove t =>
    dsimp only [Task.target] at h
    split at h
    · rename_i hd
      refine ⟨t, hmem, hd, ?_⟩
      unfold RemoveTask.isReturned
      unfold RemoveTask.aim at h
      cases hst : t.stage <;> simp [hst, RemoveTask.client] at h ⊢
    · exact absurd h nofun
  | _ => exact absurd h nofun

/-- A protected state keeps what was removed and stored. -/
theorem Protected.unrevived (h : Protected s) : Unrevived s := by
  refine ⟨fun d hd => ⟨h.gone d hd, fun hidle id hid => ?_⟩, h.labelled.labels⟩
  by_contra hof
  obtain ⟨t, hmem, htarget⟩ := h.doomed d hd id hid (Bool.eq_true_of_not_eq_false hof)
  exact hidle (underWay_of_target hmem htarget)

/-- A removal keeps its aim while the first client of its daemon is the same. -/
theorem target_mono {m m' : Manager} {d : String} {id : ClientId}
    (h : m.findClient d = some id → m'.findClient d = some id) {t : Task}
    (ht : t.target m d = some id) : t.target m' d = some id := by
  cases t with
  | remove t =>
    dsimp only [Task.target] at ht ⊢
    split at ht
    · rename_i hd
      rw [if_pos hd]
      subst hd
      unfold RemoveTask.aim at ht ⊢
      split at ht
      · exact h ht
      · exact ht
    · exact absurd ht nofun
  | _ => exact absurd ht nofun

/-- The first client of a daemon depends on pool and configurations. -/
theorem findClient_congr {m m' : Manager} (hm : Settled m m') (d : String) :
    m'.findClient d = m.findClient d := by
  rw [Manager.findClient, Manager.findClient, hm.pool, funext (hm.isOf d)]

/-- What does nothing to the pairings keeps them protected. -/
theorem Protected.calm (h : Protected s) {m' : Manager} (hm : Calm s.manager m') :
    Protected { s with manager := m' } := by
  have hisOf := hm.settled.isOf
  have hfind := findClient_congr hm.settled
  refine ⟨h.labelled.congr hm.rows hm.renamed, ?_, ?_, h.only, ?_, ?_, ?_, ?_, ?_⟩
  · rw [hm.pool]
    exact h.nodup
  · have hlen : m'.clients.length = s.manager.clients.length := by
      rw [← List.length_map Client.config, hm.configs, List.length_map]
    dsimp only
    rw [hm.pool, hlen]
    exact h.valid
  · dsimp only
    rw [hm.configs, hm.pool]
    exact h.built
  · dsimp only
    rw [hm.removed, hm.rows]
    exact h.gone
  · rw [hm.removed]
    exact h.unpending
  · dsimp only
    rw [hm.removed]
    intro d hd id hid hof
    rw [hm.pool] at hid
    rw [hisOf] at hof
    obtain ⟨t, hmem, htarget⟩ := h.doomed d hd id hid hof
    exact ⟨t, hmem, target_mono (fun hf => (hfind d).trans hf) htarget⟩
  · rw [hm.renamed]
    exact h.saves

/-- A task goes on. -/
theorem Protected.setTask (h : Protected s) {i : ℕ} {t t' : Task} (hget : s.tasks[i]? = some t)
    (honly : ∀ task, t' = .reconnect task → ∃ task, t = .reconnect task)
    (hbuilt : ∀ current, t'.current = some current →
      (s.manager.clients.map Client.config)[current.1]? = some current.2 ∧
        current.1 ∉ s.manager.pool)
    (hpending : ∀ daemonId ∈ s.manager.removed, daemonId ∉ t'.pending)
    (htarget : ∀ d id, id ∈ s.manager.pool → t.target s.manager d = some id →
      t'.target s.manager d = some id)
    (hsaves : ∀ daemonId label, s.manager.renamed.lookup daemonId = some label →
      ∀ save ∈ t'.saves, save.1 = daemonId → save.2 = some label) :
    Protected { s with tasks := s.tasks.set i t' } := by
  have hlt : i < s.tasks.length := (List.getElem?_eq_some_iff.mp hget).1
  refine ⟨h.labelled, h.nodup, h.valid, ?_, ?_, h.gone, ?_, ?_, ?_⟩
  · intro j task hj
    rcases eq_or_ne i j with rfl | hne
    · have hnew : (s.tasks.set i t')[i]? = some (.reconnect task) := hj
      rw [List.getElem?_set_self hlt] at hnew
      obtain ⟨old, rfl⟩ := honly task (Option.some.inj hnew)
      exact h.only i old hget
    · have hold : (s.tasks.set i t')[j]? = some (.reconnect task) := hj
      rw [List.getElem?_set_ne hne] at hold
      exact h.only j task hold
  · intro u hu
    rcases List.mem_or_eq_of_mem_set hu with hold | rfl
    · exact h.built u hold
    · exact hbuilt
  · intro d hd u hu
    rcases List.mem_or_eq_of_mem_set hu with hold | rfl
    · exact h.unpending d hd u hold
    · exact hpending d hd
  · intro d hd id hid hof
    obtain ⟨u, hmem, hu⟩ := h.doomed d hd id hid hof
    obtain ⟨j, hj⟩ := List.mem_iff_getElem?.mp hmem
    rcases eq_or_ne i j with rfl | hne
    · obtain rfl : t = u := Option.some.inj (hget.symm.trans hj)
      exact ⟨t', List.mem_set hlt t', htarget d id hid hu⟩
    · refine ⟨u, List.mem_of_getElem? (i := j) ?_, hu⟩
      rw [List.getElem?_set_ne hne, hj]
  · intro d label hl u hu
    rcases List.mem_or_eq_of_mem_set hu with hold | rfl
    · exact h.saves d label hl u hold
    · exact hsaves d label hl

/-- Tasks are started that neither add pairings nor aim at a client. -/
theorem Protected.spawn (h : Protected s) {new : List Task} (hnew : ∀ t ∈ new, t.isFresh) :
    Protected { s with tasks := s.tasks ++ new } := by
  have hfresh : ∀ t ∈ new, t.current = none ∧ t.pending = [] ∧ t.saves = [] := by
    intro t ht
    have hf := hnew t ht
    cases t with
    | reconnect task => exact absurd hf id
    | _ => exact ⟨rfl, rfl, rfl⟩
  refine ⟨h.labelled, h.nodup, h.valid, ?_, ?_, h.gone, ?_, ?_, ?_⟩
  · intro i task hget
    rcases Nat.lt_or_ge i s.tasks.length with hlt | hge
    · have hget' : (s.tasks ++ new)[i]? = some (.reconnect task) := hget
      rw [List.getElem?_append_left hlt] at hget'
      exact h.only i task hget'
    · have hget' : (s.tasks ++ new)[i]? = some (.reconnect task) := hget
      rw [List.getElem?_append_right hge] at hget'
      exact absurd (hnew _ (List.mem_of_getElem? hget')) id
  · intro t ht current hc
    rcases List.mem_append.mp ht with hold | hn
    · exact h.built t hold current hc
    · rw [(hfresh t hn).1] at hc
      exact absurd hc nofun
  · intro d hd t ht
    rcases List.mem_append.mp ht with hold | hn
    · exact h.unpending d hd t hold
    · rw [(hfresh t hn).2.1]
      exact List.not_mem_nil
  · intro d hd id hid hof
    obtain ⟨t, hmem, htarget⟩ := h.doomed d hd id hid hof
    exact ⟨t, List.mem_append_left new hmem, htarget⟩
  · intro d label hl t ht
    rcases List.mem_append.mp ht with hold | hn
    · exact h.saves d label hl t hold
    · rw [(hfresh t hn).2.2]
      exact fun save hs => absurd hs List.not_mem_nil

/-- A row is deleted that is not added again and whose clients leave. -/
theorem Protected.delete (h : Protected s) {d : String} (hpending : ∀ t ∈ s.tasks, d ∉ t.pending)
    (hdoomed : Doomed s d) : Protected { s with manager := s.manager.deletePairing d } := by
  refine ⟨h.labelled.delete d, h.nodup, h.valid, h.only, h.built, ?_, ?_, ?_, h.saves⟩
  · intro d' hd'
    dsimp only [Manager.deletePairing]
    rw [lookup_erase_eq]
    split
    · rfl
    · rename_i hne
      exact h.gone d' ((List.mem_cons.mp hd').resolve_left hne)
  · intro d' hd'
    rcases List.mem_cons.mp hd' with rfl | hold
    · exact hpending
    · exact h.unpending d' hold
  · intro d' hd' id hid hof
    rcases List.mem_cons.mp hd' with rfl | hold
    · exact hdoomed id hid hof
    · exact h.doomed d' hold id hid hof

/-- A label is stored that none still to be saved will replace. -/
theorem Protected.relabel (h : Protected s) {d : String} (label : Label) (hsaves : Unsaved s d) :
    Protected { s with manager := s.manager.updatePairingLabel d label } := by
  have hlabelled := h.labelled.relabel d label
  unfold Manager.updatePairingLabel at hlabelled ⊢
  split at hlabelled
  · rename_i hd
    rw [if_pos hd]
    refine ⟨hlabelled, h.nodup, h.valid, h.only, h.built, ?_, h.unpending, h.doomed, ?_⟩
    · intro d' hd'
      dsimp only
      rw [lookup_alterKey, h.gone d' hd']
      split <;> rfl
    · intro d' label' hl t ht save hs hd'
      have hl' : (s.manager.renamed.insert d label).lookup d' = some label' := hl
      rw [lookup_insert_eq, if_neg (fun heq => hsaves t ht save hs (hd'.trans heq))] at hl'
      exact h.saves d' label' hl' t ht save hs hd'
  · rename_i hd
    rw [if_neg hd]
    exact h

/-- Erasing another element keeps the first one that passes a test. -/
theorem find?_erase_of_ne {l : List ClientId} {p : ClientId → Bool} {a b : ClientId} (hne : b ≠ a)
    (h : l.find? p = some b) : (l.erase a).find? p = some b := by
  induction l with
  | nil => exact h
  | cons c l ih =>
    rw [List.erase_cons]
    split
    · rename_i heq
      obtain rfl := beq_iff_eq.mp heq
      rw [List.find?_cons] at h
      split at h
      · exact absurd (Option.some.inj h).symm hne
      · exact h
    · rw [List.find?_cons] at h ⊢
      split
      · rename_i hp
        rw [hp] at h
        exact h
      · rename_i hp
        rw [hp] at h
        exact ih h

/-- A search depends on the test at the elements. -/
theorem find?_eq_of_forall_mem {l : List ClientId} {p q : ClientId → Bool}
    (h : ∀ a ∈ l, p a = q a) : l.find? p = l.find? q := by
  induction l with
  | nil => rfl
  | cons a l ih =>
    rw [List.find?_cons, List.find?_cons, h a List.mem_cons_self,
      ih fun b hb => h b (List.mem_cons_of_mem a hb)]

/-- A client leaves the pool. -/
theorem Protected.erase (h : Protected s) (id : ClientId) :
    Protected { s with manager := { s.manager with pool := s.manager.pool.erase id } } := by
  have hsub : ∀ id' ∈ s.manager.pool.erase id, id' ∈ s.manager.pool := fun _ =>
    List.mem_of_mem_erase
  refine ⟨h.labelled.congr rfl rfl, h.nodup.erase id, fun id' hid => h.valid id' (hsub id' hid),
    h.only, ?_, h.gone, h.unpending, ?_, h.saves⟩
  · intro t ht current hc
    obtain ⟨hconfig, hnot⟩ := h.built t ht current hc
    exact ⟨hconfig, fun hmem => hnot (hsub _ hmem)⟩
  · intro d hd id' hid' hof
    have hne : id' ≠ id := fun heq => h.nodup.not_mem_erase (heq ▸ hid')
    obtain ⟨t, hmem, htarget⟩ := h.doomed d hd id' (hsub id' hid') hof
    refine ⟨t, hmem, target_mono (fun hf => ?_) htarget⟩
    have hfind : (s.manager.pool.erase id).find? (s.manager.isOf d) = some id' :=
      find?_erase_of_ne hne hf
    exact hfind

/-- A client joins the pool that belongs to no removed pairing. -/
theorem Protected.push (h : Protected s) {id : ClientId} (hnot : id ∉ s.manager.pool)
    (hlt : id < s.manager.clients.length)
    (hcurrent : ∀ t ∈ s.tasks, ∀ current, t.current = some current → current.1 ≠ id)
    (hof : ∀ d ∈ s.manager.removed, s.manager.isOf d id = false) :
    Protected { s with manager := { s.manager with pool := s.manager.pool ++ [id] } } := by
  refine ⟨h.labelled.congr rfl rfl, ?_, ?_, h.only, ?_, h.gone, h.unpending, ?_, h.saves⟩
  · refine List.nodup_append.mpr ⟨h.nodup, List.nodup_singleton id, fun a ha b hb => ?_⟩
    rw [List.mem_singleton.mp hb]
    rintro rfl
    exact hnot ha
  · intro id' hid'
    rcases List.mem_append.mp hid' with hold | hnew
    · exact h.valid id' hold
    · rw [List.mem_singleton.mp hnew]
      exact hlt
  · intro t ht current hc
    obtain ⟨hconfig, hout⟩ := h.built t ht current hc
    refine ⟨hconfig, fun hmem => ?_⟩
    rcases List.mem_append.mp hmem with hold | hnew
    · exact hout hold
    · exact hcurrent t ht current hc (List.mem_singleton.mp hnew)
  · intro d hd id' hid' hof'
    rcases List.mem_append.mp hid' with hold | hnew
    · obtain ⟨t, hmem, htarget⟩ := h.doomed d hd id' hold hof'
      refine ⟨t, hmem, target_mono (fun hf => ?_) htarget⟩
      have hfind : (s.manager.pool ++ [id]).find? (s.manager.isOf d) = some id' := by
        rw [List.find?_append, show s.manager.pool.find? (s.manager.isOf d) = some id' from hf]
        rfl
      exact hfind
    · rw [List.mem_singleton.mp hnew] at hof'
      exact absurd ((hof d hd).symm.trans hof') (by decide)

/-- A client object is created. -/
theorem Protected.create (h : Protected s) (config : RelayClientConfig) :
    Protected { s with manager :=
      { s.manager with clients := s.manager.clients ++ [Client.new config] } } := by
  have hold : ∀ id < s.manager.clients.length,
      ((s.manager.clients ++ [Client.new config]).map Client.config)[id]? =
        (s.manager.clients.map Client.config)[id]? := by
    intro id hlt
    rw [List.map_append, List.getElem?_append_left (by rwa [List.length_map])]
  have hisOf : ∀ id ∈ s.manager.pool, ∀ d, ({ s.manager with
      clients := s.manager.clients ++ [Client.new config] } : Manager).isOf d id =
        s.manager.isOf d id := by
    intro id hid d
    rw [isOf_eq, isOf_eq, hold id (h.valid id hid)]
  refine ⟨h.labelled.congr rfl rfl, h.nodup, fun id hid => ?_, h.only, ?_, h.gone, h.unpending, ?_,
    h.saves⟩
  · dsimp only
    rw [List.length_append]
    exact Nat.lt_of_lt_of_le (h.valid id hid) (Nat.le_add_right _ _)
  · intro t ht current hc
    obtain ⟨hconfig, hout⟩ := h.built t ht current hc
    have hlt : current.1 < s.manager.clients.length := by
      have hlt' := (List.getElem?_eq_some_iff.mp hconfig).1
      rwa [List.length_map] at hlt'
    exact ⟨(hold _ hlt).trans hconfig, hout⟩
  · intro d hd id hid hof
    rw [hisOf id hid d] at hof
    obtain ⟨t, hmem, htarget⟩ := h.doomed d hd id hid hof
    refine ⟨t, hmem, target_mono (fun hf => ?_) htarget⟩
    rw [← hf, Manager.findClient, Manager.findClient]
    exact find?_eq_of_forall_mem fun id' hid' => hisOf id' hid' d

/-- A reconnect goes on with less to do. -/
theorem Protected.setReconnect (h : Protected s) {i : ℕ} {a b : ReconnectTask}
    (hget : s.tasks[i]? = some (.reconnect a))
    (hbuilt : ∀ current, (Task.reconnect b).current = some current →
      (s.manager.clients.map Client.config)[current.1]? = some current.2 ∧
        current.1 ∉ s.manager.pool)
    (hpending : (Task.reconnect b).pending ⊆ (Task.reconnect a).pending)
    (hsaves : (Task.reconnect b).saves ⊆ (Task.reconnect a).saves) :
    Protected { s with tasks := s.tasks.set i (.reconnect b) } := by
  have hmem : Task.reconnect a ∈ s.tasks := List.mem_of_getElem? hget
  refine h.setTask hget (fun _ _ => ⟨a, rfl⟩) hbuilt ?_ (fun _ _ _ => nofun) ?_
  · exact fun d hd hp => h.unpending d hd _ hmem (hpending hp)
  · exact fun d label hl save hs => h.saves d label hl _ hmem save (hsaves hs)

/-- A removal goes on, aiming at the same client as long as it is pooled. -/
theorem Protected.setRemove (h : Protected s) {i : ℕ} {a b : RemoveTask}
    (hget : s.tasks[i]? = some (.remove a)) (hid : b.daemonId = a.daemonId)
    (haim : ∀ id ∈ s.manager.pool, a.aim s.manager = some id → b.aim s.manager = some id) :
    Protected { s with tasks := s.tasks.set i (.remove b) } := by
  refine h.setTask hget nofun nofun (fun _ _ => List.not_mem_nil) ?_
    (fun _ _ _ save hs => absurd hs List.not_mem_nil)
  intro d id hmem ht
  dsimp only [Task.target] at ht ⊢
  rw [hid]
  split at ht
  · rename_i hd
    rw [if_pos hd]
    exact haim id hmem ht
  · exact absurd ht nofun

/-- A rename, a greeting or a push goes on. -/
theorem Protected.setOther (h : Protected s) {i : ℕ} {t t' : Task} (hget : s.tasks[i]? = some t)
    (ht : t.isOther = true) (ht' : t'.isOther = true) :
    Protected { s with tasks := s.tasks.set i t' } := by
  have htarget : ∀ d, t.target s.manager d = none := by
    intro d
    cases t with
    | remove task | reconnect task => exact absurd ht Bool.false_ne_true
    | _ => rfl
  have hplain : t'.current = none ∧ t'.pending = [] ∧ t'.saves = [] := by
    cases t' with
    | remove task | reconnect task => exact absurd ht' Bool.false_ne_true
    | _ => exact ⟨rfl, rfl, rfl⟩
  refine h.setTask hget ?_ ?_ ?_ ?_ ?_
  · rintro task rfl
    exact absurd ht' Bool.false_ne_true
  · rw [hplain.1]
    exact nofun
  · rw [hplain.2.1]
    exact fun _ _ => List.not_mem_nil
  · intro d id _ hd
    rw [htarget d] at hd
    exact absurd hd nofun
  · rw [hplain.2.2]
    exact fun _ _ _ save hs => absurd hs List.not_mem_nil

/-- The guard of the removals and the record of the tokens are kept apart. -/
theorem Protected.bookkeep (h : Protected s) (removing tokenless : List String) :
    Protected { s with manager := { s.manager with removing, tokenless } } :=
  ⟨h.labelled.congr rfl rfl, h.nodup, h.valid, h.only, h.built, h.gone, h.unpending, h.doomed,
    h.saves⟩

/-- A row is saved again that was not removed, with the label that was stored
last. -/
theorem Protected.save (h : Protected s) {config : RelayClientConfig} {label : Label} (now : ℕ)
    (hd : config.daemonId ∉ s.manager.removed)
    (hlabel : ∀ last, s.manager.renamed.lookup config.daemonId = some last → label = last) :
    Protected { s with manager := s.manager.savePairing config label now } := by
  refine ⟨h.labelled.save now hlabel, h.nodup, h.valid, h.only, h.built, ?_, h.unpending, h.doomed,
    h.saves⟩
  intro d hdr
  dsimp only [Manager.savePairing]
  rw [lookup_insert_eq, if_neg (fun heq : d = config.daemonId => hd (heq ▸ hdr))]
  exact h.gone d hdr

/-- The client of a pairing that was saved joins the pool. -/
theorem Protected.enterPool (h : Protected s) {i id count : ℕ} {config : RelayClientConfig}
    {rest : List StoredPairing}
    (hget : s.tasks[i]? = some (.reconnect (.pushing id config rest count))) :
    Protected ⟨{ s.manager with pool := s.manager.pool ++ [id] },
      s.tasks.set i (.reconnect (.adding rest (count + 1)))⟩ := by
  have hmem := List.mem_of_getElem? hget
  obtain ⟨hconfig, hnot⟩ := h.built _ hmem _ rfl
  have hset := h.setReconnect (b := .adding rest (count + 1)) hget nofun
    (List.subset_cons_self _ _) (List.Subset.refl _)
  refine hset.push hnot ?_ ?_ ?_
  · have hlt := (List.getElem?_eq_some_iff.mp hconfig).1
    rwa [List.length_map] at hlt
  · intro u hu current hc
    obtain ⟨j, hj⟩ := List.mem_iff_getElem?.mp hu
    cases u with
    | reconnect task =>
      obtain rfl : j = i := (hset.only j task hj).trans (h.only i _ hget).symm
      have hlt := (List.getElem?_eq_some_iff.mp hget).1
      have hnew : (s.tasks.set j (.reconnect (.adding rest (count + 1))))[j]? =
        some (.reconnect task) := hj
      rw [List.getElem?_set_self hlt] at hnew
      obtain rfl : ReconnectTask.adding rest (count + 1) = task :=
        Task.reconnect.inj (Option.some.inj hnew)
      exact absurd hc nofun
    | _ => exact absurd hc nofun
  · intro d hd
    have hne : config.daemonId ≠ d := by
      rintro rfl
      exact h.unpending _ hd _ hmem List.mem_cons_self
    have hbeq : (config.daemonId == d) = false := beq_false_of_ne hne
    rw [isOf_eq, hconfig]
    exact hbeq

/-- A stage of the reconnect. -/
theorem Protected.nextReconnect (h : Protected s) {i : ℕ} {t : ReconnectTask} (env : Env)
    (hget : s.tasks[i]? = some (.reconnect t)) :
    Protected ⟨(t.next s.manager env).1, s.tasks.set i (.reconnect (t.next s.manager env).2)⟩ := by
  have hmem : Task.reconnect t ∈ s.tasks := List.mem_of_getElem? hget
  cases t with
  | start =>
    refine h.setTask hget (fun _ _ => ⟨.start, rfl⟩) nofun ?_ (fun _ _ _ => nofun) ?_
    · intro d hd hp
      obtain ⟨row, hrow, rfl⟩ := List.mem_map.mp hp
      exact absurd ((h.gone row.daemonId hd).symm.trans (h.labelled.mem_loadPairings hrow)) nofun
    · intro d label hl save hs hd
      obtain ⟨row, hrow, rfl⟩ := List.mem_map.mp hs
      subst hd
      exact congrArg some (h.labelled.labels row.daemonId label hl row (h.labelled.mem_loadPairings hrow))
  | adding rest count =>
    cases rest with
    | nil => exact h.setReconnect hget nofun (List.Subset.refl _) (List.Subset.refl _)
    | cons row rest =>
      refine (h.create row.config).setReconnect hget ?_ (List.Subset.refl _) (List.Subset.refl _)
      rintro current hc
      obtain rfl := Option.some.inj hc
      refine ⟨?_, fun hmem => absurd (h.valid _ hmem) (Nat.lt_irrefl _)⟩
      simp [Client.new]
  | connecting id config rest count =>
    have hbuilt := h.built _ hmem
    exact h.setReconnect hget hbuilt (List.Subset.refl _) (List.Subset.refl _)
  | saving id config rest count =>
    dsimp only [ReconnectTask.next]
    split
    · have hd : config.daemonId ∉ s.manager.removed := fun hd =>
        h.unpending _ hd _ hmem List.mem_cons_self
      have hlabel : ∀ last, s.manager.renamed.lookup config.daemonId = some last →
          s.manager.labelToSave config = last := by
        intro last hl
        have hsave : config.label = some last :=
          h.saves _ last hl _ hmem (config.daemonId, config.label) List.mem_cons_self rfl
        rw [Manager.labelToSave, hsave, Option.getD_some]
      have hsaved := h.save env.now hd hlabel
      have hbuilt := h.built _ hmem
      exact hsaved.setReconnect hget hbuilt (List.Subset.refl _) (List.subset_cons_self _ _)
    · exact h.setReconnect hget nofun (List.subset_cons_self _ _) (List.subset_cons_self _ _)
  | pushing id config rest count => exact h.enterPool hget
  | failing id rest count =>
    exact (h.calm (calm_dispose s.manager id)).setReconnect hget nofun (List.Subset.refl _)
      (List.Subset.refl _)
  | returned count => exact h.setReconnect hget nofun (List.Subset.refl _) (List.Subset.refl _)

/-- The store is asked to delete a row. -/
theorem Protected.tryDelete (h : Protected s) {d : String} {env : Env}
    (hd : env.storeOk = true → (∀ t ∈ s.tasks, d ∉ t.pending) ∧ Doomed s d) :
    Protected { s with manager := s.manager.tryDelete d env } := by
  unfold Manager.tryDelete
  split
  · rename_i hok
    exact h.delete (hd hok).1 (hd hok).2
  · exact h

/-- A stage of a removal. -/
theorem Protected.nextRemove (h : Protected s) {i : ℕ} {t : RemoveTask} {env : Env}
    (hget : s.tasks[i]? = some (.remove t))
    (hdeletes : ∀ d ∈ (Task.remove t).deletes env, (∀ u ∈ s.tasks, d ∉ u.pending) ∧ Doomed s d) :
    Protected ⟨(t.next s.manager env).1, s.tasks.set i (.remove (t.next s.manager env).2)⟩ := by
  obtain ⟨d, notifyPeer, stage, reentrant, deleted⟩ := t
  cases stage with
  | start =>
    dsimp only [RemoveTask.next]
    split
    · exact h.setRemove hget rfl fun id _ ha => absurd ha nofun
    · exact (h.bookkeep _ s.manager.tokenless).setRemove hget rfl fun id _ ha => absurd ha nofun
  | reentrant =>
    have hdel : Protected { s with manager := s.manager.tryDelete d env } :=
      h.tryDelete fun hok => hdeletes d (by rw [Task.deletes]; exact if_pos hok)
    exact (hdel.bookkeep (s.manager.tryDelete d env).removing _).setRemove hget rfl
      fun id _ ha => absurd ha nofun
  | finding => exact h.setRemove hget rfl fun id _ ha => ha
  | found client =>
    cases client with
    | none => exact h.setRemove hget rfl fun id _ ha => absurd ha nofun
    | some id =>
      dsimp only [RemoveTask.next]
      split
      · exact h.setRemove hget rfl fun id' _ ha => ha
      · exact h.setRemove hget rfl fun id' _ ha => ha
  | notifying id peers notified =>
    cases peers with
    | nil => exact h.setRemove hget rfl fun id' _ ha => ha
    | cons peer peers => exact h.setRemove hget rfl fun id' _ ha => ha
  | deleting client notified =>
    have hdel : Protected { s with manager := s.manager.tryDelete d env } :=
      h.tryDelete fun hok => hdeletes d (by rw [Task.deletes]; exact if_pos hok)
    cases client with
    | none => exact hdel.setRemove hget rfl fun id _ ha => absurd ha nofun
    | some id => exact hdel.setRemove hget rfl fun id' _ ha => ha
  | disposing id notified =>
    exact (h.calm (calm_dispose s.manager id)).setRemove hget rfl fun id' _ ha => ha
  | dropping id notified =>
    refine (h.erase id).setRemove hget rfl fun id' hmem ha => ?_
    obtain rfl : id = id' := Option.some.inj ha
    exact absurd hmem h.nodup.not_mem_erase
  | releasing notified =>
    exact (h.bookkeep _ _).setRemove hget rfl fun id _ ha => absurd ha nofun
  | returned notified => exact h.setRemove hget rfl fun id _ ha => ha

/-- A stage of a rename. -/
theorem Protected.nextRename (h : Protected s) {i : ℕ} {t : RenameTask} {env : Env}
    (hget : s.tasks[i]? = some (.rename t))
    (hrelabels : ∀ rename ∈ (Task.rename t).relabels env, Unsaved s rename.1) :
    Protected ⟨(t.next s.manager env).1, s.tasks.set i (.rename (t.next s.manager env).2)⟩ := by
  unfold RenameTask.next
  split
  · rename_i hst
    dsimp only
    rw [Manager.tryRename]
    split
    · rename_i hok
      have hmem : (t.daemonId, t.label) ∈ (Task.rename t).relabels env := by
        rw [Task.relabels, hst]
        exact if_pos hok
      exact (h.relabel t.label (hrelabels _ hmem)).setOther hget rfl rfl
    · exact h.setOther hget rfl rfl
  all_goals exact h.setOther hget rfl rfl

/-- Every undisturbed step keeps the pairings protected. -/
theorem Protected.managerStep (h : Protected s) {e : ManagerEvent} (he : e.addsClients = false)
    (hu : Undisturbed s e) : Protected (managerStep s e) := by
  rcases managerStep_cases (s := s) he with ⟨i, env, t, rfl, hget, hs'⟩ |
    ⟨id, label, c, rfl, hc, hs'⟩ | ⟨hcalm, new, htasks, hnew⟩
  · rw [hs']
    obtain ⟨hdeletes, hrelabels⟩ := hu t hget
    cases t with
    | remove t => exact h.nextRemove hget hdeletes
    | rename t => exact h.nextRename hget hrelabels
    | reconnect t => exact h.nextReconnect env hget
    | hello t => exact (h.calm (calm_hello t s.manager)).setOther hget rfl rfl
    | push t => exact (h.calm (calm_push t s.manager)).setOther hget rfl rfl
  · rw [hs', Manager.tryRename, if_pos rfl]
    exact h.relabel label (hu rfl c hc)
  · have hspawned := (h.calm hcalm).spawn hnew
    rw [← htasks] at hspawned
    exact hspawned

end Steps

/-- In every undisturbed run beside one reconnect, no removed pairing is saved
or pooled again, and every stored label stays. -/
theorem reconnect_unrevived {s : Daemon} (hs : Started s) {events : List ManagerEvent}
    (hadds : ∀ e ∈ events, e.addsClients = false)
    (hm : Meets managerStep Undisturbed s events) :
    ∀ before, before <+: events → Unrevived (runFrom managerStep s before) := by
  intro before hp
  have hkept : Meets managerStep (fun s e => e.addsClients = false ∧ Undisturbed s e) s before :=
    meets_of_isPrefix hp (meets_and.mpr ⟨meets_of_forall_mem (fun e hmem _ => hadds e hmem) s, hm⟩)
  have hprotected : Protected (runFrom managerStep s before) :=
    runFrom_induction_of_meets (fun s e h hc => h.managerStep hc.1 hc.2) (protected_of_started hs)
      hkept
  exact hprotected.unrevived

/-- A daemon that starts again with some saved pairings. -/
def savedDaemon (daemonIds : List String) : Daemon :=
  ⟨{ (pairedDaemon daemonIds).manager with clients := [], pool := [] }, [.reconnect .start]⟩

/-- It is about to reconnect them. -/
theorem started_savedDaemon : Started (savedDaemon ["d", "e"]) where
  tasks := rfl
  removed := by decide +kernel
  renamed := AList.ext (by decide +kernel)
  nodup := List.nodup_nil
  valid _ hid := absurd hid List.not_mem_nil
  keys d row hl := by
    have hentry : (⟨d, row⟩ : Sigma fun _ : String => StoredPairing) ∈
      (savedDaemon ["d", "e"]).manager.rows.entries := AList.mem_lookup_iff.mp hl
    have hall : ∀ entry ∈ (savedDaemon ["d", "e"]).manager.rows.entries,
      entry.2.daemonId = entry.1 := by decide +kernel
    exact hall _ hentry

/-- One pairing is reconnected, renamed and removed while the other connects. -/
def reconnectThenRemoval : List ManagerEvent :=
  runs 0 6 true ++ .renamePairing "e" (.set "lamp") :: runs 1 1 true ++
    .removePairing "e" true :: runs 2 8 true ++ runs 0 4 true

/-- A pairing is removed while it connects, and the other one is renamed then. -/
def removalInReconnect : List ManagerEvent :=
  runs 0 2 true ++ .removePairing "e" true :: runs 1 5 true ++
    .renamePairing "d" (.set "lamp") :: runs 2 1 true ++ runs 0 8 true

/-- What is removed after it was pooled stays away. -/
theorem reconnect_unrevived_beside_removal :
    (runFrom managerStep (savedDaemon ["d", "e"]) reconnectThenRemoval).manager.removed = ["e"] ∧
    Unrevived (runFrom managerStep (savedDaemon ["d", "e"]) reconnectThenRemoval) := by
  have hm : Meets managerStep Undisturbed (savedDaemon ["d", "e"]) reconnectThenRemoval := by
    decide +kernel
  exact ⟨by decide +kernel, reconnect_unrevived started_savedDaemon (by decide) hm _ List.prefix_rfl⟩

/-- A pairing that is removed while it connects is saved and pooled again
after the removal has returned, and the other one gets its old label. -/
theorem reconnect_revives_removed :
    Started (savedDaemon ["d", "e"]) ∧ (∀ e ∈ removalInReconnect, e.addsClients = false) ∧
    let last := runFrom managerStep (savedDaemon ["d", "e"]) removalInReconnect
    Task.remove ⟨"e", true, .returned 0, false, some true⟩ ∈ last.tasks ∧
    "e" ∈ last.manager.removed ∧ (last.manager.rows.lookup "e").isSome = true ∧
    last.manager.findClient "e" = some 0 ∧
    last.manager.renamed.lookup "d" = some (.set "lamp") ∧
    (last.manager.rows.lookup "d").map StoredPairing.label = some (.set "desk") ∧
    ¬Unrevived last := by
  have hgone : "e" ∈ (runFrom managerStep (savedDaemon ["d", "e"])
    removalInReconnect).manager.removed := by decide +kernel
  have hrow : ((runFrom managerStep (savedDaemon ["d", "e"])
    removalInReconnect).manager.rows.lookup "e").isSome = true := by decide +kernel
  refine ⟨started_savedDaemon, by decide, by decide +kernel, hgone, hrow, by decide +kernel,
    by decide +kernel, by decide +kernel, fun h => ?_⟩
  rw [(h.1 "e" hgone).1] at hrow
  exact absurd hrow Bool.false_ne_true

end Teleprompter.RelayManager
