import Teleprompter.RelayManager

/-!
# Failures and overlaps of removed pairings

A removal tells the peers, deletes the row, disposes the client and takes it
out of the pool, whatever the store answered; a removal that meets another
one of the same daemon only deletes the row. What a removal leaves behind is
counted: every one that is not re-entrant takes one client of its daemon out
of the pool, as long as there is one.
-/

namespace Teleprompter.RelayManager

open FiniteDictionary KeyExchange StepRuns

/-- The call holds the guard of its daemon. -/
def RemoveTask.holds (t : RemoveTask) : Bool :=
  match t.stage with
  | .start | .reentrant | .returned _ => false
  | _ => true

/-- The call has taken its client out of the pool, or found none. -/
def RemoveTask.dropped (t : RemoveTask) : Bool :=
  match t.stage with
  | .releasing _ | .returned _ => !t.reentrant
  | _ => false

/-- The call has asked the store. -/
def RemoveTask.asked (t : RemoveTask) : Bool :=
  match t.stage with
  | .disposing .. | .dropping .. | .releasing _ | .returned _ => true
  | _ => false

/-- A removal of a daemon with some property. -/
def Task.removes (p : RemoveTask → Bool) (daemonId : String) : Task → Bool
  | .remove t => t.daemonId == daemonId && p t
  | _ => false

/-- No task runs and no removal is under way; no client is pooled twice. -/
structure Idle (s : Daemon) : Prop where
  tasks : s.tasks = []
  removing : s.manager.removing = []
  nodup : s.manager.pool.Nodup

/-- A client of a daemon is pooled and not disposed. -/
def StaysPooled (s : Daemon) (id : ClientId) : Prop :=
  id ∈ s.manager.pool ∧ ∀ c ∈ s.manager.clients[id]?, c.disposed = false

/-- Every removal that has returned failed as a whole, with a message and all
clients in place, or succeeded as a whole once no other is under way. -/
def FailureAtomic (s₀ s : Daemon) (daemonId : String) : Prop :=
  ∀ t, Task.remove t ∈ s.tasks → t.daemonId = daemonId → ∀ answer, t.answer = some answer →
    (t.deleted = some false → (∃ message, answer = .pairRemoveErr message) ∧
      ∀ id ∈ s₀.manager.pool, s₀.manager.isOf daemonId id = true → StaysPooled s id) ∧
    (t.deleted = some true → ¬UnderWay s daemonId → s.manager.rows.lookup daemonId = none ∧
      ∀ id ∈ s.manager.pool, s.manager.isOf daemonId id = false)

/-- The store deleted what it was asked to, and enough removals ran for the
clients that were pooled. -/
def RemovalsSuffice (s₀ s : Daemon) (daemonId : String) : Prop :=
  (∀ t, Task.remove t ∈ s.tasks → t.daemonId = daemonId → t.isReturned = true →
    t.deleted = some true) ∧
  ((∃ t, Task.remove t ∈ s.tasks ∧ t.daemonId = daemonId ∧ t.isReturned = true) →
    ¬UnderWay s daemonId → s₀.manager.pool.countP (s₀.manager.isOf daemonId) ≤
      s.tasks.countP (Task.removes (fun t => t.isReturned && !t.reentrant) daemonId))

section Counting

/-- Replacing one removal changes a count by that removal. -/
theorem countP_set_remove {tasks : List Task} {i : ℕ} {t : RemoveTask}
    (hget : tasks[i]? = some (.remove t)) (t' : RemoveTask) (hd : t'.daemonId = t.daemonId)
    (p : RemoveTask → Bool) (daemonId : String) :
    (tasks.set i (.remove t')).countP (Task.removes p daemonId) +
        (if t.daemonId = daemonId ∧ p t = true then 1 else 0) =
      tasks.countP (Task.removes p daemonId) +
        if t.daemonId = daemonId ∧ p t' = true then 1 else 0 := by
  obtain ⟨hlt, hi⟩ := List.getElem?_eq_some_iff.mp hget
  have hle := List.boole_getElem_le_countP (p := Task.removes p daemonId) hlt
  have hboole : ∀ u : RemoveTask, u.daemonId = t.daemonId →
      (if Task.removes p daemonId (.remove u) = true then 1 else 0) =
        if t.daemonId = daemonId ∧ p u = true then 1 else 0 := by
    intro u hu
    simp only [Task.removes, hu, Bool.and_eq_true, beq_iff_eq]
  rw [List.countP_set hlt, hi, hboole t rfl, hboole t' hd]
  rw [hi, hboole t rfl] at hle
  omega

/-- What a removal relies on. -/
structure RemoveTask.Sound (m : Manager) (t : RemoveTask) : Prop where
  /-- A client that was found is pooled until the removal takes it out. -/
  found : ∀ id, t.client = some (some id) → id ∈ m.pool ∧ m.isOf t.daemonId id = true
  /-- Where none was found, there is none. -/
  missed : t.client = some none → m.pool.countP (m.isOf t.daemonId) = 0
  /-- A deleted row stays away. -/
  deleted : t.deleted = some true → m.rows.lookup t.daemonId = none
  /-- The answer of the store is kept. -/
  asked : t.asked = true → t.deleted ≠ none
  /-- A re-entrant removal only asks the store. -/
  reentrant : t.holds = true ∨ t.stage = .start → t.reentrant = false
  met : t.stage = .reentrant → t.reentrant = true

/-- A removal that has just been called relies on nothing. -/
theorem sound_new (m : Manager) (daemonId : String) (notifyPeer : Bool) :
    (RemoveTask.new daemonId notifyPeer).Sound m :=
  ⟨nofun, nofun, nofun, nofun, fun _ => rfl, nofun⟩

/-- A removal relies on the pool and on rows that are gone. -/
theorem RemoveTask.Sound.congr {m m' : Manager} {t : RemoveTask} (h : t.Sound m)
    (hpool : m'.pool = m.pool) (hisOf : ∀ d id, m'.isOf d id = m.isOf d id)
    (hrows : ∀ d, m.rows.lookup d = none → m'.rows.lookup d = none) : t.Sound m' where
  found id hid := by
    rw [hpool, hisOf]
    exact h.found id hid
  missed hnone := by
    rw [hpool, funext (hisOf t.daemonId)]
    exact h.missed hnone
  deleted hdel := hrows t.daemonId (h.deleted hdel)
  asked := h.asked
  reentrant := h.reentrant
  met := h.met

/-- What leaves pool and rows alone does not disturb a removal. -/
theorem RemoveTask.Sound.settled {m m' : Manager} {t : RemoveTask} (h : t.Sound m)
    (hm : Settled m m') : t.Sound m' := h.congr hm.pool hm.isOf hm.rows

/-- What holds of client counts and guards in every run of removals. -/
structure Counted (s₀ s : Daemon) : Prop where
  noReconnect : ∀ task, Task.reconnect task ∉ s.tasks
  owners : ∀ daemonId id, s.manager.isOf daemonId id = s₀.manager.isOf daemonId id
  nodup : s.manager.pool.Nodup
  /-- Guards are held by removals. -/
  held : ∀ daemonId, s.manager.removing.count daemonId =
    s.tasks.countP (Task.removes RemoveTask.holds daemonId)
  /-- A guard is held once. -/
  once : ∀ daemonId, s.manager.removing.count daemonId ≤ 1
  /-- Every removal took one client, if there was one. -/
  counted : ∀ daemonId, s.manager.pool.countP (s.manager.isOf daemonId) =
    s₀.manager.pool.countP (s₀.manager.isOf daemonId) -
      s.tasks.countP (Task.removes RemoveTask.dropped daemonId)
  sound : ∀ t, Task.remove t ∈ s.tasks → t.Sound s.manager

/-- Nothing has been counted before the first task. -/
theorem counted_of_idle {s₀ : Daemon} (h : Idle s₀) : Counted s₀ s₀ where
  noReconnect task hmem := by simp [h.tasks] at hmem
  owners _ _ := rfl
  nodup := h.nodup
  held d := by rw [h.removing, h.tasks]; rfl
  once d := by rw [h.removing]; exact Nat.zero_le 1
  counted d := by rw [h.tasks]; rfl
  sound t hmem := by simp [h.tasks] at hmem

variable {s₀ s : Daemon}

/-- Steps that leave pool and removals alone, and start tasks, keep the
counts. -/
theorem Counted.spawn (h : Counted s₀ s) {s' : Daemon} (hm : Settled s.manager s'.manager)
    {new : List Task} (ht : s'.tasks = s.tasks ++ new) (hnew : ∀ t ∈ new, t.isFresh) :
    Counted s₀ s' := by
  have hcount : ∀ p : RemoveTask → Bool, (∀ d n, p (RemoveTask.new d n) = false) → ∀ d,
      s'.tasks.countP (Task.removes p d) = s.tasks.countP (Task.removes p d) := by
    intro p hp d
    rw [ht, List.countP_append, Nat.add_eq_left, List.countP_eq_zero]
    intro t hmem
    have hf := hnew t hmem
    cases t with
    | remove task =>
      have htask : task = RemoveTask.new task.daemonId task.notifyPeer := hf
      rw [Task.removes, htask, hp, Bool.and_false]
      exact Bool.false_ne_true
    | _ => exact Bool.false_ne_true
  have hisOf : ∀ d, s'.manager.isOf d = s.manager.isOf d := fun d => funext (hm.isOf d)
  refine ⟨?_, fun d id => (hm.isOf d id).trans (h.owners d id), ?_, ?_, ?_, ?_, ?_⟩
  · intro task hmem
    rw [ht] at hmem
    rcases List.mem_append.mp hmem with hold | hn
    · exact h.noReconnect task hold
    · exact hnew _ hn
  · rw [hm.pool]
    exact h.nodup
  · intro d
    rw [hm.removing, hcount _ (fun _ _ => rfl), h.held]
  · intro d
    rw [hm.removing]
    exact h.once d
  · intro d
    rw [hm.pool, hisOf, hcount _ (fun _ _ => rfl), h.counted]
  · intro t hmem
    rw [ht] at hmem
    rcases List.mem_append.mp hmem with hold | hn
    · exact (h.sound t hold).settled hm
    · have heq : t = RemoveTask.new t.daemonId t.notifyPeer := hnew (.remove t) hn
      rw [heq]
      exact sound_new _ _ _

/-- A removal goes on. -/
theorem Counted.set (h : Counted s₀ s) {i : ℕ} {t t' : RemoveTask} {m' : Manager}
    (hget : s.tasks[i]? = some (.remove t)) (hd : t'.daemonId = t.daemonId)
    (hisOf : ∀ d id, m'.isOf d id = s.manager.isOf d id) (hnodup : m'.pool.Nodup)
    (hheld : ∀ d, m'.removing.count d + (if t.daemonId = d ∧ t.holds = true then 1 else 0) =
      s.manager.removing.count d + if t.daemonId = d ∧ t'.holds = true then 1 else 0)
    (honce : ∀ d, m'.removing.count d ≤ 1)
    (hcounted : ∀ d, m'.pool.countP (s.manager.isOf d) =
      s₀.manager.pool.countP (s₀.manager.isOf d) -
        (s.tasks.set i (.remove t')).countP (Task.removes RemoveTask.dropped d))
    (hsound : ∀ u, Task.remove u ∈ s.tasks.set i (.remove t') → u.Sound m') :
    Counted s₀ ⟨m', s.tasks.set i (.remove t')⟩ := by
  refine ⟨fun task hmem => ?_, fun d id => (hisOf d id).trans (h.owners d id), hnodup, fun d => ?_,
    honce, fun d => ?_, hsound⟩
  · rcases List.mem_or_eq_of_mem_set hmem with hold | heq
    · exact h.noReconnect task hold
    · exact absurd heq (by simp)
  · have hset := countP_set_remove hget _ hd RemoveTask.holds d
    have hold := h.held d
    have hnew := hheld d
    dsimp only
    omega
  · dsimp only
    rw [funext (hisOf d), hcounted d]

/-- A step that disturbs no other removal leaves all of them sound. -/
theorem Counted.sound_set (h : Counted s₀ s) {i : ℕ} {t' : RemoveTask} {m' : Manager}
    (hkept : ∀ u : RemoveTask, u.Sound s.manager → u.Sound m') (hsound : t'.Sound m') :
    ∀ u, Task.remove u ∈ s.tasks.set i (.remove t') → u.Sound m' := by
  intro u hu
  rcases List.mem_or_eq_of_mem_set hu with hold | heq
  · exact hkept u (h.sound u hold)
  · obtain rfl := Task.remove.inj heq
    exact hsound

/-- A removal goes on without touching pool or guards. -/
theorem Counted.stay (h : Counted s₀ s) {i : ℕ} {t t' : RemoveTask} {m' : Manager}
    (hget : s.tasks[i]? = some (.remove t)) (hd : t'.daemonId = t.daemonId)
    (hm : Settled s.manager m') (hholds : t'.holds = t.holds) (hdropped : t'.dropped = t.dropped)
    (hsound : t'.Sound m') : Counted s₀ ⟨m', s.tasks.set i (.remove t')⟩ := by
  refine h.set hget hd hm.isOf (hm.pool ▸ h.nodup) (fun d => ?_) (fun d => ?_) (fun d => ?_) ?_
  · rw [hm.removing, hholds]
  · rw [hm.removing]
    exact h.once d
  · have hset := countP_set_remove hget _ hd RemoveTask.dropped d
    rw [hdropped] at hset
    rw [hm.pool, h.counted d, Nat.add_right_cancel hset]
  · exact h.sound_set (fun _ hu => hu.settled hm) hsound

/-- Erasing a pooled client takes one off the count of its daemon. -/
theorem countP_erase_of_mem {pool : List ClientId} {p : ClientId → Bool} {id : ClientId}
    (hmem : id ∈ pool) : (pool.erase id).countP p + (if p id = true then 1 else 0) = pool.countP p := by
  rw [(List.perm_cons_erase hmem).countP_eq p, List.countP_cons]

/-- A client belongs to one daemon. -/
theorem isOf_unique {m : Manager} {d d' : String} {id : ClientId} (h : m.isOf d id = true)
    (h' : m.isOf d' id = true) : d = d' := by
  unfold Manager.isOf at h h'
  cases hc : m.clients[id]? with
  | none => simp [hc] at h
  | some c =>
    simp only [hc, Option.any_some, beq_iff_eq] at h h'
    exact h.symm.trans h'

/-- At most one removal of a daemon is between finding its client and taking
it out. -/
theorem Counted.client_unique (h : Counted s₀ s) {i : ℕ} {t t' u : RemoveTask}
    (hget : s.tasks[i]? = some (.remove t)) (hu : Task.remove u ∈ s.tasks.set i (.remove t'))
    (hd : t'.daemonId = t.daemonId) (ht : t.client.isSome = true) (ht' : t'.client = none)
    (hud : u.daemonId = t.daemonId) : u.client = none := by
  have haims : ∀ v : RemoveTask, v.client.isSome = true → v.holds = true := by
    intro v hv
    unfold RemoveTask.client at hv
    unfold RemoveTask.holds
    cases hst : v.stage <;> simp [hst] at hv ⊢
  have hset := countP_set_remove hget _ hd (fun v => v.client.isSome) t.daemonId
  have hle : s.tasks.countP (Task.removes (fun v => v.client.isSome) t.daemonId) ≤
      s.tasks.countP (Task.removes RemoveTask.holds t.daemonId) := by
    refine List.countP_mono_left fun task _ hp => ?_
    cases task with
    | remove v =>
      simp only [Task.removes, Bool.and_eq_true] at hp ⊢
      exact ⟨hp.1, haims v hp.2⟩
    | _ => exact hp
  have hone := h.once t.daemonId
  rw [h.held] at hone
  simp only [ht, ht', Option.isSome_none, Bool.false_eq_true, and_false, if_false, true_and,
    if_true] at hset
  have hzero : (s.tasks.set i (.remove t')).countP
      (Task.removes (fun v => v.client.isSome) t.daemonId) = 0 := by omega
  have hnot := List.countP_eq_zero.mp hzero _ hu
  simpa [Task.removes, hud] using hnot

/-- A removal that goes on with what it found stays sound. -/
theorem RemoveTask.Sound.goto {m : Manager} {t : RemoveTask} (h : t.Sound m) {stage : RemoveStage}
    (hc : ({ t with stage } : RemoveTask).client = t.client)
    (ha : ({ t with stage } : RemoveTask).asked = true → t.asked = true)
    (hr : t.holds = true) (hs : stage ≠ .reentrant) : ({ t with stage } : RemoveTask).Sound m where
  found id hid := h.found id (hc ▸ hid)
  missed hnone := h.missed (hc ▸ hnone)
  deleted := h.deleted
  asked hasked := h.asked (ha hasked)
  reentrant _ := h.reentrant (.inl hr)
  met hst := absurd hst hs

/-- The row is gone if the store said so. -/
theorem lookup_tryDelete {m : Manager} {d : String} {env : Env} (h : env.storeOk = true) :
    (m.tryDelete d env).rows.lookup d = none := by
  rw [Manager.tryDelete, if_pos h, Manager.deletePairing]
  exact AList.lookup_erase _ _

/-- A removal that asked the store stays sound. -/
theorem RemoveTask.Sound.delete {m : Manager} {t : RemoveTask} (h : t.Sound m) (env : Env)
    {stage : RemoveStage}
    (hc : ∀ client, ({ t with stage, deleted := some env.storeOk } : RemoveTask).client = some client →
      t.client = some client)
    (hr : stage = .returned 0 ∨ t.holds = true) (hs : stage ≠ .reentrant) :
    ({ t with stage, deleted := some env.storeOk } : RemoveTask).Sound (m.tryDelete t.daemonId env) where
  found id hid := (h.settled (settled_tryDelete m t.daemonId env)).found id (hc _ hid)
  missed hnone := (h.settled (settled_tryDelete m t.daemonId env)).missed (hc _ hnone)
  deleted hdel := lookup_tryDelete (Option.some.inj hdel)
  asked _ := Option.some_ne_none _
  reentrant hholds := by
    rcases hr with rfl | hr
    · exact absurd hholds (by simp [RemoveTask.holds])
    · exact h.reentrant (.inl hr)
  met hst := absurd hst hs

/-- A removal takes the guard. -/
theorem Counted.take (h : Counted s₀ s) {i : ℕ} {t : RemoveTask}
    (hget : s.tasks[i]? = some (.remove t)) (hst : t.stage = .start)
    (hfree : t.daemonId ∉ s.manager.removing) :
    Counted s₀ ⟨{ s.manager with removing := t.daemonId :: s.manager.removing },
      s.tasks.set i (.remove { t with stage := .finding })⟩ := by
  have hzero : s.manager.removing.count t.daemonId = 0 := List.count_eq_zero.mpr hfree
  have hsound := h.sound t (List.mem_of_getElem? hget)
  refine h.set hget rfl (fun _ _ => rfl) h.nodup (fun d => ?_) (fun d => ?_) (fun d => ?_) ?_
  · simp only [RemoveTask.holds, hst, Bool.false_eq_true, and_false, if_false, and_true,
      Nat.add_zero, List.count_cons, beq_iff_eq]
  · rw [List.count_cons]
    have hone := h.once d
    split
    · rename_i heq
      rw [← beq_iff_eq.mp heq, hzero]
    · exact hone
  · have hset := countP_set_remove hget { t with stage := .finding } rfl RemoveTask.dropped d
    have hnone : ({ t with stage := .finding } : RemoveTask).dropped = false := rfl
    have hnone' : t.dropped = false := by simp [RemoveTask.dropped, hst]
    simp only [hnone, hnone', Bool.false_eq_true, and_false, if_false, Nat.add_zero] at hset
    rw [hset]
    exact h.counted d
  · exact h.sound_set (fun _ hu => hu.congr rfl (fun _ _ => rfl) fun _ => id)
      ⟨nofun, nofun, hsound.deleted, nofun, fun _ => hsound.reentrant (.inr hst), nofun⟩

/-- A removal gives the guard back. -/
theorem Counted.release (h : Counted s₀ s) {i notified : ℕ} {t : RemoveTask}
    (hget : s.tasks[i]? = some (.remove t)) (hst : t.stage = .releasing notified) :
    Counted s₀ ⟨{ s.manager with
        removing := s.manager.removing.erase t.daemonId }.removalFinished t.daemonId,
      s.tasks.set i (.remove { t with stage := .returned notified })⟩ := by
  have hsound := h.sound t (List.mem_of_getElem? hget)
  have hholds : t.holds = true := by simp [RemoveTask.holds, hst]
  have hone : 1 ≤ s.manager.removing.count t.daemonId := by
    rw [h.held, Nat.one_le_iff_ne_zero, Nat.ne_zero_iff_zero_lt, List.countP_pos_iff]
    exact ⟨_, List.mem_of_getElem? hget, by simp [Task.removes, hholds]⟩
  refine h.set hget rfl (fun _ _ => rfl) h.nodup (fun d => ?_) (fun d => ?_) (fun d => ?_) ?_
  · have hback : ({ t with stage := .returned notified } : RemoveTask).holds = false := rfl
    simp only [Manager.removalFinished, List.count_erase, beq_iff_eq, hholds, hback, and_true,
      Bool.false_eq_true, and_false, if_false, Nat.add_zero]
    split
    · rename_i heq
      rw [← heq]
      omega
    · rfl
  · have hle := h.once d
    simp only [Manager.removalFinished, List.count_erase]
    omega
  · have hset := countP_set_remove hget { t with stage := .returned notified } rfl
      RemoveTask.dropped d
    have hsame : ({ t with stage := .returned notified } : RemoveTask).dropped = t.dropped := by
      simp [RemoveTask.dropped, hst]
    rw [hsame] at hset
    rw [Nat.add_right_cancel hset]
    exact h.counted d
  · exact h.sound_set (fun _ hu => hu.congr rfl (fun _ _ => rfl) fun _ => id)
      ⟨nofun, nofun, hsound.deleted, fun _ => hsound.asked (by simp [RemoveTask.asked, hst]),
        fun _ => hsound.reentrant (.inl hholds), nofun⟩

/-- A removal takes its client out of the pool. -/
theorem Counted.drop (h : Counted s₀ s) {i id notified : ℕ} {t : RemoveTask}
    (hget : s.tasks[i]? = some (.remove t)) (hst : t.stage = .dropping id notified) :
    Counted s₀ ⟨{ s.manager with pool := s.manager.pool.erase id },
      s.tasks.set i (.remove { t with stage := .releasing notified })⟩ := by
  have hsound := h.sound t (List.mem_of_getElem? hget)
  have hholds : t.holds = true := by simp [RemoveTask.holds, hst]
  have hclient : t.client = some (some id) := by simp [RemoveTask.client, hst]
  obtain ⟨hmem, hof⟩ := hsound.found id hclient
  have hcount := fun d => countP_erase_of_mem (p := s.manager.isOf d) hmem
  refine h.set hget rfl (fun _ _ => rfl) (h.nodup.erase id) (fun d => ?_) h.once (fun d => ?_) ?_
  · have hkeeps : ({ t with stage := .releasing notified } : RemoveTask).holds = true := rfl
    rw [hholds, hkeeps]
  · have hset := countP_set_remove hget { t with stage := .releasing notified } rfl
      RemoveTask.dropped d
    have hnot : t.dropped = false := by simp [RemoveTask.dropped, hst]
    have hyes : ({ t with stage := .releasing notified } : RemoveTask).dropped = true := by
      simp [RemoveTask.dropped, hsound.reentrant (.inl hholds)]
    have hc := hcount d
    have hold := h.counted d
    simp only [hnot, hyes, Bool.false_eq_true, and_false, if_false, and_true, Nat.add_zero] at hset
    have hiff : s.manager.isOf d id = true ↔ t.daemonId = d :=
      ⟨fun hd => isOf_unique hof hd, fun hd => hd ▸ hof⟩
    simp only [hiff] at hc
    dsimp only
    split at hc
    · rw [if_pos ‹_›] at hset
      omega
    · rw [if_neg ‹_›] at hset
      omega
  · intro u hu
    have hne : u.daemonId = t.daemonId → u.client = none :=
      h.client_unique hget hu rfl (by rw [hclient]; rfl) rfl
    rcases List.mem_or_eq_of_mem_set hu with hold | heq
    · obtain ⟨hfound, hmissed, hdeleted, hasked, hre, hmet⟩ := h.sound u hold
      refine ⟨fun id' hid' => ?_, fun hnone => ?_, hdeleted, hasked, hre, hmet⟩
      · obtain ⟨hmem', hof'⟩ := hfound id' hid'
        have hids : id' ≠ id := by
          rintro rfl
          rw [hne (isOf_unique hof' hof)] at hid'
          exact absurd hid' nofun
        exact ⟨(List.mem_erase_of_ne hids).mpr hmem', hof'⟩
      · have hz := hmissed hnone
        have hc := hcount u.daemonId
        exact Nat.eq_zero_of_le_zero (by rw [hz] at hc; exact (Nat.le.intro hc))
    · obtain rfl := Task.remove.inj heq
      exact ⟨nofun, nofun, hsound.deleted, fun _ => hsound.asked (by simp [RemoveTask.asked, hst]),
        fun _ => hsound.reentrant (.inl hholds), nofun⟩

/-- A removal that found no client has nothing to take out. -/
theorem Counted.miss (h : Counted s₀ s) {i notified : ℕ} {t : RemoveTask} (env : Env)
    (hget : s.tasks[i]? = some (.remove t)) (hst : t.stage = .deleting none notified) :
    Counted s₀ ⟨s.manager.tryDelete t.daemonId env, s.tasks.set i (.remove
      { t with stage := .releasing notified, deleted := some env.storeOk })⟩ := by
  have hsound := h.sound t (List.mem_of_getElem? hget)
  have hm := settled_tryDelete s.manager t.daemonId env
  have hholds : t.holds = true := by simp [RemoveTask.holds, hst]
  have hmissed := hsound.missed (by simp [RemoveTask.client, hst])
  refine h.set hget rfl hm.isOf (hm.pool ▸ h.nodup) (fun d => ?_) (fun d => ?_) (fun d => ?_) ?_
  · have hkeeps : ({ t with stage := .releasing notified, deleted := some env.storeOk } :
        RemoveTask).holds = true := rfl
    rw [hm.removing, hholds, hkeeps]
  · rw [hm.removing]
    exact h.once d
  · have hset := countP_set_remove hget
      { t with stage := .releasing notified, deleted := some env.storeOk } rfl RemoveTask.dropped d
    have hold := h.counted d
    have hnot : t.dropped = false := by simp [RemoveTask.dropped, hst]
    simp only [hnot, Bool.false_eq_true, and_false, if_false, Nat.add_zero] at hset
    rw [hm.pool]
    split at hset
    · rename_i hd
      rw [hd.1] at hmissed
      omega
    · omega
  · exact h.sound_set (fun _ hu => hu.settled hm) (hsound.delete env nofun (.inr hholds) nofun)

/-- A removal goes on with what it found. -/
theorem Counted.goto (h : Counted s₀ s) {i : ℕ} {t : RemoveTask} {stage : RemoveStage}
    (hget : s.tasks[i]? = some (.remove t)) (hholds : t.holds = true)
    (hc : ({ t with stage } : RemoveTask).client = t.client)
    (ha : ({ t with stage } : RemoveTask).asked = true → t.asked = true)
    (hholds' : ({ t with stage } : RemoveTask).holds = true)
    (hdropped : ({ t with stage } : RemoveTask).dropped = t.dropped) (hs : stage ≠ .reentrant) :
    Counted s₀ ⟨s.manager, s.tasks.set i (.remove { t with stage })⟩ :=
  h.stay hget rfl (Settled.refl s.manager) (hholds'.trans hholds.symm) hdropped
    ((h.sound t (List.mem_of_getElem? hget)).goto hc ha hholds hs)

/-- Every stage of a removal keeps the counts. -/
theorem Counted.advance (h : Counted s₀ s) {i : ℕ} {t : RemoveTask} (env : Env)
    (hget : s.tasks[i]? = some (.remove t)) :
    Counted s₀ ⟨(t.next s.manager env).1, s.tasks.set i (.remove (t.next s.manager env).2)⟩ := by
  have hsound := h.sound t (List.mem_of_getElem? hget)
  have hrefl := Settled.refl s.manager
  obtain ⟨daemonId, notifyPeer, stage, reentrant, deleted⟩ := t
  have hdelete := settled_tryDelete s.manager daemonId env
  cases stage with
  | start =>
    dsimp only [RemoveTask.next]
    split
    · exact h.stay hget rfl hrefl rfl rfl
        ⟨nofun, nofun, hsound.deleted, nofun, nofun, fun _ => rfl⟩
    · rename_i hfree
      exact h.take hget rfl hfree
  | reentrant =>
    have hfinished : Settled (s.manager.tryDelete daemonId env)
        ((s.manager.tryDelete daemonId env).removalFinished daemonId) :=
      ⟨rfl, fun _ _ => rfl, rfl, fun _ h => h⟩
    have hmet : reentrant = true := hsound.met rfl
    subst hmet
    have hnext : (⟨daemonId, notifyPeer, .returned 0, true, some env.storeOk⟩ : RemoveTask).Sound
        (s.manager.tryDelete daemonId env) := hsound.delete env nofun (.inl rfl) nofun
    exact h.stay hget rfl (hdelete.trans hfinished) rfl rfl (hnext.settled hfinished)
  | finding =>
    refine h.stay hget rfl hrefl rfl rfl ⟨fun id hid => ?_, fun hnone => ?_, hsound.deleted, nofun,
      fun _ => hsound.reentrant (.inl rfl), nofun⟩
    · have hfind : s.manager.findClient daemonId = some id := Option.some.inj hid
      exact ⟨List.mem_of_find?_eq_some hfind, List.find?_some hfind⟩
    · have hfind : s.manager.findClient daemonId = none := Option.some.inj hnone
      exact List.countP_eq_zero.mpr (List.find?_eq_none.mp hfind)
  | found client =>
    cases client with
    | none => exact h.goto hget rfl rfl nofun rfl rfl nofun
    | some id =>
      dsimp only [RemoveTask.next]
      split
      · exact h.goto hget rfl rfl nofun rfl rfl nofun
      · exact h.goto hget rfl rfl nofun rfl rfl nofun
  | notifying id peers notified =>
    cases peers with
    | nil => exact h.goto hget rfl rfl nofun rfl rfl nofun
    | cons peer peers => exact h.goto hget rfl rfl nofun rfl rfl nofun
  | deleting client notified =>
    cases client with
    | none => exact h.miss env hget rfl
    | some id =>
      have hnext : (⟨daemonId, notifyPeer, .disposing id notified, reentrant, some env.storeOk⟩ :
          RemoveTask).Sound (s.manager.tryDelete daemonId env) :=
        hsound.delete env (fun _ hc => hc) (.inr rfl) nofun
      exact h.stay hget rfl hdelete rfl rfl hnext
  | disposing id notified =>
    have hdispose := (calm_dispose s.manager id).settled
    have hnext : (⟨daemonId, notifyPeer, .dropping id notified, reentrant, deleted⟩ :
        RemoveTask).Sound s.manager := hsound.goto rfl (fun _ => rfl) rfl nofun
    exact h.stay hget rfl hdispose rfl rfl (hnext.settled hdispose)
  | dropping id notified => exact h.drop hget rfl
  | releasing notified => exact h.release hget rfl
  | returned notified => exact h.stay hget rfl hrefl rfl rfl hsound

/-- Other tasks are not counted. -/
theorem Counted.other (h : Counted s₀ s) {i : ℕ} {t t' : Task} {m' : Manager}
    (hget : s.tasks[i]? = some t) (hm : Settled s.manager m') (ht : t.isOther = true)
    (ht' : t'.isOther = true) : Counted s₀ ⟨m', s.tasks.set i t'⟩ := by
  obtain ⟨hlt, hi⟩ := List.getElem?_eq_some_iff.mp hget
  have hremoves : ∀ (u : Task) p d, u.isOther = true → Task.removes p d u = false := by
    intro u p d hu
    cases u with
    | remove task => exact absurd hu Bool.false_ne_true
    | _ => rfl
  have hcount : ∀ p d, (s.tasks.set i t').countP (Task.removes p d) =
      s.tasks.countP (Task.removes p d) := by
    intro p d
    rw [List.countP_set hlt, hi, hremoves t p d ht, hremoves t' p d ht']
    rfl
  refine ⟨fun task hmem => ?_, fun d id => (hm.isOf d id).trans (h.owners d id),
    hm.pool ▸ h.nodup, fun d => ?_, fun d => ?_, fun d => ?_, fun u hmem => ?_⟩
  · rcases List.mem_or_eq_of_mem_set hmem with hold | rfl
    · exact h.noReconnect task hold
    · exact absurd ht' Bool.false_ne_true
  · dsimp only
    rw [hm.removing, hcount, h.held]
  · dsimp only
    rw [hm.removing]
    exact h.once d
  · dsimp only
    rw [hm.pool, funext (hm.isOf d), hcount, h.counted]
  · rcases List.mem_or_eq_of_mem_set hmem with hold | rfl
    · exact (h.sound u hold).settled hm
    · exact absurd ht' Bool.false_ne_true

/-- Every event that brings no clients keeps the counts. -/
theorem Counted.managerStep (h : Counted s₀ s) {e : ManagerEvent} (he : e.addsClients = false) :
    Counted s₀ (managerStep s e) := by
  rcases managerStep_cases he with ⟨i, env, t, rfl, hget, heq⟩ | ⟨id, label, c, rfl, hc, heq⟩ |
    ⟨hm, new, ht, hnew⟩
  · rw [heq]
    cases t with
    | remove task => exact h.advance env hget
    | reconnect task => exact absurd (List.mem_of_getElem? hget) (h.noReconnect task)
    | rename task | hello task | push task =>
      exact h.other hget (settled_next env rfl) rfl rfl
  · rw [heq]
    exact h.spawn (settled_tryRename s.manager _ label true) (List.append_nil _).symm
      fun t ht => absurd ht List.not_mem_nil
  · exact h.spawn hm.settled ht hnew

/-- The counts hold after every run that brings no clients. -/
theorem counted_runFrom (hs : Idle s₀) {events : List ManagerEvent}
    (he : ∀ e ∈ events, e.addsClients = false) :
    Counted s₀ (runFrom RelayManager.managerStep s₀ events) := by
  have hm : Meets RelayManager.managerStep (fun _ e => e.addsClients = false) s₀ events :=
    meets_of_forall_mem (fun e hmem _ => he e hmem) s₀
  exact runFrom_induction_of_meets (fun s e h he => h.managerStep he) (counted_of_idle hs) hm

end Counting

/-- A call that has returned is answered with a number of peers. -/
theorem answer_eq_some_iff {t : RemoveTask} {answer : PairRemoveAnswer} :
    t.answer = some answer ↔ ∃ notified, t.stage = .returned notified ∧
      answer = .pairRemoveOk notified := by
  unfold RemoveTask.answer
  split
  · rename_i notified hst
    simp [hst, eq_comm]
  · rename_i hne
    simpa using fun notified hst => absurd hst (hne notified)

/-- Once no removal of a daemon is under way, those that took their client
out have returned. -/
theorem countP_dropped_eq {s : Daemon} {daemonId : String} (h : ¬UnderWay s daemonId) :
    s.tasks.countP (Task.removes RemoveTask.dropped daemonId) =
      s.tasks.countP (Task.removes (fun t => t.isReturned && !t.reentrant) daemonId) := by
  refine List.countP_congr fun task hmem => ?_
  cases task with
  | remove t =>
    simp only [Task.removes, Bool.and_eq_true, beq_iff_eq]
    refine and_congr_right fun hd => ?_
    have hreturned : t.isReturned = true := by
      by_contra hnot
      exact h ⟨t, hmem, hd, Bool.eq_false_iff.mpr hnot⟩
    rw [hreturned, eq_self_iff_true, true_and]
    unfold RemoveTask.isReturned at hreturned
    unfold RemoveTask.dropped
    cases hst : t.stage <;> simp [hst] at hreturned ⊢
  | _ => rfl

/-- A call that has returned is answered as if it had succeeded. -/
theorem answer_of_isReturned {t : RemoveTask} (h : t.isReturned = true) :
    ∃ notified, t.answer = some (.pairRemoveOk notified) := by
  unfold RemoveTask.isReturned at h
  unfold RemoveTask.answer
  cases hst : t.stage <;> simp [hst] at h ⊢

/-- A call that has returned knows what the store said. -/
theorem RemoveTask.Sound.deleted_of_isReturned {m : Manager} {t : RemoveTask} (h : t.Sound m)
    (hr : t.isReturned = true) : t.deleted = some false ∨ t.deleted = some true := by
  have hasked : t.asked = true := by
    unfold RemoveTask.isReturned at hr
    unfold RemoveTask.asked
    cases hst : t.stage <;> simp [hst] at hr ⊢
  have hne := h.asked hasked
  cases hdel : t.deleted with
  | none => exact absurd hdel hne
  | some storeOk => cases storeOk <;> simp

/-- A removal is atomic exactly when the store deleted what it was asked to
and the removals that were not re-entrant were as many as the clients that
were pooled, for every pool and every run of removals. -/
theorem failureAtomic_iff {s₀ : Daemon} (hs : Idle s₀) {events : List ManagerEvent}
    (he : ∀ e ∈ events, e.addsClients = false) (daemonId : String) :
    FailureAtomic s₀ (runFrom managerStep s₀ events) daemonId ↔
      RemovalsSuffice s₀ (runFrom managerStep s₀ events) daemonId := by
  have h := counted_runFrom hs he
  generalize runFrom managerStep s₀ events = s at h ⊢
  have hcount := h.counted daemonId
  constructor
  · intro hatomic
    have hdeleted : ∀ t, Task.remove t ∈ s.tasks → t.daemonId = daemonId → t.isReturned = true →
        t.deleted = some true := by
      intro t hmem hd hreturned
      obtain ⟨notified, hans⟩ := answer_of_isReturned hreturned
      refine ((h.sound t hmem).deleted_of_isReturned hreturned).resolve_left fun hfalse => ?_
      obtain ⟨⟨message, hmessage⟩, _⟩ := (hatomic t hmem hd _ hans).1 hfalse
      exact absurd hmessage nofun
    refine ⟨hdeleted, ?_⟩
    rintro ⟨t, hmem, hd, hreturned⟩ hidle
    obtain ⟨notified, hans⟩ := answer_of_isReturned hreturned
    obtain ⟨_, hpool⟩ := (hatomic t hmem hd _ hans).2 (hdeleted t hmem hd hreturned) hidle
    have hzero : s.manager.pool.countP (s.manager.isOf daemonId) = 0 :=
      List.countP_eq_zero.mpr fun id hid => by rw [hpool id hid]; exact Bool.false_ne_true
    rw [← countP_dropped_eq hidle]
    omega
  · rintro ⟨hdeleted, hsuffice⟩ t hmem hd answer hans
    obtain ⟨notified, hst, _⟩ := answer_eq_some_iff.mp hans
    have hreturned : t.isReturned = true := by simp [RemoveTask.isReturned, hst]
    have htrue := hdeleted t hmem hd hreturned
    refine ⟨fun hfalse => absurd (htrue.symm.trans hfalse) (by simp), fun _ hidle => ⟨?_, ?_⟩⟩
    · rw [← hd]
      exact (h.sound t hmem).deleted htrue
    · have hle := hsuffice ⟨t, hmem, hd, hreturned⟩ hidle
      rw [← countP_dropped_eq hidle] at hle
      have hzero : s.manager.pool.countP (s.manager.isOf daemonId) = 0 := by omega
      exact fun id hid => Bool.eq_false_iff.mpr (List.countP_eq_zero.mp hzero id hid)

/-- The calls of a removal and of one that overlaps it, and all their steps. -/
def overlappingRemovals : List ManagerEvent :=
  .removePairing "d" true :: runs 0 3 true ++ .removePairing "d" false :: runs 1 2 true ++
    runs 0 5 true

/-- A removal whose delete fails. -/
def failingRemoval : List ManagerEvent := .removePairing "d" true :: runs 0 8 false

/-- Two removals that overlap leave neither row nor client. -/
theorem failureAtomic_overlapping :
    Idle (pairedDaemon ["d", "e"]) ∧ (∀ e ∈ overlappingRemovals, e.addsClients = false) ∧
      FailureAtomic (pairedDaemon ["d", "e"])
        (runFrom managerStep (pairedDaemon ["d", "e"]) overlappingRemovals) "d" := by
  have hidle : Idle (pairedDaemon ["d", "e"]) := ⟨rfl, rfl, by decide +kernel⟩
  have hevents : ∀ e ∈ overlappingRemovals, e.addsClients = false := by decide +kernel
  have htasks : (runFrom managerStep (pairedDaemon ["d", "e"]) overlappingRemovals).tasks =
      [.remove ⟨"d", true, .returned 0, false, some true⟩,
        .remove ⟨"d", false, .returned 0, true, some true⟩] := by decide +kernel
  refine ⟨hidle, hevents, (failureAtomic_iff hidle hevents "d").mpr ⟨?_, fun _ _ => ?_⟩⟩
  · intro t hmem _ _
    simp only [htasks, List.mem_cons, Task.remove.injEq, List.not_mem_nil, or_false] at hmem
    rcases hmem with rfl | rfl
    · rfl
    · rfl
  · decide +kernel

/-- A removal whose delete fails is reported as successful: the row is still
there, and the client is disposed and not pooled any more. -/
theorem removal_ignores_store_failure :
    ¬FailureAtomic (pairedDaemon ["d"])
      (runFrom managerStep (pairedDaemon ["d"]) failingRemoval) "d" ∧
    ((runFrom managerStep (pairedDaemon ["d"]) failingRemoval).manager.rows.lookup "d").isSome ∧
    (runFrom managerStep (pairedDaemon ["d"]) failingRemoval).manager.pool = [] ∧
    (runFrom managerStep (pairedDaemon ["d"]) failingRemoval).manager.clients.map
      Client.disposed = [true] ∧
    (runFrom managerStep (pairedDaemon ["d"]) failingRemoval).tasks =
      [.remove ⟨"d", true, .returned 0, false, some false⟩] := by
  have htasks : (runFrom managerStep (pairedDaemon ["d"]) failingRemoval).tasks =
      [.remove ⟨"d", true, .returned 0, false, some false⟩] := by decide +kernel
  refine ⟨fun hatomic => ?_, by decide +kernel, by decide +kernel, by decide +kernel, htasks⟩
  have hfailed := hatomic ⟨"d", true, .returned 0, false, some false⟩
    (by rw [htasks]; exact List.mem_singleton_self _) rfl _ rfl
  obtain ⟨⟨message, hmessage⟩, _⟩ := hfailed.1 rfl
  exact absurd hmessage nofun

end Teleprompter.RelayManager
