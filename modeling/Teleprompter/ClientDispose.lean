import Teleprompter.RelayConnection

/-!
# What a dispose of a relay client leaves behind

A dispose marks the client, empties its state and aborts the registered
tasks, and a connect that is under way looks at the mark in one lock section
and installs its channel in a later one. A dispose is final in every run in
which no connect installs after the state was emptied and the abort of a
dispose meets no channel on the way to its registration and no writer in the
middle of a poll.
-/

namespace Teleprompter.RelayConnection

open StepRuns

/-- Stages of a read loop, and the end of any task. -/
def Stage.isReader : Stage → Bool
  | .reading _ | .received .. | .closing _ | .finished => true
  | _ => false

/-- The channel of the connection is installed and not registered. -/
def Stage.isInstalled : Stage → Bool
  | .installed .. => true
  | _ => false

/-- The next step of the connection installs its channel. -/
def Stage.installs : Stage → Bool
  | .rechecked _ => true
  | _ => false

/-- The writer hands nothing to its socket any more. -/
def Channel.Silent (c : Channel) : Prop :=
  c.writer = .ended ∨ c.writer = .idle ∧ c.aborted = true

/-- A dispose will find the channel silent or make it so, once polls have
ended and channels are registered. -/
def Covered (s : RelayClient) (ch : ℕ) (c : Channel) : Prop :=
  c.Silent ∨ Handle.writer ch ∈ s.tasks ∨ c.writer = .polling ∧ c.aborted = true ∨
    ∃ p ∈ s.procs, ∃ reader, p.stage = .installed ch reader

/-- The place of a read loop is registered, or about to be. -/
def Handled (s : RelayClient) (reader : ℕ) : Prop :=
  Handle.reader reader ∈ s.tasks ∨ ∃ p ∈ s.procs, ∃ ch, p.stage = .installed ch reader

/-- What holds between any two steps of a client whose disposes are final. -/
structure Watched (s : RelayClient) : Prop where
  /-- No sender is left after a dispose has emptied the state. -/
  emptied : s.cleared = true → s.conn.wsTx = none
  /-- Every channel is covered. -/
  covered : ∀ (ch : ℕ) c, s.channels[ch]? = some c → Covered s ch c
  /-- Only read loops are aborted. -/
  aborted : ∀ p ∈ s.procs, p.aborted = true → p.stage.isReader = true
  /-- Registered places hold read loops. -/
  readers : ∀ (r : ℕ), Handled s r → ∃ p, s.procs[r]? = some p ∧ p.stage.isReader = true
  /-- The abort of a dispose comes after the emptying. -/
  ordered : ∀ p ∈ s.procs, p.stage = .disposeCleared → s.cleared = true
  /-- A dispose that returned left silent channels. -/
  silent : s.returned = true → s.cleared = true ∧ ∀ c ∈ s.channels, c.Silent
  /-- Nothing was handed to a socket after that. -/
  unhanded : s.handedAfter = []

/-- A client that nothing was done with is watched. -/
theorem watched_new : Watched RelayClient.new where
  emptied := fun _ => rfl
  covered := fun ch c h => absurd h (by simp [RelayClient.new])
  aborted := fun p h => absurd h List.not_mem_nil
  readers := fun r h => absurd h (by simp [Handled, RelayClient.new])
  ordered := fun p h => absurd h List.not_mem_nil
  silent := fun h => absurd h Bool.false_ne_true
  unhanded := rfl

section Quiet

/-- A task went on, where the state was emptied before or not. -/
structure Follows (cleared : Bool) (p p' : Proc) : Prop where
  /-- Aborts are not made or forgotten. -/
  aborted : p'.aborted = p.aborted
  /-- A read loop stays one until it ends. -/
  reader : p.stage.isReader = true → p'.stage.isReader = true
  /-- No channel is installed or registered. -/
  stage : p'.stage = p.stage ∨ p.stage.isInstalled = false ∧ p'.stage.isInstalled = false
  /-- The abort of a dispose is not reached too early. -/
  ordered : p'.stage = .disposeCleared → cleared = true ∨ p.stage = .disposeCleared

variable {cleared : Bool}

/-- A task that does not move follows itself. -/
theorem Follows.refl (p : Proc) : Follows cleared p p := ⟨rfl, id, .inl rfl, .inr⟩

/-- Tasks went on or were started. -/
structure ProcsKept (cleared : Bool) (procs procs' : List Proc) : Prop where
  /-- Every task is still at its place. -/
  keeps : ∀ (i : ℕ) p, procs[i]? = some p → ∃ p', procs'[i]? = some p' ∧ Follows cleared p p'
  /-- Every task was there before, or is new. -/
  comes : ∀ p' ∈ procs', (∃ p ∈ procs, Follows cleared p p') ∨
    p'.aborted = false ∧ p'.stage.isInstalled = false ∧ p'.stage ≠ .disposeCleared

/-- Nothing happened to the tasks. -/
theorem ProcsKept.refl (procs : List Proc) : ProcsKept cleared procs procs where
  keeps := fun _ p h => ⟨p, h, Follows.refl p⟩
  comes := fun p h => .inl ⟨p, h, Follows.refl p⟩

/-- One task went on. -/
theorem ProcsKept.set {procs : List Proc} {i : ℕ} {p p' : Proc} (hget : procs[i]? = some p)
    (hf : Follows cleared p p') : ProcsKept cleared procs (procs.set i p') where
  keeps := by
    intro j q hq
    rcases eq_or_ne i j with rfl | hne
    · have hlt : i < procs.length := (List.getElem?_eq_some_iff.mp hget).1
      obtain rfl : p = q := Option.some.inj (hget.symm.trans hq)
      exact ⟨p', List.getElem?_set_self hlt, hf⟩
    · exact ⟨q, by rw [List.getElem?_set_ne hne, hq], Follows.refl q⟩
  comes := by
    intro q hq
    rcases List.mem_or_eq_of_mem_set hq with hmem | rfl
    · exact .inl ⟨q, hmem, Follows.refl q⟩
    · exact .inl ⟨p, List.mem_of_getElem? hget, hf⟩

/-- A task was started as well. -/
theorem ProcsKept.concat {procs procs' : List Proc} {p : Proc} (h : ProcsKept cleared procs procs')
    (ha : p.aborted = false) (hi : p.stage.isInstalled = false) (hd : p.stage ≠ .disposeCleared) :
    ProcsKept cleared procs (procs' ++ [p]) where
  keeps := by
    intro i q hq
    obtain ⟨q', hq', hf⟩ := h.keeps i q hq
    refine ⟨q', ?_, hf⟩
    rw [List.getElem?_append_left (List.getElem?_eq_some_iff.mp hq').1, hq']
  comes := by
    intro q hq
    rcases List.mem_append.mp hq with hmem | hmem
    · exact h.comes q hmem
    · obtain rfl := List.mem_singleton.mp hmem
      exact .inr ⟨ha, hi, hd⟩

/-- A channel was installed before. -/
theorem ProcsKept.installed_of_mem {procs procs' : List Proc} (h : ProcsKept cleared procs procs')
    {p' : Proc} {ch reader : ℕ} (hmem : p' ∈ procs') (hst : p'.stage = .installed ch reader) :
    ∃ p ∈ procs, p.stage = .installed ch reader := by
  have hne : p'.stage.isInstalled = true := by rw [hst, Stage.isInstalled]
  rcases h.comes p' hmem with ⟨p, hpmem, hf⟩ | ⟨_, hi, _⟩
  · rcases hf.stage with heq | ⟨_, hi⟩
    · exact ⟨p, hpmem, heq ▸ hst⟩
    · exact absurd (hne.symm.trans hi) (by decide)
  · exact absurd (hne.symm.trans hi) (by decide)

/-- An installed channel stays so. -/
theorem ProcsKept.installed_mem {procs procs' : List Proc} (h : ProcsKept cleared procs procs')
    {ch reader : ℕ} (hi : ∃ p ∈ procs, p.stage = .installed ch reader) :
    ∃ p ∈ procs', p.stage = .installed ch reader := by
  obtain ⟨p, hmem, hst⟩ := hi
  obtain ⟨i, hget⟩ := List.mem_iff_getElem?.mp hmem
  obtain ⟨p', hget', hf⟩ := h.keeps i p hget
  refine ⟨p', List.mem_of_getElem? hget', ?_⟩
  rcases hf.stage with heq | ⟨hni, _⟩
  · rw [heq, hst]
  · rw [hst] at hni
    exact absurd hni (by simp [Stage.isInstalled])

/-- A step that leaves writers, registrations and disposes alone. -/
structure Quiet (s s' : RelayClient) : Prop where
  /-- The sender stays or goes. -/
  wsTx : s'.conn.wsTx = s.conn.wsTx ∨ s'.conn.wsTx = none
  /-- No dispose goes on. -/
  cleared : s'.cleared = s.cleared
  returned : s'.returned = s.returned
  handedAfter : s'.handedAfter = s.handedAfter
  tasks : s'.tasks = s.tasks
  /-- Channels may get messages, their writers do not move. -/
  writers : ∀ (ch : ℕ) c', s'.channels[ch]? = some c' →
    ∃ c, s.channels[ch]? = some c ∧ c'.writer = c.writer ∧ c'.aborted = c.aborted
  /-- Tasks go on. -/
  procs : ProcsKept s.cleared s.procs s'.procs

/-- Silence is about the writer only. -/
theorem Channel.Silent.congr {c c' : Channel} (h : c.Silent) (hw : c'.writer = c.writer)
    (ha : c'.aborted = c.aborted) : c'.Silent := by
  rw [Channel.Silent, hw, ha]
  exact h

/-- Quiet steps keep a client watched. -/
theorem Watched.quiet {s s' : RelayClient} (h : Watched s) (hq : Quiet s s') : Watched s' where
  emptied := by
    intro hc
    rcases hq.wsTx with heq | hnone
    · rw [heq]
      exact h.emptied (hq.cleared ▸ hc)
    · exact hnone
  covered := by
    intro ch c' hc'
    obtain ⟨c, hc, hw, ha⟩ := hq.writers ch c' hc'
    rcases h.covered ch c hc with hs | ht | hp | ⟨p, hmem, reader, hst⟩
    · exact .inl (hs.congr hw ha)
    · exact .inr (.inl (hq.tasks ▸ ht))
    · exact .inr (.inr (.inl ⟨hw ▸ hp.1, ha ▸ hp.2⟩))
    · obtain ⟨p', hmem', hst'⟩ := hq.procs.installed_mem ⟨p, hmem, hst⟩
      exact .inr (.inr (.inr ⟨p', hmem', reader, hst'⟩))
  aborted := by
    intro p' hmem ha
    rcases hq.procs.comes p' hmem with ⟨p, hpmem, hf⟩ | ⟨hfalse, _⟩
    · exact hf.reader (h.aborted p hpmem (hf.aborted ▸ ha))
    · exact absurd (hfalse.symm.trans ha) (by decide)
  readers := by
    intro r hr
    have hold : Handled s r := by
      rcases hr with ht | ⟨p', hmem, ch, hst⟩
      · exact .inl (hq.tasks ▸ ht)
      · obtain ⟨p, hpmem, hpst⟩ := hq.procs.installed_of_mem hmem hst
        exact .inr ⟨p, hpmem, ch, hpst⟩
    obtain ⟨p, hget, hreader⟩ := h.readers r hold
    obtain ⟨p', hget', hf⟩ := hq.procs.keeps r p hget
    exact ⟨p', hget', hf.reader hreader⟩
  ordered := by
    intro p' hmem hst
    rw [hq.cleared]
    rcases hq.procs.comes p' hmem with ⟨p, hpmem, hf⟩ | ⟨_, _, hne⟩
    · exact (hf.ordered hst).elim id (h.ordered p hpmem)
    · exact absurd hst hne
  silent := by
    intro hr
    obtain ⟨hc, hsilent⟩ := h.silent (hq.returned ▸ hr)
    refine ⟨hq.cleared.trans hc, fun c' hmem => ?_⟩
    obtain ⟨ch, hget⟩ := List.mem_iff_getElem?.mp hmem
    obtain ⟨c, hget', hw, ha⟩ := hq.writers ch c' hget
    exact (hsilent c (List.mem_of_getElem? hget')).congr hw ha
  unhanded := hq.handedAfter.trans h.unhanded

/-- Quiet steps may change the state behind the lock and one task. -/
theorem quiet_setProc {s : RelayClient} {i : ℕ} {p p' : Proc} {conn : ConnState} {hasPeers : Bool}
    (hget : s.procs[i]? = some p) (hf : Follows s.cleared p p')
    (hconn : conn.wsTx = s.conn.wsTx ∨ conn.wsTx = none) :
    Quiet s ({ s with conn, hasPeers }.setProc i p') where
  wsTx := hconn
  cleared := rfl
  returned := rfl
  handedAfter := rfl
  tasks := rfl
  writers := fun _ c h => ⟨c, h, rfl, rfl⟩
  procs := ProcsKept.set hget hf

/-- Quiet steps may start a task. -/
theorem Quiet.concat {s s' : RelayClient} {p : Proc} (h : Quiet s s') (ha : p.aborted = false)
    (hi : p.stage.isInstalled = false) (hd : p.stage ≠ .disposeCleared) :
    Quiet s { s' with procs := s'.procs ++ [p] } where
  wsTx := h.wsTx
  cleared := h.cleared
  returned := h.returned
  handedAfter := h.handedAfter
  tasks := h.tasks
  writers := h.writers
  procs := h.procs.concat ha hi hd

/-- Quiet steps may start a task at a stage. -/
theorem Quiet.spawn {s s' : RelayClient} {stage : Stage} (h : Quiet s s')
    (hi : stage.isInstalled = false) (hd : stage ≠ .disposeCleared) : Quiet s (s'.spawn stage) :=
  h.concat rfl hi hd

/-- Nothing happened. -/
theorem Quiet.refl (s : RelayClient) : Quiet s s :=
  ⟨.inl rfl, rfl, rfl, rfl, rfl, fun _ c h => ⟨c, h, rfl, rfl⟩, ProcsKept.refl s.procs⟩

/-- Sending is quiet. -/
theorem quiet_sendStep {s : RelayClient} {i : ℕ} {p : Proc} (hget : s.procs[i]? = some p)
    (msg : Outgoing) (todo : List Action) : Quiet s (s.sendStep i p msg todo) := by
  have hf : ∀ todo clone, Follows s.cleared p { p with todo, clone } :=
    fun _ _ => ⟨rfl, id, .inl rfl, .inr⟩
  unfold RelayClient.sendStep
  split
  · split
    · exact quiet_setProc hget (hf _ _) (.inl rfl)
    · exact quiet_setProc hget (hf _ _) (.inl rfl)
  · rename_i ch _
    refine ⟨.inl rfl, rfl, rfl, rfl, rfl, fun ch' c' hc' => ?_, ProcsKept.set hget (hf _ _)⟩
    have hget' : ((s.channels.modify ch fun c => c.trySend msg))[ch']? = some c' := hc'
    rw [List.getElem?_modify] at hget'
    obtain ⟨c, hc, rfl⟩ := Option.map_eq_some_iff.mp hget'
    refine ⟨c, hc, ?_⟩
    split
    · unfold Channel.trySend
      split <;> exact ⟨rfl, rfl⟩
    · exact ⟨rfl, rfl⟩

/-- Actions before a stage are quiet. -/
theorem quiet_perform {s : RelayClient} {i : ℕ} {p : Proc} (hget : s.procs[i]? = some p)
    (action : Action) (todo : List Action) : Quiet s (s.perform i p action todo) := by
  have hf : ∀ todo, Follows s.cleared p { p with todo } := fun _ => ⟨rfl, id, .inl rfl, .inr⟩
  have hconn : (s.conn.after action).wsTx = s.conn.wsTx ∨ (s.conn.after action).wsTx = none := by
    cases action <;> first | exact .inl rfl | exact .inr rfl
  have hnext : Quiet s ({ s with
      conn := s.conn.after action
      hasPeers := s.hasPeers || action == Action.insertPeer }.setProc i
        { p with todo := s.conn.followUps s.hasPeers action ++ todo }) :=
    quiet_setProc hget (hf _) hconn
  unfold RelayClient.perform
  cases action with
  | send msg => exact quiet_sendStep hget msg todo
  | startPing => exact hnext.spawn rfl (by decide)
  | _ => exact hnext

end Quiet

section Special

variable {s : RelayClient}

/-- The abort of a clean-up leaves stages alone. -/
theorem getElem?_drain_procs (s : RelayClient) (i : ℕ) : s.drain.procs[i]? =
    s.procs[i]?.map fun p => if Handle.reader i ∈ s.tasks then { p with aborted := true } else p :=
  List.getElem?_mapIdx

/-- The abort of a clean-up reaches the registered writers. -/
theorem getElem?_drain_channels (s : RelayClient) (ch : ℕ) : s.drain.channels[ch]? =
    s.channels[ch]?.map fun c => if Handle.writer ch ∈ s.tasks then { c with aborted := true } else c :=
  List.getElem?_mapIdx

/-- A task after the abort was at the same stage before. -/
theorem exists_of_mem_drain {p' : Proc} (h : p' ∈ s.drain.procs) :
    ∃ i p, s.procs[i]? = some p ∧ p'.stage = p.stage ∧
      (p'.aborted = true → p.aborted = true ∨ Handle.reader i ∈ s.tasks) := by
  obtain ⟨i, hget⟩ := List.mem_iff_getElem?.mp h
  rw [getElem?_drain_procs] at hget
  obtain ⟨p, hp, rfl⟩ := Option.map_eq_some_iff.mp hget
  refine ⟨i, p, hp, ?_⟩
  split
  · rename_i hmem
    exact ⟨rfl, fun _ => .inr hmem⟩
  · exact ⟨rfl, .inl⟩

/-- A task before the abort is at the same stage after. -/
theorem exists_drain_of_getElem? {i : ℕ} {p : Proc} (h : s.procs[i]? = some p) :
    ∃ p', s.drain.procs[i]? = some p' ∧ p'.stage = p.stage := by
  rw [getElem?_drain_procs, h]
  refine ⟨_, rfl, ?_⟩
  dsimp only
  split <;> rfl

/-- An aborted writer is silent, unless it is in the middle of a poll. -/
theorem silent_or_polling {c : Channel} (h : c.aborted = true) :
    c.Silent ∨ c.writer = .polling ∧ c.aborted = true := by
  cases hw : c.writer with
  | idle => exact .inl (.inr ⟨hw, h⟩)
  | polling => exact .inr ⟨rfl, h⟩
  | ended => exact .inl (.inl hw)

/-- Silence survives an abort. -/
theorem Channel.Silent.abort {c : Channel} (h : c.Silent) : ({ c with aborted := true }).Silent :=
  h.imp id fun h => ⟨h.1, rfl⟩

/-- The abort of a clean-up keeps a client watched. -/
theorem Watched.drain (h : Watched s) : Watched s.drain where
  emptied := h.emptied
  covered := by
    intro ch c' hc'
    rw [getElem?_drain_channels] at hc'
    obtain ⟨c, hc, rfl⟩ := Option.map_eq_some_iff.mp hc'
    split
    · rcases silent_or_polling (c := { c with aborted := true }) rfl with hs | hp
      · exact .inl hs
      · exact .inr (.inr (.inl hp))
    · rename_i hnot
      rcases h.covered ch c hc with hs | ht | hp | ⟨p, hmem, reader, hst⟩
      · exact .inl hs
      · exact absurd ht hnot
      · exact .inr (.inr (.inl hp))
      · obtain ⟨i, hget⟩ := List.mem_iff_getElem?.mp hmem
        obtain ⟨p', hget', hst'⟩ := exists_drain_of_getElem? hget
        exact .inr (.inr (.inr ⟨p', List.mem_of_getElem? hget', reader, hst'.trans hst⟩))
  aborted := by
    intro p' hmem ha
    obtain ⟨i, p, hget, hst, hab⟩ := exists_of_mem_drain hmem
    rw [hst]
    rcases hab ha with hp | ht
    · exact h.aborted p (List.mem_of_getElem? hget) hp
    · obtain ⟨q, hq, hreader⟩ := h.readers i (.inl ht)
      obtain rfl : p = q := Option.some.inj (hget.symm.trans hq)
      exact hreader
  readers := by
    intro r hr
    have hold : Handled s r := by
      rcases hr with ht | ⟨p', hmem, ch, hst⟩
      · exact absurd ht List.not_mem_nil
      · obtain ⟨i, p, hget, hst', _⟩ := exists_of_mem_drain hmem
        exact .inr ⟨p, List.mem_of_getElem? hget, ch, hst'.symm.trans hst⟩
    obtain ⟨p, hget, hreader⟩ := h.readers r hold
    obtain ⟨p', hget', hst⟩ := exists_drain_of_getElem? hget
    exact ⟨p', hget', by rw [hst, hreader]⟩
  ordered := by
    intro p' hmem hst
    obtain ⟨i, p, hget, hst', _⟩ := exists_of_mem_drain hmem
    exact h.ordered p (List.mem_of_getElem? hget) (hst'.symm.trans hst)
  silent := by
    intro hr
    obtain ⟨hc, hsilent⟩ := h.silent hr
    refine ⟨hc, fun c' hmem => ?_⟩
    obtain ⟨ch, hget⟩ := List.mem_iff_getElem?.mp hmem
    rw [getElem?_drain_channels] at hget
    obtain ⟨c, hget', rfl⟩ := Option.map_eq_some_iff.mp hget
    have hs := hsilent c (List.mem_of_getElem? hget')
    split
    · exact hs.abort
    · exact hs
  unhanded := h.unhanded

/-- The abort of a dispose leaves only silent channels, when nothing is on the
way to its registration and no writer is in the middle of a poll. -/
theorem Watched.silent_drain (h : Watched s) (hprocs : ∀ p ∈ s.procs, p.stage.isInstalled = false)
    (hchannels : ∀ c ∈ s.channels, c.writer ≠ .polling) : ∀ c ∈ s.drain.channels, c.Silent := by
  intro c' hmem
  obtain ⟨ch, hget⟩ := List.mem_iff_getElem?.mp hmem
  rw [getElem?_drain_channels] at hget
  obtain ⟨c, hget', rfl⟩ := Option.map_eq_some_iff.mp hget
  have hpoll := hchannels c (List.mem_of_getElem? hget')
  split
  · exact (silent_or_polling rfl).resolve_right fun hp => hpoll hp.1
  · rename_i hnot
    rcases h.covered ch c hget' with hs | ht | hp | ⟨p, hpmem, reader, hst⟩
    · exact hs
    · exact absurd ht hnot
    · exact absurd hp.1 hpoll
    · have hi := hprocs p hpmem
      rw [hst, Stage.isInstalled] at hi
      exact absurd hi (by decide)

/-- A dispose empties the state. -/
theorem Watched.clear (h : Watched s) {i : ℕ} {p : Proc} (hget : s.procs[i]? = some p)
    (hst : p.stage = .disposeFlagged) :
    Watched ({ s with conn := s.conn.cleanup, cleared := true }.setProc i
      { p with stage := .disposeCleared }) := by
  have hmid : Watched { s with conn := s.conn.cleanup, cleared := true } :=
    ⟨fun _ => rfl, h.covered, h.aborted, h.readers, fun _ _ _ => rfl,
      fun hr => ⟨rfl, (h.silent hr).2⟩, h.unhanded⟩
  refine hmid.quiet (quiet_setProc hget ⟨rfl, ?_, .inr ?_, fun _ => .inl rfl⟩ (.inl rfl))
  · intro hreader
    simp [hst, Stage.isReader] at hreader
  · rw [hst]
    exact ⟨rfl, rfl⟩

/-- One task goes on and another one starts: the others stay where they are. -/
theorem getElem?_set_concat {procs : List Proc} {i j : ℕ} {p p' q new : Proc}
    (hget : procs[i]? = some p) (hq : procs[j]? = some q) (hne : q.stage ≠ p.stage) :
    (procs.set i p' ++ [new])[j]? = some q := by
  have hji : i ≠ j := by
    rintro rfl
    exact hne (congrArg Proc.stage (Option.some.inj (hq.symm.trans hget)))
  rw [List.getElem?_append_left (by simpa using (List.getElem?_eq_some_iff.mp hq).1),
    List.getElem?_set_ne hji, hq]

/-- One task goes on and another one starts: nothing else is there. -/
theorem mem_set_concat {procs : List Proc} {i : ℕ} {p' q new : Proc}
    (hq : q ∈ procs.set i p' ++ [new]) : q ∈ procs ∨ q = p' ∨ q = new := by
  rcases List.mem_append.mp hq with hmem | hmem
  · exact (List.mem_or_eq_of_mem_set hmem).imp_right .inl
  · exact .inr (.inr (List.mem_singleton.mp hmem))

/-- A connect that comes in time installs its channel. -/
theorem Watched.install (h : Watched s) {i generation : ℕ} {p : Proc} (hget : s.procs[i]? = some p)
    (hst : p.stage = .rechecked generation) (hc : s.cleared = false) :
    Watched ((({ s with
        conn := s.conn.install s.channels.length
        channels := s.channels ++ [Channel.new] } : RelayClient).setProc i
      { p with stage := .installed s.channels.length s.procs.length }).spawn
        (.reading generation)) := by
  have hlt : i < s.procs.length := (List.getElem?_eq_some_iff.mp hget).1
  have hlive : p.aborted = false := by
    cases ha : p.aborted with
    | false => rfl
    | true =>
      have hreader := h.aborted p (List.mem_of_getElem? hget) ha
      simp [hst, Stage.isReader] at hreader
  refine ⟨fun hcl => ?_, ?_, ?_, ?_, ?_, fun hr => ?_, h.unhanded⟩
  · exact absurd (hc.symm.trans hcl) (by decide)
  · intro ch c hchan
    have hchan' : (s.channels ++ [Channel.new])[ch]? = some c := hchan
    rcases Nat.lt_or_ge ch s.channels.length with hlt' | hge
    · rw [List.getElem?_append_left hlt'] at hchan'
      rcases h.covered ch c hchan' with hs | ht | hp | ⟨q, hmem, reader, hq⟩
      · exact .inl hs
      · exact .inr (.inl ht)
      · exact .inr (.inr (.inl hp))
      · obtain ⟨j, hj⟩ := List.mem_iff_getElem?.mp hmem
        have hne : q.stage ≠ p.stage := by simp [hq, hst]
        exact .inr (.inr (.inr ⟨q, List.mem_of_getElem? (getElem?_set_concat hget hj hne), reader,
          hq⟩))
    · have hlen := (List.getElem?_eq_some_iff.mp hchan').1
      rw [List.length_append, List.length_singleton] at hlen
      obtain rfl : ch = s.channels.length := by omega
      refine .inr (.inr (.inr ⟨_, List.mem_append_left _ (List.mem_set hlt _), _, rfl⟩))
  · intro q hq ha
    rcases mem_set_concat hq with hmem | rfl | rfl
    · exact h.aborted q hmem ha
    · exact absurd (hlive.symm.trans ha) (by decide)
    · rfl
  · have hold : ∀ r, Handled s r → ∃ q, (s.procs.set i
        { p with stage := Stage.installed s.channels.length s.procs.length } ++
          [Proc.start (.reading generation)])[r]? = some q ∧ q.stage.isReader = true := by
      intro r hr
      obtain ⟨q, hq, hreader⟩ := h.readers r hr
      refine ⟨q, getElem?_set_concat hget hq ?_, hreader⟩
      rw [hst]
      rintro heq
      simp [heq, Stage.isReader] at hreader
    rintro r (ht | ⟨q, hq, ch, hqst⟩)
    · exact hold r (.inl ht)
    · rcases mem_set_concat hq with hmem | rfl | rfl
      · exact hold r (.inr ⟨q, hmem, ch, hqst⟩)
      · obtain ⟨-, rfl⟩ := Stage.installed.inj hqst
        refine ⟨Proc.start (.reading generation), ?_, rfl⟩
        have hlen : s.procs.length = (s.procs.set i
            { p with stage := Stage.installed s.channels.length s.procs.length }).length := by simp
        exact (congrArg _ hlen).trans List.getElem?_concat_length
      · simp [Proc.start] at hqst
  · intro q hq hcl
    rcases mem_set_concat hq with hmem | rfl | rfl
    · exact h.ordered q hmem hcl
    · exact absurd hcl (by simp)
    · exact absurd hcl (by simp [Proc.start])
  · exact absurd (hc.symm.trans (h.silent hr).1) (by decide)

/-- A connect registers its tasks. -/
theorem Watched.register (h : Watched s) {i ch reader : ℕ} {p : Proc}
    (hget : s.procs[i]? = some p) (hst : p.stage = .installed ch reader) :
    Watched ({ s with tasks := s.tasks ++ [Handle.writer ch, Handle.reader reader] }.setProc i
      { p with stage := .registered }) := by
  have hkept : ∀ (j : ℕ) q, s.procs[j]? = some q → q.stage ≠ p.stage →
      (s.procs.set i { p with stage := Stage.registered })[j]? = some q := by
    intro j q hq hne
    have hji : i ≠ j := by
      rintro rfl
      exact hne (congrArg Proc.stage (Option.some.inj (hq.symm.trans hget)))
    rw [List.getElem?_set_ne hji, hq]
  have hcases : ∀ q ∈ s.procs.set i { p with stage := Stage.registered },
      q ∈ s.procs ∨ q = { p with stage := .registered } :=
    fun q hq => List.mem_or_eq_of_mem_set hq
  refine ⟨h.emptied, ?_, ?_, ?_, ?_, h.silent, h.unhanded⟩
  · intro ch' c hc
    rcases h.covered ch' c hc with hs | ht | hp | ⟨q, hmem, reader', hq⟩
    · exact .inl hs
    · exact .inr (.inl (List.mem_append_left _ ht))
    · exact .inr (.inr (.inl hp))
    · rcases eq_or_ne q.stage p.stage with heq | hne
      · obtain ⟨rfl, -⟩ := Stage.installed.inj (hq.symm.trans (heq.trans hst))
        exact .inr (.inl (List.mem_append_right _ List.mem_cons_self))
      · obtain ⟨j, hj⟩ := List.mem_iff_getElem?.mp hmem
        have hj' := hkept j q hj hne
        exact .inr (.inr (.inr ⟨q, List.mem_of_getElem? hj', reader', hq⟩))
  · intro q hq ha
    rcases hcases q hq with hmem | rfl
    · exact h.aborted q hmem ha
    · have hreader := h.aborted p (List.mem_of_getElem? hget) ha
      simp [hst, Stage.isReader] at hreader
  · intro r hr
    have hold : Handled s r := by
      rcases hr with ht | ⟨q, hq, ch', hqst⟩
      · rcases List.mem_append.mp ht with hmem | hmem
        · exact .inl hmem
        · obtain rfl : r = reader := by simpa using hmem
          exact .inr ⟨p, List.mem_of_getElem? hget, ch, hst⟩
      · rcases hcases q hq with hmem | rfl
        · exact .inr ⟨q, hmem, ch', hqst⟩
        · simp at hqst
    obtain ⟨q, hq, hreader⟩ := h.readers r hold
    refine ⟨q, hkept r q hq ?_, hreader⟩
    rw [hst]
    rintro heq
    simp [heq, Stage.isReader] at hreader
  · intro q hq hcl
    rcases hcases q hq with hmem | rfl
    · exact h.ordered q hmem hcl
    · simp at hcl

end Special

section Writers

variable {s : RelayClient}

/-- What a writer may do to its channel: a silent one stays silent, and an
abort is not forgotten. -/
structure WriterStep (c c' : Channel) : Prop where
  silent : c.Silent → c'.Silent
  polling : c.writer = .polling ∧ c.aborted = true → c'.Silent ∨ c'.writer = .polling ∧ c'.aborted = true

/-- Steps of writers keep a client watched. -/
theorem Watched.modifyChannel (h : Watched s) (ch : ℕ) {f : Channel → Channel}
    (hf : ∀ c, s.channels[ch]? = some c → WriterStep c (f c)) : Watched (s.modifyChannel ch f) := by
  have hstep : ∀ (ch' : ℕ) c', (s.channels.modify ch f)[ch']? = some c' →
      ∃ c, s.channels[ch']? = some c ∧ WriterStep c c' := by
    intro ch' c' hc'
    rw [List.getElem?_modify] at hc'
    obtain ⟨c, hc, rfl⟩ := Option.map_eq_some_iff.mp hc'
    refine ⟨c, hc, ?_⟩
    split
    · rename_i heq
      exact hf c (heq ▸ hc)
    · exact ⟨id, .inr⟩
  refine ⟨h.emptied, ?_, h.aborted, h.readers, h.ordered, fun hr => ?_, h.unhanded⟩
  · intro ch' c' hc'
    obtain ⟨c, hc, hw⟩ := hstep ch' c' hc'
    rcases h.covered ch' c hc with hs | ht | hp | hinst
    · exact .inl (hw.silent hs)
    · exact .inr (.inl ht)
    · exact (hw.polling hp).imp id fun hp => .inr (.inl hp)
    · exact .inr (.inr (.inr hinst))
  · obtain ⟨hc, hsilent⟩ := h.silent hr
    refine ⟨hc, fun c' hmem => ?_⟩
    obtain ⟨ch', hget⟩ := List.mem_iff_getElem?.mp hmem
    obtain ⟨c, hc', hw⟩ := hstep ch' c' hget
    exact hw.silent (hsilent c (List.mem_of_getElem? hc'))

/-- A poll keeps a client watched. -/
theorem Watched.pollWriter (h : Watched s) (ch : ℕ) : Watched (s.pollWriter ch) := by
  refine h.modifyChannel ch fun c _ => ?_
  split
  · rename_i hidle
    refine ⟨fun hs => ?_, fun hp => absurd (hidle.symm.trans hp.1) (by decide)⟩
    have ha : c.aborted = true := by
      rcases hs with he | ⟨_, ha⟩
      · exact absurd (hidle.symm.trans he) (by decide)
      · exact ha
    rw [if_pos ha]
    exact .inl rfl
  · exact ⟨id, .inr⟩

/-- The end of a poll keeps a client watched. -/
theorem Watched.parkWriter (h : Watched s) (ch : ℕ) : Watched (s.parkWriter ch) := by
  refine h.modifyChannel ch fun c _ => ?_
  split
  · rename_i hpoll
    refine ⟨fun hs => ?_, fun hp => ?_⟩
    · rcases hs with he | ⟨hi, _⟩
      · exact absurd (hpoll.symm.trans he) (by decide)
      · exact absurd (hpoll.symm.trans hi) (by decide)
    · rw [if_pos (by rw [hp.2, Bool.true_or])]
      exact .inl (.inl rfl)
  · exact ⟨id, .inr⟩

/-- A writer in the middle of a poll is not silent. -/
theorem not_silent_of_polling {c : Channel} (h : c.writer = .polling) : ¬c.Silent := by
  rintro (he | ⟨hi, _⟩)
  · exact absurd (h.symm.trans he) (by decide)
  · exact absurd (h.symm.trans hi) (by decide)

/-- Messages are handed to a socket only before a dispose returned. -/
theorem Watched.handMessage (h : Watched s) (ch : ℕ) (accepts : Bool) :
    Watched (s.handMessage ch accepts) := by
  unfold RelayClient.handMessage
  split
  · rename_i msg queue aborted hget
    have hnot : s.returned = false := by
      cases hr : s.returned with
      | false => rfl
      | true =>
        have hs := (h.silent hr).2 _ (List.mem_of_getElem? hget)
        exact absurd hs (not_silent_of_polling rfl)
    split
    · have hw : Watched (s.modifyChannel ch fun _ => ⟨queue, .polling, aborted⟩) := by
        refine h.modifyChannel ch fun c hc => ?_
        obtain rfl := Option.some.inj (hget.symm.trans hc)
        exact ⟨fun hs => absurd hs (not_silent_of_polling rfl), fun hp => .inr hp⟩
      rw [hnot, if_neg Bool.false_ne_true]
      exact hw
    · exact h.modifyChannel ch fun _ _ => ⟨fun _ => .inl rfl, fun _ => .inl (.inl rfl)⟩
  · exact h

/-- An aborted task that stops keeps a client watched: it is a read loop. -/
theorem Watched.cancel (h : Watched s) (i : ℕ) : Watched (s.cancel i) := by
  cases hget : s.procs[i]? with
  | none =>
    have hsame : s.cancel i = s := by
      rw [RelayClient.cancel, List.modify_eq_set_getElem?, hget]
      rfl
    rw [hsame]
    exact h
  | some p =>
    have hset : s.cancel i = s.setProc i (if p.aborted = true then
        { p with stage := .finished, todo := [], clone := none } else p) := by
      rw [RelayClient.cancel, List.modify_eq_set_getElem?, hget]
      rfl
    rw [hset]
    refine h.quiet (quiet_setProc hget ?_ (.inl rfl))
    split
    · rename_i ha
      have hreader := h.aborted p (List.mem_of_getElem? hget) ha
      refine ⟨rfl, fun _ => rfl, .inr ⟨?_, rfl⟩, fun hd => by simp at hd⟩
      cases hst : p.stage <;> simp [hst, Stage.isReader, Stage.isInstalled] at hreader ⊢
    · exact Follows.refl p

end Writers

/-- The step condition: no connect installs its channel after a dispose has
emptied the state, and the abort of a dispose meets no channel on the way to
its registration and no writer in the middle of a poll. -/
def Timely (s : RelayClient) : ClientEvent → Prop
  | .run i _ => ∀ p ∈ s.procs[i]?, p.todo = [] →
    (p.stage.installs = true → s.cleared = false) ∧
    (p.stage = .disposeCleared → (∀ q ∈ s.procs, q.stage.isInstalled = false) ∧
      ∀ c ∈ s.channels, c.writer ≠ .polling)
  | _ => True

/-- The step condition can be computed. -/
instance Timely.decidable (s : RelayClient) : (e : ClientEvent) → Decidable (Timely s e)
  | .run i _ => inferInstanceAs (Decidable (∀ p ∈ s.procs[i]?, p.todo = [] →
    (p.stage.installs = true → s.cleared = false) ∧
    (p.stage = .disposeCleared → (∀ q ∈ s.procs, q.stage.isInstalled = false) ∧
      ∀ c ∈ s.channels, c.writer ≠ .polling)))
  | .connect | .dispose | .publish _ | .subscribe _ | .cancel _ | .pollWriter _ | .handMessage ..
  | .parkWriter _ => isTrue trivial

section Run

variable {s : RelayClient} {i : ℕ} {p : Proc}

/-- Stages between which a task goes on quietly. -/
def Stage.quietTo (stage stage' : Stage) : Bool :=
  !stage.isInstalled && !stage'.isInstalled && stage' != .disposeCleared &&
    (!stage.isReader || stage'.isReader)

/-- Quiet changes of the stage. -/
theorem quiet_goto {conn : ConnState} {hasPeers : Bool} {stage : Stage}
    (hget : s.procs[i]? = some p) (hst : p.stage = stage) (p' : Proc)
    (hq : stage.quietTo p'.stage = true) (ha : p'.aborted = p.aborted)
    (hconn : conn.wsTx = s.conn.wsTx ∨ conn.wsTx = none) :
    Quiet s ({ s with conn, hasPeers }.setProc i p') := by
  subst hst
  simp only [Stage.quietTo, Bool.and_eq_true, Bool.not_eq_true', bne_iff_ne, Bool.or_eq_true] at hq
  obtain ⟨⟨⟨hi, hi'⟩, hd⟩, hr⟩ := hq
  refine quiet_setProc hget ⟨ha, fun hreader => ?_, .inr ⟨hi, hi'⟩, fun h => absurd h hd⟩ hconn
  exact hr.resolve_left fun hfalse => absurd (hfalse.symm.trans hreader) (by decide)

/-- Stages whose steps are quiet. -/
def Stage.isQuiet : Stage → Bool
  | .connectCleared | .rechecked _ | .installed .. | .disposeFlagged | .disposeCleared => false
  | _ => true

/-- Most stages of a task are quiet. -/
theorem quiet_advance (hget : s.procs[i]? = some p) (env : Env) (hq : p.stage.isQuiet = true) :
    Quiet s (s.advance i p env) := by
  unfold RelayClient.advance
  cases hst : p.stage with
  | connectStart | connectKeyed | reconnectStart | pingStart =>
    exact quiet_goto hget hst _ (by dsimp only; split <;> rfl) rfl (.inl rfl)
  | dialed generation | sleeping generation =>
    exact quiet_goto hget hst _ (by dsimp only; split <;> rfl) rfl (.inl rfl)
  | connectChecked => exact quiet_goto hget hst _ rfl rfl (.inr rfl)
  | connectDrained | registered | disposeStart | reconnectChecked | pingArmed =>
    exact quiet_goto hget hst _ rfl rfl (.inl rfl)
  | resuming token => exact quiet_goto hget hst _ rfl rfl (.inl rfl)
  | reading generation => exact quiet_goto hget hst _ rfl rfl (.inl rfl)
  | dialing generation =>
    dsimp only
    split
    · exact quiet_goto hget hst _ rfl rfl (.inl rfl)
    · exact Quiet.spawn (quiet_goto hget hst _ rfl rfl (.inl rfl)) rfl (by decide)
  | opened =>
    dsimp only
    split
    · exact quiet_goto hget hst _ rfl rfl (.inl rfl)
    · exact quiet_goto hget hst _ rfl rfl (.inl rfl)
  | received generation msg =>
    dsimp only
    split
    · exact quiet_goto hget hst _ rfl rfl (.inl rfl)
    · cases msg with
      | some msg => exact quiet_goto hget hst _ rfl rfl (.inl rfl)
      | none => exact quiet_goto hget hst _ rfl rfl (.inl rfl)
  | closing generation =>
    dsimp only
    split
    · exact quiet_goto hget hst _ rfl rfl (.inl rfl)
    · exact Quiet.spawn (quiet_goto hget hst _ rfl rfl (.inl rfl)) rfl (by decide)
  | pinging generation =>
    dsimp only
    split
    · exact quiet_goto hget hst _ rfl rfl (.inl rfl)
    · exact quiet_goto hget hst _ rfl rfl (.inl rfl)
  | finished => exact Quiet.refl s
  | connectCleared | rechecked _ | installed _ _ | disposeFlagged | disposeCleared =>
    simp [hst, Stage.isQuiet] at hq

/-- A stage that comes in time keeps a client watched. -/
theorem Watched.advance (h : Watched s) (hget : s.procs[i]? = some p) (env : Env)
    (htodo : p.todo = []) (ht : Timely s (.run i env)) : Watched (s.advance i p env) := by
  obtain ⟨hinstall, hdispose⟩ := ht p hget htodo
  cases hq : p.stage.isQuiet with
  | true => exact h.quiet (quiet_advance hget env hq)
  | false =>
    cases hst : p.stage with
    | connectCleared =>
      have hgoto : Quiet s (s.setProc i { p with stage := .connectDrained }) :=
        quiet_goto hget hst _ rfl rfl (.inl rfl)
      simpa only [RelayClient.advance, hst] using (h.quiet hgoto).drain
    | rechecked generation =>
      have hc := hinstall (by rw [hst]; rfl)
      simpa only [RelayClient.advance, hst] using h.install hget hst hc
    | installed ch reader =>
      simpa only [RelayClient.advance, hst] using h.register hget hst
    | disposeFlagged =>
      simpa only [RelayClient.advance, hst] using h.clear hget hst
    | disposeCleared =>
      have hgoto : Quiet s (s.setProc i { p with stage := .finished }) :=
        quiet_goto hget hst _ rfl rfl (.inl rfl)
      obtain ⟨hprocs, hchannels⟩ := hdispose hst
      have hdrain := (h.quiet hgoto).drain
      have hsilent := (h.quiet hgoto).silent_drain (by
        intro q hq
        rcases List.mem_or_eq_of_mem_set hq with hmem | rfl
        · exact hprocs q hmem
        · rfl) hchannels
      have hcl : s.cleared = true := h.ordered p (List.mem_of_getElem? hget) hst
      simpa only [RelayClient.advance, hst] using (⟨hdrain.emptied, hdrain.covered, hdrain.aborted,
        hdrain.readers, hdrain.ordered, fun _ => ⟨hcl, hsilent⟩, hdrain.unhanded⟩ :
        Watched { (s.setProc i { p with stage := .finished }).drain with returned := true })
    | _ => simp [hst, Stage.isQuiet] at hq

/-- Steps that come in time keep a client watched. -/
theorem Watched.clientStep (h : Watched s) {e : ClientEvent} (ht : Timely s e) :
    Watched (clientStep s e) := by
  cases e with
  | connect => exact h.quiet ((Quiet.refl s).spawn rfl (by decide))
  | dispose => exact h.quiet ((Quiet.refl s).spawn rfl (by decide))
  | publish ct => exact h.quiet ((Quiet.refl s).concat rfl rfl nofun)
  | subscribe sid =>
    have hq : Quiet s { s with conn := { s.conn with
        subscribedSessions := s.conn.subscribedSessions.insert sid } } :=
      ⟨.inl rfl, rfl, rfl, rfl, rfl, fun _ c h => ⟨c, h, rfl, rfl⟩, ProcsKept.refl s.procs⟩
    exact h.quiet (hq.concat rfl rfl nofun)
  | run i env =>
    rw [RelayConnection.clientStep, RelayClient.run]
    cases hget : s.procs[i]? with
    | none => exact h
    | some p =>
      cases htodo : p.todo with
      | nil =>
        simp only [htodo]
        exact h.advance hget env htodo ht
      | cons action todo =>
        simp only [htodo]
        exact h.quiet (quiet_perform hget action todo)
  | cancel i => exact h.cancel i
  | pollWriter ch => exact h.pollWriter ch
  | handMessage ch accepts => exact h.handMessage ch accepts
  | parkWriter ch => exact h.parkWriter ch

end Run

/-- In every run in which connects and disposes come in time, a dispose that
returned is final: no sender is installed and nothing is handed to a socket
any more. -/
theorem dispose_final {events : List ClientEvent}
    (hm : Meets clientStep Timely RelayClient.new events) :
    ∀ before, before <+: events →
      (runFrom clientStep RelayClient.new before).returned = true →
      (runFrom clientStep RelayClient.new before).conn.wsTx = none ∧
        (runFrom clientStep RelayClient.new before).handedAfter = [] := by
  intro before hp hr
  have hw : Watched (runFrom clientStep RelayClient.new before) :=
    runFrom_induction_of_meets (fun s e h ht => h.clientStep ht) watched_new
      (meets_of_isPrefix hp hm)
  exact ⟨hw.emptied (hw.silent hr).1, hw.unhanded⟩

/-- A world in which dials succeed and nothing is delivered. -/
def openWorld : Env := ⟨true, none, 0⟩

/-- A connect up to its second look at the disposed flag. -/
def connectToRecheck : List ClientEvent := .connect :: List.replicate 7 (.run 0 openWorld)

/-- The rest of that connect, up to the message it sends, and the writer. -/
def connectFromRecheck : List ClientEvent :=
  List.replicate 6 (.run 0 openWorld) ++ [.pollWriter 0, .handMessage 0 true]

/-- A connected client whose writer has ended its poll is disposed. -/
def connectThenDispose : List ClientEvent :=
  connectToRecheck ++ connectFromRecheck ++
    .parkWriter 0 :: .dispose :: List.replicate 3 (.run 2 openWorld)

/-- A client is disposed while its connect is between the second look and the
install. -/
def disposeInConnect : List ClientEvent :=
  connectToRecheck ++ .dispose :: List.replicate 3 (.run 1 openWorld)

/-- The dispose of a connected client is final. -/
theorem dispose_final_connected :
    (runFrom clientStep RelayClient.new connectThenDispose).returned = true ∧
    (runFrom clientStep RelayClient.new connectThenDispose).conn.wsTx = none ∧
    (runFrom clientStep RelayClient.new connectThenDispose).handedAfter = [] := by
  have hr : (runFrom clientStep RelayClient.new connectThenDispose).returned = true := by
    decide +kernel
  have hm : Meets clientStep Timely RelayClient.new connectThenDispose := by decide +kernel
  exact ⟨hr, dispose_final hm _ List.prefix_rfl hr⟩

/-- A dispose that overtakes a connect has returned, and the connect then
installs a sender and registers with the relay. -/
theorem dispose_overtakes_connect :
    (runFrom clientStep RelayClient.new disposeInConnect).returned = true ∧
    (runFrom clientStep RelayClient.new (disposeInConnect ++ connectFromRecheck)).conn.wsTx =
      some 0 ∧
    (runFrom clientStep RelayClient.new (disposeInConnect ++ connectFromRecheck)).handedAfter =
      [.register] := by
  decide +kernel

end Teleprompter.RelayConnection
