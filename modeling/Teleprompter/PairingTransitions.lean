import Teleprompter.PairingRuntime
import Teleprompter.SpawnedTasks

/-!
# What a step of the pairing tasks can do

Every step of a begin is one of a dozen, and every event spawns tasks, moves a
begin or moves a cancel. In every run the pairing in the slot is fresh and was
begun by a task, one task at a time holds the orchestrator and finds the slot
free, and every begin has a client of its own.
-/

namespace Teleprompter.PairingTransitions

open FiniteDictionary SpawnedTasks PairingCrypto RelayServer KeyExchange PairingOrchestrator
  PairingRuntime

variable {KeyPair : Type}

/-- What a begin can do in one step, when the pairing in the slot is fresh. -/
inductive Advance (s : Runtime KeyPair) (cli : CliId) :
    PairStage KeyPair → Runtime KeyPair → PairStage KeyPair → Prop where
  | idle (stage : PairStage KeyPair) : Advance s cli stage s stage
  | refuse (orch : Orchestrator KeyPair) (err : BeginPairingError)
      (pending : orch.pending = s.orch.pending) (joinSignal : orch.joinSignal = s.orch.joinSignal)
      (next : orch.next = s.orch.next) :
      Advance s cli .queued ({ s with orch := orch }.send cli none (.beginErr err)) .refused
  | create (pp : PendingPairing KeyPair) (daemonIds : Dict ClientId String)
      (unlocked : s.locked = false) (free : s.orch.pending = none) (fresh : pp.Fresh s.orch.next) :
      Advance s cli .queued
        { s with
          orch := { s.orch with next := s.orch.next + 1 }
          daemonIds := daemonIds
          beganBy := s.beganBy.insert s.orch.next cli }
        (.connecting s.orch.next pp)
  | fill (client : ClientId) (pp : PendingPairing KeyPair) (info : BeginOutcome)
      (fresh : pp.Fresh client) :
      Advance s cli (.connecting client pp)
        { s with orch := { s.orch with pending := some pp, joinSignal := some client } }
        (.begun client info)
  | record (client : ClientId) (info : BeginOutcome) :
      Advance s cli (.begun client info)
        ({ s with owner := some cli }.send cli (some client) (.beginOk info))
        (.watching client info)
  | lose (client : ClientId) (info : BeginOutcome) (free : s.orch.pending = none) :
      Advance s cli (.watching client info) s (.gone client info)
  | promote (client slot : ClientId) (info : BeginOutcome) (label : Label)
      (orch : Orchestrator KeyPair) (saveError : Option String)
      (before : slotClient s.orch = some slot) (pending : orch.pending = none)
      (next : orch.next = s.orch.next) :
      Advance s cli (.watching client info)
        { s with
          orch := orch
          outcomes := s.outcomes.insert slot
            (if saveError.isNone then .promoted else .unsaved)
          lastSaveError := saveError.or s.lastSaveError }
        (.promoted client info label)
  | tellCancelled (client : ClientId) (info : BeginOutcome) :
      Advance s cli (.gone client info)
        ((s.clearOwnerIf cli).send cli (some client) (.cancelled info.pairingId))
        (.finished client info (.cancelled info.pairingId))
  | tellCompleted (client : ClientId) (info : BeginOutcome) (label : Label)
      (saved : s.lastSaveError = none) :
      Advance s cli (.promoted client info label)
        ((s.clearOwnerIf cli).send cli (some client)
          (.completed info.pairingId info.daemonId label))
        (.finished client info (.completed info.pairingId info.daemonId label))
  | fail (client : ClientId) (info : BeginOutcome) (label : Label) (message : String)
      (unsaved : s.lastSaveError = some message) :
      Advance s cli (.promoted client info label)
        { s.clearOwnerIf cli with lastSaveError := none } (.removing client info message)
  | remove (client : ClientId) (info : BeginOutcome) (message : String)
      (orch : Orchestrator KeyPair) (pending : orch.pending = s.orch.pending)
      (joinSignal : orch.joinSignal = s.orch.joinSignal) (next : orch.next = s.orch.next) :
      Advance s cli (.removing client info message) { s with orch := orch }
        (.clearing client info message)
  | tellError (client : ClientId) (info : BeginOutcome) (message : String)
      (orch : Orchestrator KeyPair) (outcomes : Dict ClientId Outcome)
      (pending : orch.pending = none) (next : orch.next = s.orch.next)
      (kept : s.orch.pending = none → outcomes = s.outcomes) :
      Advance s cli (.clearing client info message)
        ({ s with orch := orch, outcomes := outcomes }.send cli (some client)
          (.error info.pairingId message))
        (.finished client info (.error info.pairingId message))

/-- The pairing in the slot is fresh, and the slot waits for its client. -/
def FreshSlot (orch : Orchestrator KeyPair) : Prop :=
  ∀ pp ∈ orch.pending, ∃ client, pp.Fresh client ∧ orch.joinSignal = some client

/-- The client of a fresh pairing in the slot. -/
theorem slotClient_of_fresh {orch : Orchestrator KeyPair} {pp : PendingPairing KeyPair}
    {client : ClientId} (hpending : orch.pending = some pp) (hfresh : pp.Fresh client) :
    slotClient orch = some client := by
  rw [slotClient, hpending, Option.bind_some, hfresh.relay]

/-- An empty slot has no client. -/
theorem slotClient_of_free {orch : Orchestrator KeyPair} (h : orch.pending = none) :
    slotClient orch = none := by
  rw [slotClient, h, Option.bind_none]

/-- A poll of an empty slot. -/
theorem poll_free {s : Runtime KeyPair} (h : s.orch.pending = none) (client : ClientId)
    (info : BeginOutcome) (saveError : Option String) :
    s.poll client info saveError = (s, .gone client info) := by
  have hwait : s.orch.waitForJoin = s.orch := by
    unfold Orchestrator.waitForJoin
    split
    · rw [h, Option.map_none, ← h]
    · rfl
  have hresolved : s.orch.resolved = none := by rw [Orchestrator.resolved, h, Option.bind_none]
  unfold Runtime.poll
  rw [hwait]
  dsimp only
  rw [hresolved, h]
  rfl

/-- A poll sees an empty slot, a pairing that still waits, or promotes it. -/
theorem advance_poll {s : Runtime KeyPair} (cli client : CliId) (hslot : FreshSlot s.orch)
    (info : BeginOutcome) (saveError : Option String) :
    Advance s cli (.watching client info) (s.poll client info saveError).1
      (s.poll client info saveError).2 := by
  cases hpending : s.orch.pending with
  | none =>
    rw [poll_free hpending]
    exact .lose client info hpending
  | some pp =>
    obtain ⟨slot, hfresh, hsignal⟩ := hslot pp hpending
    cases hjoin : s.orch.joins.lookup slot with
    | none =>
      have hwait : s.orch.waitForJoin = s.orch := by
        rw [Orchestrator.waitForJoin, hsignal, Option.bind_some, hjoin]
      have hresolved : s.orch.resolved = none := by
        rw [Orchestrator.resolved, hpending, Option.bind_some, hfresh.unresolved]
      have hpoll : s.poll client info saveError = (s, .watching client info) := by
        unfold Runtime.poll
        rw [hwait]
        dsimp only
        rw [hresolved, hpending]
        rfl
      rw [hpoll]
      exact .idle _
    | some frontendId =>
      obtain ⟨completed, hcompleted, -⟩ := hfresh.completed_markCompleted frontendId
      have hwait : s.orch.waitForJoin =
          { s.orch with pending := some (pp.markCompleted frontendId) } := by
        simp only [Orchestrator.waitForJoin, hsignal, Option.bind_some, hjoin, hpending,
          Option.map_some]
      have hpoll : s.poll client info saveError =
          ({ s.setOrch (s.orch.waitForJoin.promote completed saveError.isNone)
              (if saveError.isNone then .promoted else .unsaved) with
              lastSaveError := saveError.or s.lastSaveError },
            .promoted client info completed.label) := by
        unfold Runtime.poll
        have hresolved : s.orch.waitForJoin.resolved = some (.completed completed) := by
          rw [hwait, Orchestrator.resolved, Option.bind_some, hcompleted]
        dsimp only
        rw [hresolved]
      have hbefore := slotClient_of_fresh hpending hfresh
      have hvacant : (s.orch.waitForJoin.promote completed saveError.isNone).pending = none := rfl
      have hnext : (s.orch.waitForJoin.promote completed saveError.isNone).next = s.orch.next := by
        rw [hwait]
        unfold Orchestrator.promote Orchestrator.register Orchestrator.vacate
        cases saveError.isNone <;> rfl
      rw [hpoll, Runtime.setOrch, hbefore, hvacant]
      exact .promote client slot info completed.label _ saveError hbefore hvacant hnext

/-- Every step of a begin is one of these. -/
theorem advance_advancePairing (deriveRegistrationProof : Bytes → String) {s : Runtime KeyPair}
    (hslot : FreshSlot s.orch) (cli : CliId) (request : BeginRequest) (draws : Draws KeyPair)
    (stage : PairStage KeyPair)
    (hconnecting : ∀ client pp, stage = .connecting client pp → pp.Fresh client) :
    Advance s cli stage (s.advancePairing deriveRegistrationProof cli request draws stage).1
      (s.advancePairing deriveRegistrationProof cli request draws stage).2 := by
  cases stage with
  | queued =>
    rw [Runtime.advancePairing]
    by_cases hlocked : s.locked = true
    · rw [if_pos hlocked]
      exact .idle _
    · rw [if_neg hlocked]
      rcases beginCreate_cases deriveRegistrationProof s.orch request draws.begin with
        ⟨err, heq, -⟩ | ⟨hfree, failed, message, hnothing, heq⟩ | ⟨hfree, pp, hfresh, heq⟩
      · rw [heq]
        exact .refuse _ err rfl rfl rfl
      · rw [heq]
        exact .refuse _ _ rfl rfl rfl
      · rw [heq]
        exact .create pp _ (by simpa using hlocked) hfree hfresh
  | connecting client pp =>
    have hfresh := hconnecting client pp rfl
    rw [Runtime.advancePairing, beginConnected_fresh _ hfresh]
    exact .fill client pp _ hfresh
  | begun client info => exact .record client info
  | watching client info =>
    rw [Runtime.advancePairing]
    split
    · exact .idle _
    · exact advance_poll cli client hslot info draws.saveError
  | gone client info => exact .tellCancelled client info
  | promoted client info label =>
    rw [Runtime.advancePairing]
    split
    · rename_i hsaved
      exact .tellCompleted client info label hsaved
    · rename_i message hunsaved
      exact .fail client info label message hunsaved
  | removing client info message => exact .remove client info message _ rfl rfl rfl
  | clearing client info message =>
    rw [Runtime.advancePairing]
    split
    · exact .idle _
    · have hvacant : s.orch.clearPending.pending = none := by
        unfold Orchestrator.clearPending
        split <;> rfl
      have hnext : s.orch.clearPending.next = s.orch.next := by
        unfold Orchestrator.clearPending
        split <;> rfl
      refine .tellError client info message s.orch.clearPending _ hvacant hnext ?_
      intro hfree
      rw [slotClient, hfree]
      rfl
  | finished client info frame => exact .idle _
  | refused => exact .idle _

/-- A cancel leaves everything as it is, or takes a fresh pairing it names out
of the slot. -/
theorem cancel_cases {orch : Orchestrator KeyPair} (hslot : FreshSlot orch)
    (pairingId : Option String) :
    (orch.cancel pairingId = orch ∧ ∀ pp ∈ orch.pending, ∃ pid ∈ pairingId, pp.pairingId ≠ pid) ∨
      ∃ pp client, orch.pending = some pp ∧ pp.Fresh client ∧
        (∀ pid ∈ pairingId, pp.pairingId = pid) ∧ (orch.cancel pairingId).pending = none ∧
          (orch.cancel pairingId).next = orch.next := by
  cases hpending : orch.pending with
  | none =>
    refine Or.inl ⟨?_, fun pp hpp => by contradiction⟩
    rw [Orchestrator.cancel, hpending]
  | some pp =>
    obtain ⟨client, hfresh, -⟩ := hslot pp hpending
    have hcompleted := hfresh.sound.completed_eq_false.mpr hfresh.unresolved
    by_cases hnamed : ∃ pid ∈ pairingId, pp.pairingId ≠ pid
    · refine Or.inl ⟨?_, fun other hother => Option.some.inj hother ▸ hnamed⟩
      rw [Orchestrator.cancel, hpending]
      dsimp only
      rw [if_pos hnamed]
    · right
      refine ⟨pp, client, rfl, hfresh, fun pid hpid => ?_, ?_⟩
      · by_contra hne
        exact hnamed ⟨pid, hpid, hne⟩
      · rw [Orchestrator.cancel, hpending]
        dsimp only
        rw [if_neg hnamed, hcompleted, if_neg Bool.false_ne_true]
        exact ⟨rfl, rfl⟩

/-- A cancel waits, does nothing, or takes the fresh pairing it names out of
the slot. -/
theorem advanceTask_cancelling (deriveRegistrationProof : Bytes → String) {s : Runtime KeyPair}
    (hslot : FreshSlot s.orch) (draws : Draws KeyPair) (cli : CliId) (pairingId : Option String) :
    let next := s.advanceTask deriveRegistrationProof draws (.cancelling cli pairingId)
    next = (s, .cancelling cli pairingId) ∨
      (next = (s, .done) ∧ ∀ pp ∈ s.orch.pending, ∃ pid ∈ pairingId, pp.pairingId ≠ pid) ∨
      ∃ pp client orch, s.orch.pending = some pp ∧ pp.Fresh client ∧
        (∀ pid ∈ pairingId, pp.pairingId = pid) ∧ orch.pending = none ∧
          orch.next = s.orch.next ∧
          next = ({ s with orch := orch, outcomes := s.outcomes.insert client .cancelled }, .done) := by
  rw [Runtime.advanceTask]
  dsimp only
  by_cases hlocked : s.locked = true
  · rw [if_pos hlocked]
    exact Or.inl rfl
  · rw [if_neg hlocked]
    rcases cancel_cases hslot pairingId with
      ⟨hsame, hother⟩ | ⟨pp, client, hpending, hfresh, hid, hvacant, hnext⟩
    · refine Or.inr (Or.inl ⟨?_, hother⟩)
      rw [hsame, Runtime.setOrch, slotClient]
      cases hpending : s.orch.pending with
      | none => rfl
      | some pp =>
        obtain ⟨client, hfresh, -⟩ := hslot pp hpending
        rw [Option.bind_some, hfresh.relay]
        rfl
    · refine Or.inr (Or.inr ⟨pp, client, _, hpending, hfresh, hid, hvacant, hnext, ?_⟩)
      rw [Runtime.setOrch, slotClient_of_fresh hpending hfresh]
      dsimp only
      rw [hvacant, Option.isNone_none, if_pos rfl]

/-- The begin at a place, its connection and its stage. -/
def BeginAt (s : Runtime KeyPair) (i : ℕ) (cli : CliId) (stage : PairStage KeyPair) : Prop :=
  ∃ request, s.tasks[i]? = some (.pairing cli request stage)

/-- What holds in every run: the pairing in the slot is fresh and was begun by a
task, one task at a time holds the lock and finds the slot free, and every
begin has its own client. -/
structure Consistent (s : Runtime KeyPair) : Prop where
  slot : FreshSlot s.orch
  lock : ∀ {i j cli cli' client client' pp pp'},
    BeginAt s i cli (.connecting client pp) → BeginAt s j cli' (.connecting client' pp') → i = j
  held : ∀ {i cli client pp}, BeginAt s i cli (.connecting client pp) →
    pp.Fresh client ∧ s.orch.pending = none
  began : ∀ {i cli stage client}, BeginAt s i cli stage → stage.client = some client →
    client < s.orch.next ∧ s.beganBy.lookup client = some cli
  distinct : ∀ {i j cli cli' stage stage' client}, BeginAt s i cli stage →
    stage.client = some client → BeginAt s j cli' stage' → stage'.client = some client → i = j
  placed : ∀ {client}, slotClient s.orch = some client →
    ∃ i cli stage, BeginAt s i cli stage ∧ stage.client = some client

/-- There is one begin at a place. -/
theorem beginAt_unique {s : Runtime KeyPair} {i : ℕ} {cli cli' : CliId}
    {stage stage' : PairStage KeyPair} (h : BeginAt s i cli stage) (h' : BeginAt s i cli' stage') :
    cli = cli' ∧ stage = stage' := by
  obtain ⟨request, hi⟩ := h
  obtain ⟨request', hi'⟩ := h'
  rw [hi, Option.some.injEq] at hi'
  obtain ⟨hcli, -, hstage⟩ := RuntimeTask.pairing.inj hi'
  exact ⟨hcli, hstage⟩

/-- A begin after one of them went on. -/
theorem beginAt_set {s s' : Runtime KeyPair} {i : ℕ} {task : RuntimeTask KeyPair}
    (htasks : s'.tasks = s.tasks.set i task) {j : ℕ} {cli : CliId} {stage : PairStage KeyPair}
    (h : BeginAt s' j cli stage) :
    (j = i ∧ ∃ request, task = .pairing cli request stage) ∨ (j ≠ i ∧ BeginAt s j cli stage) := by
  obtain ⟨request, hj⟩ := h
  rw [htasks] at hj
  rcases getElem?_set_eq_some hj with ⟨rfl, heq⟩ | ⟨hne, hold⟩
  · exact Or.inl ⟨rfl, request, heq.symm⟩
  · exact Or.inr ⟨hne, request, hold⟩

/-- A begin after a begin went on. -/
theorem beginAt_set_pairing {s s' : Runtime KeyPair} {i : ℕ} {cli : CliId} {request : BeginRequest}
    {stage : PairStage KeyPair} (htasks : s'.tasks = s.tasks.set i (.pairing cli request stage))
    {j : ℕ} {cli' : CliId} {stage' : PairStage KeyPair} (h : BeginAt s' j cli' stage') :
    (j = i ∧ cli' = cli ∧ stage' = stage) ∨ (j ≠ i ∧ BeginAt s j cli' stage') := by
  rcases beginAt_set htasks h with ⟨rfl, request', heq⟩ | hold
  · obtain ⟨rfl, -, rfl⟩ := RuntimeTask.pairing.inj heq
    exact Or.inl ⟨rfl, rfl, rfl⟩
  · exact Or.inr hold

/-- Other begins stay where they are. -/
theorem beginAt_set_of_ne {s s' : Runtime KeyPair} {i : ℕ} {task : RuntimeTask KeyPair}
    (htasks : s'.tasks = s.tasks.set i task) {j : ℕ} {cli : CliId} {stage : PairStage KeyPair}
    (hne : j ≠ i) (h : BeginAt s j cli stage) : BeginAt s' j cli stage := by
  obtain ⟨request, hj⟩ := h
  refine ⟨request, ?_⟩
  rw [htasks, List.getElem?_set_ne (Ne.symm hne)]
  exact hj

/-- The begin that went on is at its new stage. -/
theorem beginAt_set_self {s s' : Runtime KeyPair} {i : ℕ} {cli : CliId} {request : BeginRequest}
    {stage stage' : PairStage KeyPair} (hi : s.tasks[i]? = some (.pairing cli request stage))
    (htasks : s'.tasks = s.tasks.set i (.pairing cli request stage')) : BeginAt s' i cli stage' := by
  refine ⟨request, ?_⟩
  rw [htasks, List.getElem?_set_self (List.getElem?_eq_some_iff.mp hi).1]

/-- A cancel that goes on leaves the begins as they are. -/
theorem beginAt_cancel {s s' : Runtime KeyPair} {i : ℕ} {cli : CliId} {pairingId : Option String}
    (hi : s.tasks[i]? = some (.cancelling cli pairingId)) (htasks : s'.tasks = s.tasks.set i .done)
    {j : ℕ} {cli' : CliId} {stage : PairStage KeyPair} :
    BeginAt s' j cli' stage ↔ BeginAt s j cli' stage := by
  constructor
  · intro hj
    rcases beginAt_set htasks hj with ⟨-, request, heq⟩ | ⟨-, hold⟩
    · contradiction
    · exact hold
  · intro hj
    refine beginAt_set_of_ne htasks ?_ hj
    rintro rfl
    obtain ⟨request, hj⟩ := hj
    rw [hi, Option.some.injEq] at hj
    contradiction

/-- How a task may be replaced: a begin keeps its connection and its client, and
does not take the lock. -/
structure Replaces (task task' : RuntimeTask KeyPair) : Prop where
  back : ∀ {cli request stage'}, task' = .pairing cli request stage' →
    stage'.isConnecting = false ∧ ∃ stage, task = .pairing cli request stage ∧
      stage.client = stage'.client
  forth : ∀ {cli request stage}, task = .pairing cli request stage →
    ∃ stage', task' = .pairing cli request stage' ∧ stage.client = stage'.client

/-- A begin that keeps its client. -/
theorem replaces_pairing {cli : CliId} {request : BeginRequest} {stage stage' : PairStage KeyPair}
    (hclient : stage.client = stage'.client) (hconnecting : stage'.isConnecting = false) :
    Replaces (.pairing cli request stage) (.pairing cli request stage') where
  back := by
    rintro _ _ _ ⟨⟩
    exact ⟨hconnecting, stage, rfl, hclient⟩
  forth := by
    rintro _ _ _ ⟨⟩
    exact ⟨stage', rfl, hclient⟩

/-- A cancel that goes on. -/
theorem replaces_cancelling (cli : CliId) (pairingId : Option String) :
    Replaces (.cancelling cli pairingId : RuntimeTask KeyPair) .done where
  back := by
    intro _ _ _ heq
    contradiction
  forth := by
    intro _ _ _ heq
    contradiction

/-- A step that keeps clients, and leaves the slot as it is or empties it, keeps
everything consistent. -/
theorem Consistent.keep {s s' : Runtime KeyPair} (h : Consistent s) {i : ℕ}
    {task task' : RuntimeTask KeyPair} (hi : s.tasks[i]? = some task)
    (htasks : s'.tasks = s.tasks.set i task') (hreplaces : Replaces task task')
    (hslot : (s'.orch.pending = s.orch.pending ∧ s'.orch.joinSignal = s.orch.joinSignal) ∨
      s'.orch.pending = none)
    (hnext : s'.orch.next = s.orch.next) (hbegan : s'.beganBy = s.beganBy) : Consistent s' := by
  have hback : ∀ {j cli stage}, BeginAt s' j cli stage →
      ∃ stage₀, BeginAt s j cli stage₀ ∧ stage₀.client = stage.client ∧
        (stage.isConnecting = true → stage₀ = stage) := by
    intro j cli stage hj
    rcases beginAt_set htasks hj with ⟨rfl, request, rfl⟩ | ⟨-, hold⟩
    · obtain ⟨hconnecting, stage₀, rfl, hclient⟩ := hreplaces.back rfl
      refine ⟨stage₀, ⟨request, hi⟩, hclient, fun hc => ?_⟩
      rw [hc] at hconnecting
      contradiction
    · exact ⟨stage, hold, rfl, fun _ => rfl⟩
  refine ⟨?_, ?_, ?_, ?_, ?_, ?_⟩
  · rcases hslot with ⟨hpending, hsignal⟩ | hvacant
    · rw [FreshSlot, hpending, hsignal]
      exact h.slot
    · rw [FreshSlot, hvacant]
      intro pp hpp
      contradiction
  · intro j k cli cli' client client' pp pp' hj hk
    obtain ⟨stage, hj', -, hsame⟩ := hback hj
    obtain ⟨stage', hk', -, hsame'⟩ := hback hk
    rw [hsame rfl] at hj'
    rw [hsame' rfl] at hk'
    exact h.lock hj' hk'
  · intro j cli client pp hj
    obtain ⟨stage, hj', -, hsame⟩ := hback hj
    rw [hsame rfl] at hj'
    obtain ⟨hfresh, hfree⟩ := h.held hj'
    refine ⟨hfresh, ?_⟩
    rcases hslot with ⟨hpending, -⟩ | hvacant
    · rw [hpending, hfree]
    · exact hvacant
  · intro j cli stage client hj hclient
    obtain ⟨stage₀, hj', hsame, -⟩ := hback hj
    rw [hnext, hbegan]
    exact h.began hj' (hsame.trans hclient)
  · intro j k cli cli' stage stage' client hj hclient hk hclient'
    obtain ⟨stage₀, hj', hsame, -⟩ := hback hj
    obtain ⟨stage₁, hk', hsame', -⟩ := hback hk
    exact h.distinct hj' (hsame.trans hclient) hk' (hsame'.trans hclient')
  · intro client hclient
    rcases hslot with ⟨hpending, -⟩ | hvacant
    · have hold : slotClient s.orch = some client := by
        rw [slotClient, ← hpending]
        exact hclient
      obtain ⟨j, cli, stage, hj, hstage⟩ := h.placed hold
      by_cases hji : j = i
      · obtain ⟨request, hj⟩ := hj
        rw [hji, hi, Option.some.injEq] at hj
        obtain ⟨stage', rfl, hsame⟩ := hreplaces.forth hj
        refine ⟨i, cli, stage', ⟨request, ?_⟩, hsame ▸ hstage⟩
        rw [htasks, List.getElem?_set_self (List.getElem?_eq_some_iff.mp hi).1]
      · exact ⟨j, cli, stage, beginAt_set_of_ne htasks hji hj, hstage⟩
    · rw [slotClient_of_free hvacant] at hclient
      contradiction

/-- A begin that takes the lock creates its own client. -/
theorem Consistent.create {s s' : Runtime KeyPair} (h : Consistent s) {i : ℕ} {cli : CliId}
    {request : BeginRequest} {pp : PendingPairing KeyPair}
    (hi : s.tasks[i]? = some (.pairing cli request .queued)) (hunlocked : s.locked = false)
    (hfree : s.orch.pending = none) (hfresh : pp.Fresh s.orch.next)
    (horch : s'.orch = { s.orch with next := s.orch.next + 1 })
    (hbegan : s'.beganBy = s.beganBy.insert s.orch.next cli)
    (htasks : s'.tasks = s.tasks.set i (.pairing cli request (.connecting s.orch.next pp))) :
    Consistent s' := by
  have hpending : s'.orch.pending = none := by rw [horch]; exact hfree
  have hnone : ∀ {j cli client pp}, ¬BeginAt s j cli (.connecting client pp) := by
    rintro j cli client pp ⟨request, hj⟩
    have hlocked : s.locked = true :=
      List.any_eq_true.mpr ⟨_, List.mem_of_getElem? hj, rfl⟩
    rw [hunlocked] at hlocked
    contradiction
  refine ⟨?_, ?_, ?_, ?_, ?_, ?_⟩
  · intro other hother
    rw [hpending] at hother
    contradiction
  · intro j k cli₁ cli₂ client client' pp₁ pp₂ hj hk
    rcases beginAt_set_pairing htasks hj with ⟨rfl, -, -⟩ | ⟨-, hold⟩
    · rcases beginAt_set_pairing htasks hk with ⟨rfl, -, -⟩ | ⟨-, hold⟩
      · rfl
      · exact absurd hold hnone
    · exact absurd hold hnone
  · intro j cli' client pp' hj
    rcases beginAt_set_pairing htasks hj with ⟨-, -, heq⟩ | ⟨-, hold⟩
    · obtain ⟨rfl, rfl⟩ := PairStage.connecting.inj heq
      exact ⟨hfresh, hpending⟩
    · exact absurd hold hnone
  · intro j cli' stage client hj hclient
    rw [horch, hbegan, lookup_insert_eq]
    rcases beginAt_set_pairing htasks hj with ⟨-, rfl, rfl⟩ | ⟨-, hold⟩
    · obtain rfl := Option.some.inj hclient
      exact ⟨Nat.lt_succ_self _, if_pos rfl⟩
    · obtain ⟨hlt, hlookup⟩ := h.began hold hclient
      exact ⟨Nat.lt_succ_of_lt hlt, (if_neg (Nat.ne_of_lt hlt)).trans hlookup⟩
  · intro j k cli₁ cli₂ stage stage' client hj hclient hk hclient'
    rcases beginAt_set_pairing htasks hj with ⟨rfl, -, rfl⟩ | ⟨-, hold⟩
    · rcases beginAt_set_pairing htasks hk with ⟨rfl, -, -⟩ | ⟨-, hold'⟩
      · rfl
      · obtain rfl := Option.some.inj hclient
        exact absurd (h.began hold' hclient').1 (Nat.lt_irrefl _)
    · rcases beginAt_set_pairing htasks hk with ⟨-, -, rfl⟩ | ⟨-, hold'⟩
      · obtain rfl := Option.some.inj hclient'
        exact absurd (h.began hold hclient).1 (Nat.lt_irrefl _)
      · exact h.distinct hold hclient hold' hclient'
  · intro client hclient
    rw [slotClient_of_free hpending] at hclient
    contradiction

/-- A begin that gives the lock back leaves its fresh pairing in the slot. -/
theorem Consistent.fill {s s' : Runtime KeyPair} (h : Consistent s) {i : ℕ} {cli : CliId}
    {request : BeginRequest} {client : ClientId} {pp : PendingPairing KeyPair}
    {info : BeginOutcome}
    (hi : s.tasks[i]? = some (.pairing cli request (.connecting client pp)))
    (horch : s'.orch = { s.orch with pending := some pp, joinSignal := some client })
    (hbegan : s'.beganBy = s.beganBy)
    (htasks : s'.tasks = s.tasks.set i (.pairing cli request (.begun client info))) :
    Consistent s' := by
  have hat : BeginAt s i cli (.connecting client pp) := ⟨request, hi⟩
  have hfresh := (h.held hat).1
  have hnone : ∀ {j cli' client' pp'}, ¬BeginAt s' j cli' (.connecting client' pp') := by
    intro j cli' client' pp' hj
    rcases beginAt_set_pairing htasks hj with ⟨-, -, heq⟩ | ⟨hne, hold⟩
    · contradiction
    · exact hne (h.lock hold hat)
  refine ⟨?_, fun hj _ => absurd hj hnone, fun hj => absurd hj hnone, ?_, ?_, ?_⟩
  · rw [FreshSlot, horch]
    intro other hother
    obtain rfl := Option.some.inj hother
    exact ⟨client, hfresh, rfl⟩
  · intro j cli' stage client' hj hclient
    rw [horch, hbegan]
    rcases beginAt_set_pairing htasks hj with ⟨-, rfl, rfl⟩ | ⟨-, hold⟩
    · exact h.began hat hclient
    · exact h.began hold hclient
  · intro j k cli₁ cli₂ stage stage' client' hj hclient hk hclient'
    rcases beginAt_set_pairing htasks hj with ⟨rfl, -, rfl⟩ | ⟨-, hold⟩
    · rcases beginAt_set_pairing htasks hk with ⟨rfl, -, -⟩ | ⟨-, hold'⟩
      · rfl
      · exact h.distinct hat hclient hold' hclient'
    · rcases beginAt_set_pairing htasks hk with ⟨rfl, -, rfl⟩ | ⟨-, hold'⟩
      · exact h.distinct hold hclient hat hclient'
      · exact h.distinct hold hclient hold' hclient'
  · intro client' hclient
    rw [horch, slotClient, Option.bind_some, hfresh.relay] at hclient
    obtain rfl := Option.some.inj hclient
    exact ⟨i, cli, _, beginAt_set_self hi htasks, rfl⟩

/-- A begin after tasks were spawned was there, or waits for the lock. -/
theorem beginAt_append {s s' : Runtime KeyPair} {new : List (RuntimeTask KeyPair)}
    (htasks : s'.tasks = s.tasks ++ new)
    (hnew : ∀ cli request stage, .pairing cli request stage ∈ new → stage = .queued)
    {j : ℕ} {cli : CliId} {stage : PairStage KeyPair} (h : BeginAt s' j cli stage) :
    BeginAt s j cli stage ∨ stage = .queued := by
  obtain ⟨request, hj⟩ := h
  rw [htasks] at hj
  rcases Nat.lt_or_ge j s.tasks.length with hlt | hge
  · rw [List.getElem?_append_left hlt] at hj
    exact Or.inl ⟨request, hj⟩
  · rw [List.getElem?_append_right hge] at hj
    exact Or.inr (hnew cli request stage (List.mem_of_getElem? hj))

/-- Begins stay where they are when tasks are spawned. -/
theorem beginAt_append_left {s s' : Runtime KeyPair} {new : List (RuntimeTask KeyPair)}
    (htasks : s'.tasks = s.tasks ++ new) {j : ℕ} {cli : CliId} {stage : PairStage KeyPair}
    (h : BeginAt s j cli stage) : BeginAt s' j cli stage := by
  obtain ⟨request, hj⟩ := h
  refine ⟨request, ?_⟩
  rw [htasks, List.getElem?_append_left (List.getElem?_eq_some_iff.mp hj).1]
  exact hj

/-- Requests, disconnects and joins keep everything consistent. -/
theorem Consistent.extend {s s' : Runtime KeyPair} (h : Consistent s)
    {new : List (RuntimeTask KeyPair)} (htasks : s'.tasks = s.tasks ++ new)
    (hnew : ∀ cli request stage, .pairing cli request stage ∈ new → stage = .queued)
    (hpending : s'.orch.pending = s.orch.pending)
    (hsignal : s'.orch.joinSignal = s.orch.joinSignal) (hnext : s'.orch.next = s.orch.next)
    (hbegan : s'.beganBy = s.beganBy) : Consistent s' := by
  have hold : ∀ {j cli stage client}, BeginAt s' j cli stage → stage.client = some client →
      BeginAt s j cli stage := by
    intro j cli stage client hj hclient
    rcases beginAt_append htasks hnew hj with hold | rfl
    · exact hold
    · contradiction
  refine ⟨?_, fun hj hk => h.lock (hold hj rfl) (hold hk rfl), fun hj => ?_, fun hj hclient => ?_,
    fun hj hclient hk hclient' =>
      h.distinct (hold hj hclient) hclient (hold hk hclient') hclient', fun hclient => ?_⟩
  · rw [FreshSlot, hpending, hsignal]
    exact h.slot
  · rw [hpending]
    exact h.held (hold hj rfl)
  · rw [hnext, hbegan]
    exact h.began (hold hj hclient) hclient
  · rw [slotClient, hpending] at hclient
    obtain ⟨j, cli, stage, hj, hstage⟩ := h.placed hclient
    exact ⟨j, cli, stage, beginAt_append_left htasks hj, hstage⟩

/-- Forgetting the owner changes nothing else. -/
theorem clearOwnerIf_eq (s : Runtime KeyPair) (cli : CliId) :
    s.clearOwnerIf cli = { s with owner := if s.owner = some cli then none else s.owner } := by
  unfold Runtime.clearOwnerIf
  split
  · rfl
  · rfl

/-- A task that stays as it is. -/
theorem replace_self {s : Runtime KeyPair} {i : ℕ} {task : RuntimeTask KeyPair}
    (hi : s.tasks[i]? = some task) : s.replace i task = s := by
  obtain ⟨hlt, hget⟩ := List.getElem?_eq_some_iff.mp hi
  rw [Runtime.replace, ← hget, List.set_getElem_self]

/-- A begin does not touch other tasks. -/
theorem Advance.tasks {s s' : Runtime KeyPair} {cli : CliId} {stage stage' : PairStage KeyPair}
    (h : Advance s cli stage s' stage') : s'.tasks = s.tasks := by
  cases h with
  | tellCancelled client info =>
    rw [clearOwnerIf_eq]
    rfl
  | tellCompleted client info label saved =>
    rw [clearOwnerIf_eq]
    rfl
  | fail client info label message unsaved =>
    rw [clearOwnerIf_eq]
  | _ => rfl

/-- The tasks after a begin went on. -/
theorem Advance.tasks_replace {s s' : Runtime KeyPair} {cli : CliId}
    {stage stage' : PairStage KeyPair} (h : Advance s cli stage s' stage') (i : ℕ)
    (task : RuntimeTask KeyPair) : (s'.replace i task).tasks = s.tasks.set i task := by
  rw [Runtime.replace, h.tasks]

/-- An event does nothing, spawns tasks without touching the pairings, moves a
begin, or moves a cancel. -/
inductive Happens (deriveRegistrationProof : Bytes → String) (s : Runtime KeyPair) :
    RuntimeEvent KeyPair → Prop where
  | nothing {e : RuntimeEvent KeyPair} (step : runtimeStep deriveRegistrationProof s e = s) :
      Happens deriveRegistrationProof s e
  | quiet {e : RuntimeEvent KeyPair} (request : ∀ i draws, e ≠ .advance i draws)
      (new : List (RuntimeTask KeyPair))
      (queued : ∀ cli request stage, .pairing cli request stage ∈ new → stage = .queued)
      (tasks : (runtimeStep deriveRegistrationProof s e).tasks = s.tasks ++ new)
      (pending : (runtimeStep deriveRegistrationProof s e).orch.pending = s.orch.pending)
      (joinSignal : (runtimeStep deriveRegistrationProof s e).orch.joinSignal =
        s.orch.joinSignal)
      (next : (runtimeStep deriveRegistrationProof s e).orch.next = s.orch.next)
      (lastSaveError : (runtimeStep deriveRegistrationProof s e).lastSaveError =
        s.lastSaveError)
      (sent : (runtimeStep deriveRegistrationProof s e).sent = s.sent)
      (beganBy : (runtimeStep deriveRegistrationProof s e).beganBy = s.beganBy)
      (outcomes : (runtimeStep deriveRegistrationProof s e).outcomes = s.outcomes) :
      Happens deriveRegistrationProof s e
  | begin (i : ℕ) (draws : Draws KeyPair) (cli : CliId) (request : BeginRequest)
      (stage stage' : PairStage KeyPair) (s' : Runtime KeyPair)
      (at_ : s.tasks[i]? = some (.pairing cli request stage))
      (advance : Advance s cli stage s' stage')
      (eq : s.advancePairing deriveRegistrationProof cli request draws stage = (s', stage'))
      (step : runtimeStep deriveRegistrationProof s (.advance i draws) =
        s'.replace i (.pairing cli request stage')) :
      Happens deriveRegistrationProof s (.advance i draws)
  | cancel (i : ℕ) (draws : Draws KeyPair) (cli : CliId) (pairingId : Option String)
      (pp : PendingPairing KeyPair) (client : ClientId) (orch : Orchestrator KeyPair)
      (at_ : s.tasks[i]? = some (.cancelling cli pairingId))
      (before : s.orch.pending = some pp) (fresh : pp.Fresh client)
      (named : ∀ pid ∈ pairingId, pp.pairingId = pid) (pending : orch.pending = none)
      (next : orch.next = s.orch.next)
      (step : runtimeStep deriveRegistrationProof s (.advance i draws) =
        ({ s with
          orch := orch
          outcomes := s.outcomes.insert client .cancelled } : Runtime KeyPair).replace i .done) :
      Happens deriveRegistrationProof s (.advance i draws)
  | cancelNothing (i : ℕ) (draws : Draws KeyPair) (cli : CliId) (pairingId : Option String)
      (at_ : s.tasks[i]? = some (.cancelling cli pairingId))
      (other : ∀ pp ∈ s.orch.pending, ∃ pid ∈ pairingId, pp.pairingId ≠ pid)
      (step : runtimeStep deriveRegistrationProof s (.advance i draws) = s.replace i .done) :
      Happens deriveRegistrationProof s (.advance i draws)

section Requests

variable {s : Runtime KeyPair} {cli : CliId}

/-- A begin request of an open connection. -/
theorem step_beginRequest (deriveRegistrationProof : Bytes → String) (hopen : cli ∈ s.clis)
    (request : BeginRequest) : runtimeStep deriveRegistrationProof s (.beginRequest cli request) =
      s.spawn (.pairing cli request .queued) :=
  if_pos hopen

/-- A cancel request that is accepted. -/
theorem step_cancelRequest (deriveRegistrationProof : Bytes → String)
    (hallowed : cli ∈ s.clis ∧ (s.owner = none ∨ s.owner = some cli)) (pairingId : String) :
    runtimeStep deriveRegistrationProof s (.cancelRequest cli pairingId) =
      s.spawn (.cancelling cli (some pairingId)) :=
  if_pos hallowed

/-- The owner disconnects. -/
theorem step_disconnect_owner (deriveRegistrationProof : Bytes → String) (hopen : cli ∈ s.clis)
    (howner : s.owner = some cli) : runtimeStep deriveRegistrationProof s (.disconnect cli) =
      ({ s with clis := s.clis.erase cli, owner := none } : Runtime KeyPair).spawn
        (.cancelling cli none) :=
  (if_pos hopen).trans (if_pos howner)

/-- Another connection disconnects. -/
theorem step_disconnect_other (deriveRegistrationProof : Bytes → String) (hopen : cli ∈ s.clis)
    (howner : s.owner ≠ some cli) : runtimeStep deriveRegistrationProof s (.disconnect cli) =
      { s with clis := s.clis.erase cli } :=
  (if_pos hopen).trans (if_neg howner)

end Requests

/-- Nothing that happens does anything else. -/
theorem happens (deriveRegistrationProof : Bytes → String) {s : Runtime KeyPair}
    (h : Consistent s) (e : RuntimeEvent KeyPair) : Happens deriveRegistrationProof s e := by
  cases e with
  | accept => exact .quiet (by simp) [] (by simp) (List.append_nil _).symm rfl rfl rfl rfl rfl rfl rfl
  | beginRequest cli request =>
    by_cases hopen : cli ∈ s.clis
    · have hstep := step_beginRequest deriveRegistrationProof hopen request
      refine .quiet (by simp) [.pairing cli request .queued] ?_ ?_ ?_ ?_ ?_ ?_ ?_ ?_ ?_
      · intro cli' request' stage hmem
        exact (RuntimeTask.pairing.inj (List.mem_singleton.mp hmem)).2.2
      all_goals rw [hstep]; rfl
    · exact .nothing (if_neg hopen)
  | cancelRequest cli pairingId =>
    by_cases hallowed : cli ∈ s.clis ∧ (s.owner = none ∨ s.owner = some cli)
    · have hstep := step_cancelRequest deriveRegistrationProof hallowed pairingId
      refine .quiet (by simp) [.cancelling cli (some pairingId)] (by simp) ?_ ?_ ?_ ?_ ?_ ?_ ?_ ?_
      all_goals rw [hstep]; rfl
    · exact .nothing (if_neg hallowed)
  | disconnect cli =>
    by_cases hopen : cli ∈ s.clis
    · by_cases howner : s.owner = some cli
      · have hstep := step_disconnect_owner deriveRegistrationProof hopen howner
        refine .quiet (by simp) [.cancelling cli none] (by simp) ?_ ?_ ?_ ?_ ?_ ?_ ?_ ?_
        all_goals rw [hstep]; rfl
      · have hstep := step_disconnect_other deriveRegistrationProof hopen howner
        refine .quiet (by simp) [] (by simp) ?_ ?_ ?_ ?_ ?_ ?_ ?_ ?_ <;> rw [hstep]
        exact (List.append_nil _).symm
    · exact .nothing (if_neg hopen)
  | join client frontendId =>
    have hrecord : (s.orch.record client frontendId).pending = s.orch.pending ∧
        (s.orch.record client frontendId).joinSignal = s.orch.joinSignal ∧
          (s.orch.record client frontendId).next = s.orch.next := by
      unfold Orchestrator.record
      split
      · exact ⟨rfl, rfl, rfl⟩
      · exact ⟨rfl, rfl, rfl⟩
    exact .quiet (by simp) [] (by simp) (List.append_nil _).symm hrecord.1 hrecord.2.1 hrecord.2.2 rfl
      rfl rfl rfl
  | advance i draws =>
    cases hi : s.tasks[i]? with
    | none =>
      refine .nothing ?_
      rw [runtimeStep, hi]
    | some task =>
      have hset := replace_self hi
      cases task with
      | pairing cli request stage =>
        have hadvance := advance_advancePairing deriveRegistrationProof h.slot cli request draws
          stage fun client pp heq => (h.held ⟨request, heq ▸ hi⟩).1
        refine .begin i draws cli request stage _ _ hi hadvance rfl ?_
        rw [runtimeStep, hi]
        rfl
      | cancelling cli pairingId =>
        have hstep : runtimeStep deriveRegistrationProof s (.advance i draws) =
            (s.advanceTask deriveRegistrationProof draws (.cancelling cli pairingId)).1.replace i
              (s.advanceTask deriveRegistrationProof draws (.cancelling cli pairingId)).2 := by
          rw [runtimeStep, hi]
          rfl
        rcases advanceTask_cancelling deriveRegistrationProof h.slot draws cli pairingId with
          heq | ⟨heq, hother⟩ | ⟨pp, client, orch, hpending, hfresh, hnamed, hvacant, hnext, heq⟩
        · refine .nothing ?_
          rw [hstep, heq]
          exact hset
        · exact .cancelNothing i draws cli pairingId hi hother (by rw [hstep, heq])
        · exact .cancel i draws cli pairingId pp client orch hi hpending hfresh hnamed hvacant hnext
            (by rw [hstep, heq])
      | done =>
        refine .nothing ?_
        rw [runtimeStep, hi]
        exact hset

/-- A begin that goes on keeps everything consistent. -/
theorem Consistent.advance {s s' : Runtime KeyPair} (h : Consistent s) {i : ℕ} {cli : CliId}
    {request : BeginRequest} {stage stage' : PairStage KeyPair}
    (hi : s.tasks[i]? = some (.pairing cli request stage)) (hadvance : Advance s cli stage s' stage') :
    Consistent (s'.replace i (.pairing cli request stage')) := by
  have htasks := hadvance.tasks_replace i (.pairing cli request stage')
  cases hadvance with
  | idle stage =>
    rw [replace_self hi]
    exact h
  | refuse orch err pending joinSignal next =>
    exact h.keep hi htasks (replaces_pairing rfl rfl) (Or.inl ⟨pending, joinSignal⟩) next rfl
  | create pp daemonIds unlocked free fresh =>
    exact h.create hi unlocked free fresh rfl rfl htasks
  | fill client pp info fresh => exact h.fill hi rfl rfl htasks
  | record client info =>
    exact h.keep hi htasks (replaces_pairing rfl rfl) (Or.inl ⟨rfl, rfl⟩) rfl rfl
  | lose client info free =>
    exact h.keep hi htasks (replaces_pairing rfl rfl) (Or.inl ⟨rfl, rfl⟩) rfl rfl
  | promote client slot info label orch saveError before pending next =>
    exact h.keep hi htasks (replaces_pairing rfl rfl) (Or.inr pending) next rfl
  | tellCancelled client info =>
    rw [clearOwnerIf_eq] at htasks ⊢
    exact h.keep hi htasks (replaces_pairing rfl rfl) (Or.inl ⟨rfl, rfl⟩) rfl rfl
  | tellCompleted client info label saved =>
    rw [clearOwnerIf_eq] at htasks ⊢
    exact h.keep hi htasks (replaces_pairing rfl rfl) (Or.inl ⟨rfl, rfl⟩) rfl rfl
  | fail client info label message unsaved =>
    rw [clearOwnerIf_eq] at htasks ⊢
    exact h.keep hi htasks (replaces_pairing rfl rfl) (Or.inl ⟨rfl, rfl⟩) rfl rfl
  | remove client info message orch pending joinSignal next =>
    exact h.keep hi htasks (replaces_pairing rfl rfl) (Or.inl ⟨pending, joinSignal⟩) next rfl
  | tellError client info message orch outcomes pending next kept =>
    exact h.keep hi htasks (replaces_pairing rfl rfl) (Or.inr pending) next rfl

/-- Every event keeps everything consistent. -/
theorem Consistent.step (deriveRegistrationProof : Bytes → String) {s : Runtime KeyPair}
    (h : Consistent s) (e : RuntimeEvent KeyPair) :
    Consistent (runtimeStep deriveRegistrationProof s e) := by
  cases happens deriveRegistrationProof h e with
  | nothing step =>
    rw [step]
    exact h
  | quiet request new queued tasks pending joinSignal next lastSaveError sent beganBy outcomes =>
    exact h.extend tasks queued pending joinSignal next beganBy
  | begin i draws cli request stage stage' s' at_ advance eq step =>
    rw [step]
    exact h.advance at_ advance
  | cancel i draws cli pairingId pp client orch at_ before fresh named pending next step =>
    rw [step]
    exact h.keep at_ rfl (replaces_cancelling cli pairingId) (Or.inr pending) next rfl
  | cancelNothing i draws cli pairingId at_ other step =>
    rw [step]
    exact h.keep at_ rfl (replaces_cancelling cli pairingId) (Or.inl ⟨rfl, rfl⟩) rfl rfl

/-- Nothing is inconsistent at first. -/
theorem consistent_initial : Consistent (.initial : Runtime KeyPair) := by
  have hnone : ∀ {i cli stage}, ¬BeginAt (.initial : Runtime KeyPair) i cli stage := by
    rintro i cli stage ⟨request, hi⟩
    exact absurd (List.mem_of_getElem? hi) List.not_mem_nil
  refine ⟨fun pp hpp => by contradiction, fun hi _ => absurd hi hnone, fun hi => absurd hi hnone,
    fun hi _ => absurd hi hnone, fun hi _ _ _ => absurd hi hnone, fun hclient => by contradiction⟩

end Teleprompter.PairingTransitions
