import Teleprompter.PairingTransitions
import Teleprompter.StepRuns

/-!
# Whose pairing is in the slot

The slot and its owner are behind different locks. A begin records its owner
some time after it has put its pairing into the slot, a cancel checks the owner
some time before it cancels, and a disconnect cancels whatever is in the slot
later. The owner is right as long as these gaps are not used by others.
-/

namespace Teleprompter.PairingOwnership

open FiniteDictionary SpawnedTasks StepRuns PairingCrypto RelayServer KeyExchange
  PairingOrchestrator PairingRuntime PairingTransitions

variable {KeyPair : Type}

/-- A task that has run to its end, or polls the slot. -/
def isIdle : RuntimeTask KeyPair → Bool
  | .pairing _ _ (.watching ..) => true
  | .pairing _ _ (.finished ..) => true
  | .pairing _ _ .refused => true
  | .pairing .. => false
  | .cancelling .. => false
  | .done => true

/-- All tasks have run, except those that poll. -/
def Idle (s : Runtime KeyPair) : Prop := ∀ task ∈ s.tasks, isIdle task = true

/-- A pairing in the slot is owned by the connection that began it, and that is
open. -/
def SlotOwned (s : Runtime KeyPair) : Prop :=
  ∀ client ∈ slotClient s.orch, ∃ cli, s.beganBy.lookup client = some cli ∧
    s.owner = some cli ∧ cli ∈ s.clis

/-- A cancel takes a pairing out of the slot only for the connection that began
it. -/
def CancelsOwn (deriveRegistrationProof : Bytes → String) (s : Runtime KeyPair) :
    RuntimeEvent KeyPair → Prop
  | .advance i draws => ∀ cli pairingId, s.tasks[i]? = some (.cancelling cli pairingId) →
      ∀ client, slotClient s.orch = some client →
        slotClient (runtimeStep deriveRegistrationProof s (.advance i draws)).orch ≠ some client →
          s.beganBy.lookup client = some cli
  | _ => True

/-- A cancel of another connection that would take the pairing. -/
def strangerCancels (cli : CliId) (pp : PendingPairing KeyPair) : RuntimeTask KeyPair → Prop
  | .cancelling cli' pairingId => cli' ≠ cli ∧ ∀ pid ∈ pairingId, pp.pairingId = pid
  | _ => False

/-- The pairing in the slot, if any, was begun by the connection. -/
def SlotBegunBy (s : Runtime KeyPair) (cli : CliId) : Prop :=
  ∀ client ∈ slotClient s.orch, s.beganBy.lookup client = some cli

/-- A task goes on while nobody else is in its gap. A pairing comes into the slot
when no cancel of another connection that would take it is waiting. An owner is
recorded while its connection is open and no other pairing is in the slot, and
forgotten while the slot holds no later pairing of the same connection. -/
def GapUnused (s : Runtime KeyPair) : RuntimeTask KeyPair → Prop
  | .pairing cli _ (.connecting _ pp) => ∀ task ∈ s.tasks, ¬strangerCancels cli pp task
  | .pairing cli _ (.begun client _) => ∀ slot ∈ slotClient s.orch, slot = client ∧ cli ∈ s.clis
  | .pairing cli _ (.gone ..) =>
    s.owner = some cli → ∀ slot ∈ slotClient s.orch, s.beganBy.lookup slot ≠ some cli
  | .pairing cli _ (.promoted ..) =>
    s.owner = some cli → ∀ slot ∈ slotClient s.orch, s.beganBy.lookup slot ≠ some cli
  | _ => True

/-- Nobody uses the gaps between the locks: tasks go on while nobody else is in
their gap, a cancel request that is accepted names no pairing of another
connection, and an owner disconnects while no other's pairing is in the slot. -/
def Undisturbed (s : Runtime KeyPair) : RuntimeEvent KeyPair → Prop
  | .advance i _ => ∀ task ∈ s.tasks[i]?, GapUnused s task
  | .cancelRequest cli pairingId =>
    cli ∈ s.clis ∧ (s.owner = none ∨ s.owner = some cli) →
      (∀ pp ∈ s.orch.pending, pp.pairingId = pairingId) → SlotBegunBy s cli
  | .disconnect cli => cli ∈ s.clis ∧ s.owner = some cli → SlotBegunBy s cli
  | _ => True

/-- Strangers' cancels are recognised. -/
instance strangerCancels.decidable (cli : CliId) (pp : PendingPairing KeyPair) :
    (task : RuntimeTask KeyPair) → Decidable (strangerCancels cli pp task)
  | .cancelling cli' pairingId =>
    inferInstanceAs (Decidable (cli' ≠ cli ∧ ∀ pid ∈ pairingId, pp.pairingId = pid))
  | .pairing .. => isFalse not_false
  | .done => isFalse not_false

/-- Whose pairing is in the slot can be checked. -/
instance SlotBegunBy.decidable (s : Runtime KeyPair) (cli : CliId) :
    Decidable (SlotBegunBy s cli) :=
  inferInstanceAs (Decidable (∀ client ∈ slotClient s.orch, s.beganBy.lookup client = some cli))

/-- Unused gaps are recognised. -/
instance GapUnused.decidable (s : Runtime KeyPair) :
    (task : RuntimeTask KeyPair) → Decidable (GapUnused s task)
  | .pairing cli _ (.connecting _ pp) =>
    inferInstanceAs (Decidable (∀ task ∈ s.tasks, ¬strangerCancels cli pp task))
  | .pairing cli _ (.begun client _) =>
    inferInstanceAs (Decidable (∀ slot ∈ slotClient s.orch, slot = client ∧ cli ∈ s.clis))
  | .pairing cli _ (.gone ..) =>
    inferInstanceAs (Decidable
      (s.owner = some cli → ∀ slot ∈ slotClient s.orch, s.beganBy.lookup slot ≠ some cli))
  | .pairing cli _ (.promoted ..) =>
    inferInstanceAs (Decidable
      (s.owner = some cli → ∀ slot ∈ slotClient s.orch, s.beganBy.lookup slot ≠ some cli))
  | .pairing _ _ .queued => isTrue trivial
  | .pairing _ _ (.watching ..) => isTrue trivial
  | .pairing _ _ (.removing ..) => isTrue trivial
  | .pairing _ _ (.clearing ..) => isTrue trivial
  | .pairing _ _ (.finished ..) => isTrue trivial
  | .pairing _ _ .refused => isTrue trivial
  | .cancelling .. => isTrue trivial
  | .done => isTrue trivial

/-- Undisturbed events are recognised. -/
instance Undisturbed.decidable (s : Runtime KeyPair) :
    (e : RuntimeEvent KeyPair) → Decidable (Undisturbed s e)
  | .advance i _ => inferInstanceAs (Decidable (∀ task ∈ s.tasks[i]?, GapUnused s task))
  | .cancelRequest cli pairingId =>
    inferInstanceAs (Decidable (cli ∈ s.clis ∧ (s.owner = none ∨ s.owner = some cli) →
      (∀ pp ∈ s.orch.pending, pp.pairingId = pairingId) → SlotBegunBy s cli))
  | .disconnect cli =>
    inferInstanceAs (Decidable (cli ∈ s.clis ∧ s.owner = some cli → SlotBegunBy s cli))
  | .accept => isTrue trivial
  | .beginRequest .. => isTrue trivial
  | .join .. => isTrue trivial

/-- Where the ownership of a pairing in the slot stands: it is about to be
recorded, it is recorded, or the owner has left and a cancel is on its way. -/
inductive Phase (s : Runtime KeyPair) (client : ClientId) (cli : CliId) : Prop where
  | unrecorded (i : ℕ) (info : BeginOutcome) (at_ : BeginAt s i cli (.begun client info))
  | recorded (owner : s.owner = some cli) (isOpen : cli ∈ s.clis)
  | left (k : ℕ) (cancel : s.tasks[k]? = some (.cancelling cli none))

/-- What is so while a pairing is in the slot. -/
structure SlotFacts (s : Runtime KeyPair) (pp : PendingPairing KeyPair) (client : ClientId)
    (cli : CliId) : Prop where
  phase : Phase s client cli
  /-- Cancels that would take it are its own. -/
  cancels : ∀ task ∈ s.tasks, ¬strangerCancels cli pp task

/-- Every pairing in the slot has an owner, will have one or is cancelled. -/
structure Owned (s : Runtime KeyPair) : Prop where
  consistent : Consistent s
  slot : ∀ {pp client cli}, s.orch.pending = some pp → pp.Fresh client →
    s.beganBy.lookup client = some cli → SlotFacts s pp client cli

/-- The pairing in the slot, its client and its connection. -/
theorem exists_of_slotClient {s : Runtime KeyPair} (h : Consistent s) {client : ClientId}
    (hclient : slotClient s.orch = some client) :
    ∃ pp cli, s.orch.pending = some pp ∧ pp.Fresh client ∧ s.beganBy.lookup client = some cli := by
  obtain ⟨pp, hpending, hrelay⟩ := Option.bind_eq_some_iff.mp hclient
  obtain ⟨client', hfresh, -⟩ := h.slot pp hpending
  obtain rfl : client' = client := Option.some.inj (hfresh.relay.symm.trans hrelay)
  obtain ⟨i, cli, stage, hat, hstage⟩ := h.placed hclient
  exact ⟨pp, cli, hpending, hfresh, (h.began hat hstage).2⟩

/-- Without pending tasks the owner is right. -/
theorem Owned.slotOwned {s : Runtime KeyPair} (h : Owned s) (hidle : Idle s) : SlotOwned s := by
  intro client hclient
  obtain ⟨pp, cli, hpending, hfresh, hbegan⟩ := exists_of_slotClient h.consistent hclient
  refine ⟨cli, hbegan, ?_⟩
  cases (h.slot hpending hfresh hbegan).phase with
  | unrecorded i info at_ =>
    obtain ⟨request, hi⟩ := at_
    have hbusy := hidle _ (List.mem_of_getElem? hi)
    contradiction
  | recorded owner isOpen => exact ⟨owner, isOpen⟩
  | left k cancel =>
    have hbusy := hidle _ (List.mem_of_getElem? cancel)
    contradiction

/-- A task that goes on and neither records the pairing nor is its cancel leaves
it owned, if it does not touch a recorded owner. -/
theorem SlotFacts.replace {s s' : Runtime KeyPair} {pp : PendingPairing KeyPair}
    {client : ClientId} {cli : CliId} (h : SlotFacts s pp client cli) {i : ℕ}
    {task task' : RuntimeTask KeyPair} (hi : s.tasks[i]? = some task)
    (htasks : s'.tasks = s.tasks.set i task')
    (hbegun : ∀ request info, task ≠ .pairing cli request (.begun client info))
    (hleft : task ≠ .cancelling cli none) (hnew : ¬strangerCancels cli pp task')
    (howner : s.owner = some cli → s'.owner = some cli) (hclis : s'.clis = s.clis) :
    SlotFacts s' pp client cli where
  phase := by
    cases h.phase with
    | unrecorded j info at_ =>
      refine .unrecorded j info (beginAt_set_of_ne htasks ?_ at_)
      rintro rfl
      obtain ⟨request, hj⟩ := at_
      rw [hi] at hj
      exact hbegun request info (Option.some.inj hj)
    | recorded owner isOpen =>
      refine .recorded (howner owner) ?_
      rw [hclis]
      exact isOpen
    | left k cancel =>
      refine .left k ?_
      have hne : i ≠ k := by
        rintro rfl
        rw [hi] at cancel
        exact hleft (Option.some.inj cancel)
      rw [htasks, List.getElem?_set_ne hne]
      exact cancel
  cancels := by
    intro other hother
    rw [htasks] at hother
    rcases List.mem_or_eq_of_mem_set hother with hold | rfl
    · exact h.cancels other hold
    · exact hnew

/-- Spawned tasks leave the pairing owned, if they are no strangers' cancels. -/
theorem SlotFacts.extend {s s' : Runtime KeyPair} {pp : PendingPairing KeyPair}
    {client : ClientId} {cli : CliId} (h : SlotFacts s pp client cli)
    {new : List (RuntimeTask KeyPair)} (htasks : s'.tasks = s.tasks ++ new)
    (hnew : ∀ task ∈ new, ¬strangerCancels cli pp task)
    (hrecorded : s.owner = some cli → cli ∈ s.clis → Phase s' client cli) :
    SlotFacts s' pp client cli where
  phase := by
    cases h.phase with
    | unrecorded j info at_ => exact .unrecorded j info (beginAt_append_left htasks at_)
    | recorded owner isOpen => exact hrecorded owner isOpen
    | left k cancel =>
      refine .left k ?_
      rw [htasks, List.getElem?_append_left (List.getElem?_eq_some_iff.mp cancel).1]
      exact cancel
  cancels := by
    intro other hother
    rw [htasks] at hother
    rcases List.mem_append.mp hother with hold | hnext
    · exact h.cancels other hold
    · exact hnew other hnext

/-- A task that goes on and forgets the owner, while the slot holds no pairing of
its connection, leaves the pairing owned. -/
theorem SlotFacts.forget {s s' : Runtime KeyPair} {pp : PendingPairing KeyPair}
    {client : ClientId} {cli : CliId} (h : SlotFacts s pp client cli)
    (hclient : slotClient s.orch = some client) (hbegan : s.beganBy.lookup client = some cli)
    {i : ℕ} {cli' : CliId} {request : BeginRequest} {stage stage' : PairStage KeyPair}
    (hi : s.tasks[i]? = some (.pairing cli' request stage))
    (htasks : s'.tasks = s.tasks.set i (.pairing cli' request stage'))
    (hbegun : ∀ info, stage ≠ .begun client info)
    (howner : s'.owner = if s.owner = some cli' then none else s.owner) (hclis : s'.clis = s.clis)
    (hcond : s.owner = some cli' → ∀ slot ∈ slotClient s.orch, s.beganBy.lookup slot ≠ some cli') :
    SlotFacts s' pp client cli := by
  refine h.replace hi htasks ?_ (by simp) not_false ?_ hclis
  · intro request' info heq
    exact hbegun info (RuntimeTask.pairing.inj heq).2.2
  · intro hrecorded
    have hne : s.owner ≠ some cli' := by
      intro heq
      have hsame : some cli = some cli' := hrecorded.symm.trans heq
      exact hcond heq client hclient (hbegan.trans hsame)
    rw [howner, if_neg hne]
    exact hrecorded

/-- A begin that goes on leaves the slot owned, if nobody uses the gaps. -/
theorem Owned.advance {s s' : Runtime KeyPair} (h : Owned s) {i : ℕ} {cli : CliId}
    {request : BeginRequest} {stage stage' : PairStage KeyPair}
    (hi : s.tasks[i]? = some (.pairing cli request stage)) (hadvance : Advance s cli stage s' stage')
    (hcond : GapUnused s (.pairing cli request stage)) :
    Owned (s'.replace i (.pairing cli request stage')) := by
  have hconsistent := h.consistent.advance hi hadvance
  have htasks := hadvance.tasks_replace i (.pairing cli request stage')
  refine ⟨hconsistent, fun {pp client cli'} hpending hfresh hbegan => ?_⟩
  cases hadvance with
  | idle stage =>
    rw [replace_self hi] at hpending hbegan ⊢
    exact h.slot hpending hfresh hbegan
  | refuse orch err pending joinSignal next =>
    exact (h.slot (pending.symm.trans hpending) hfresh hbegan).replace hi htasks (by simp) (by simp)
      not_false id rfl
  | create pp' daemonIds unlocked free fresh =>
    rw [show s.orch.pending = some pp from hpending] at free
    contradiction
  | fill client' pp' info fresh =>
    obtain rfl := Option.some.inj hpending
    obtain rfl : client' = client := Option.some.inj (fresh.relay.symm.trans hfresh.relay)
    have hown := (h.consistent.began ⟨request, hi⟩ rfl).2
    obtain rfl : cli = cli' := Option.some.inj (hown.symm.trans hbegan)
    refine ⟨.unrecorded i info (beginAt_set_self hi htasks), fun task htask => ?_⟩
    rw [htasks] at htask
    rcases List.mem_or_eq_of_mem_set htask with hold | rfl
    · exact hcond task hold
    · exact not_false
  | record client' info =>
    have hfacts := h.slot hpending hfresh hbegan
    obtain ⟨rfl, hopen⟩ := hcond client (slotClient_of_fresh hpending hfresh)
    have hown := (h.consistent.began ⟨request, hi⟩ rfl).2
    obtain rfl : cli = cli' := Option.some.inj (hown.symm.trans hbegan)
    refine ⟨.recorded rfl hopen, fun task htask => ?_⟩
    rw [htasks] at htask
    rcases List.mem_or_eq_of_mem_set htask with hold | rfl
    · exact hfacts.cancels task hold
    · exact not_false
  | lose client' info free =>
    rw [show s.orch.pending = some pp from hpending] at free
    contradiction
  | promote client' slot info label orch saveError before pending next =>
    rw [show orch.pending = some pp from hpending] at pending
    contradiction
  | tellCancelled client' info =>
    rw [clearOwnerIf_eq] at hpending hbegan htasks ⊢
    exact (h.slot hpending hfresh hbegan).forget (slotClient_of_fresh hpending hfresh) hbegan hi
      htasks (by simp) rfl rfl hcond
  | tellCompleted client' info label saved =>
    rw [clearOwnerIf_eq] at hpending hbegan htasks ⊢
    exact (h.slot hpending hfresh hbegan).forget (slotClient_of_fresh hpending hfresh) hbegan hi
      htasks (by simp) rfl rfl hcond
  | fail client' info label message unsaved =>
    rw [clearOwnerIf_eq] at hpending hbegan htasks ⊢
    exact (h.slot hpending hfresh hbegan).forget (slotClient_of_fresh hpending hfresh) hbegan hi
      htasks (by simp) rfl rfl hcond
  | remove client' info message orch pending joinSignal next =>
    exact (h.slot (pending.symm.trans hpending) hfresh hbegan).replace hi htasks (by simp) (by simp)
      not_false id rfl
  | tellError client' info message orch outcomes pending next kept =>
    rw [show orch.pending = some pp from hpending] at pending
    contradiction

/-- A request leaves the slot owned, if what it spawns is no stranger's cancel
and a recorded owner stays or leaves a cancel behind. -/
theorem Owned.extend {s s' : Runtime KeyPair} (h : Owned s) (hconsistent : Consistent s')
    {new : List (RuntimeTask KeyPair)} (htasks : s'.tasks = s.tasks ++ new)
    (hpending : s'.orch.pending = s.orch.pending) (hbegan : s'.beganBy = s.beganBy)
    (hnew : ∀ {pp client cli}, s.orch.pending = some pp → slotClient s.orch = some client →
      s.beganBy.lookup client = some cli → ∀ task ∈ new, ¬strangerCancels cli pp task)
    (hrecorded : ∀ {client cli}, s.owner = some cli → cli ∈ s.clis → Phase s' client cli) :
    Owned s' := by
  refine ⟨hconsistent, fun {pp client cli} hpp hfresh hlookup => ?_⟩
  rw [hpending] at hpp
  rw [hbegan] at hlookup
  have hclient := slotClient_of_fresh hpp hfresh
  exact (h.slot hpp hfresh hlookup).extend htasks (hnew hpp hclient hlookup) hrecorded

section Runs

variable (deriveRegistrationProof : Bytes → String)

/-- A cancel request leaves the slot owned, if it names no pairing of another
connection. -/
theorem Owned.cancelRequest {s : Runtime KeyPair} (h : Owned s) {cli : CliId} {pairingId : String}
    (hcond : Undisturbed s (.cancelRequest cli pairingId)) :
    Owned (runtimeStep deriveRegistrationProof s (.cancelRequest cli pairingId)) := by
  have hconsistent := h.consistent.step deriveRegistrationProof (.cancelRequest cli pairingId)
  by_cases hallowed : cli ∈ s.clis ∧ (s.owner = none ∨ s.owner = some cli)
  · rw [step_cancelRequest deriveRegistrationProof hallowed] at hconsistent ⊢
    refine h.extend hconsistent rfl rfl rfl ?_ fun howner hopen => .recorded howner hopen
    intro pp client owner hpp hclient hlookup task htask
    rw [List.mem_singleton.mp htask]
    rintro ⟨hne, hnamed⟩
    have hid : ∀ other ∈ s.orch.pending, other.pairingId = pairingId := by
      intro other hother
      rw [hpp] at hother
      obtain rfl := Option.some.inj hother
      exact hnamed pairingId rfl
    have hown := hcond hallowed hid client hclient
    exact hne (Option.some.inj (hown.symm.trans hlookup))
  · have hstep : runtimeStep deriveRegistrationProof s (.cancelRequest cli pairingId) = s :=
      if_neg hallowed
    rw [hstep]
    exact h

/-- A disconnect leaves the slot owned, or leaves a cancel behind. -/
theorem Owned.disconnect {s : Runtime KeyPair} (h : Owned s) {cli : CliId}
    (hcond : Undisturbed s (.disconnect cli)) :
    Owned (runtimeStep deriveRegistrationProof s (.disconnect cli)) := by
  have hconsistent := h.consistent.step deriveRegistrationProof (.disconnect cli)
  by_cases hopen : cli ∈ s.clis
  · by_cases howner : s.owner = some cli
    · rw [step_disconnect_owner deriveRegistrationProof hopen howner] at hconsistent ⊢
      refine h.extend hconsistent rfl rfl rfl ?_ ?_
      · intro pp client owner hpp hclient hlookup task htask
        rw [List.mem_singleton.mp htask]
        rintro ⟨hne, -⟩
        have hown := hcond ⟨hopen, howner⟩ client hclient
        exact hne (Option.some.inj (hown.symm.trans hlookup))
      · intro client owner heq _
        obtain rfl := Option.some.inj (howner.symm.trans heq)
        exact .left s.tasks.length List.getElem?_concat_length
    · rw [step_disconnect_other deriveRegistrationProof hopen howner] at hconsistent ⊢
      refine h.extend hconsistent (List.append_nil _).symm rfl rfl (by simp) ?_
      intro client owner heq hmem
      have hne : owner ≠ cli := by
        rintro rfl
        exact howner heq
      exact .recorded heq ((List.mem_erase_of_ne hne).mpr hmem)
  · have hstep : runtimeStep deriveRegistrationProof s (.disconnect cli) = s := if_neg hopen
    rw [hstep]
    exact h

/-- Every event leaves the slot owned, if nobody uses the gaps. -/
theorem Owned.step {s : Runtime KeyPair} (h : Owned s) {e : RuntimeEvent KeyPair}
    (hcond : Undisturbed s e) : Owned (runtimeStep deriveRegistrationProof s e) := by
  have hconsistent := h.consistent.step deriveRegistrationProof e
  cases e with
  | accept =>
    refine h.extend hconsistent (List.append_nil _).symm rfl rfl (by simp) ?_
    intro client cli howner hopen
    exact .recorded howner (List.mem_append_left _ hopen)
  | beginRequest cli request =>
    by_cases hopen : cli ∈ s.clis
    · rw [step_beginRequest deriveRegistrationProof hopen] at hconsistent ⊢
      refine h.extend hconsistent rfl rfl rfl ?_ fun howner hopen => .recorded howner hopen
      intro pp client owner _ _ _ task htask
      rw [List.mem_singleton.mp htask]
      exact not_false
    · have hstep : runtimeStep deriveRegistrationProof s (.beginRequest cli request) = s :=
        if_neg hopen
      rw [hstep]
      exact h
  | cancelRequest cli pairingId => exact h.cancelRequest deriveRegistrationProof hcond
  | disconnect cli => exact h.disconnect deriveRegistrationProof hcond
  | join client frontendId =>
    have hpending : (s.orch.record client frontendId).pending = s.orch.pending := by
      unfold Orchestrator.record
      split
      · rfl
      · rfl
    exact h.extend hconsistent (List.append_nil _).symm hpending rfl (by simp)
      fun howner hopen => .recorded howner hopen
  | advance i draws =>
    cases happens deriveRegistrationProof h.consistent (.advance i draws) with
    | nothing step =>
      rw [step]
      exact h
    | quiet request => exact absurd rfl (request i draws)
    | begin _ _ cli request stage stage' s' at_ advance eq step =>
      rw [step]
      exact h.advance at_ advance (hcond _ at_)
    | cancel _ _ cli pairingId pp client orch at_ before fresh named pending next step =>
      rw [step] at hconsistent ⊢
      refine ⟨hconsistent, fun {other _ _} hother _ _ => ?_⟩
      rw [show orch.pending = some other from hother] at pending
      contradiction
    | cancelNothing _ _ cli pairingId at_ other step =>
      rw [step] at hconsistent ⊢
      refine ⟨hconsistent, fun {pp client owner} hpp hfresh hlookup => ?_⟩
      obtain ⟨pid, hpid, -⟩ := other pp hpp
      refine (h.slot hpp hfresh hlookup).replace at_ rfl (by simp) ?_ not_false id rfl
      rintro heq
      obtain ⟨-, rfl⟩ := RuntimeTask.cancelling.inj heq
      contradiction

/-- Nothing is in the slot at first. -/
theorem owned_initial : Owned (.initial : Runtime KeyPair) :=
  ⟨consistent_initial, fun hpending => by contradiction⟩

/-- Cancels take their own pairings only. -/
theorem Owned.cancelsOwn {s : Runtime KeyPair} (h : Owned s) (e : RuntimeEvent KeyPair) :
    CancelsOwn deriveRegistrationProof s e := by
  cases e with
  | advance i draws =>
    intro cli pairingId hi client hclient htaken
    obtain ⟨pp, owner, hpending, hfresh, hlookup⟩ := exists_of_slotClient h.consistent hclient
    have hfacts := h.slot hpending hfresh hlookup
    cases happens deriveRegistrationProof h.consistent (.advance i draws) with
    | nothing step =>
      rw [step] at htaken
      exact absurd hclient htaken
    | quiet request => exact absurd rfl (request i draws)
    | begin _ _ _ _ _ _ _ at_ =>
      rw [hi, Option.some.injEq] at at_
      contradiction
    | cancel _ _ cli' pairingId' pp' _ _ at_ before _ named =>
      rw [hi, Option.some.injEq] at at_
      obtain ⟨rfl, rfl⟩ := RuntimeTask.cancelling.inj at_
      rw [hpending, Option.some.injEq] at before
      rw [← before] at named
      by_contra hother
      refine hfacts.cancels _ (List.mem_of_getElem? hi) ⟨?_, named⟩
      rintro rfl
      exact hother hlookup
    | cancelNothing _ _ _ _ _ _ step =>
      rw [step] at htaken
      exact absurd hclient htaken
  | _ => trivial

/-- As long as nobody uses the gaps, a pairing in the slot is owned by the open
connection that began it once all tasks have run, and no cancel or disconnect
of another connection ever takes it. -/
theorem slot_owned_and_cancelled_by_owner {events : List (RuntimeEvent KeyPair)}
    (h : Meets (runtimeStep deriveRegistrationProof) Undisturbed .initial events) :
    (∀ before, before <+: events →
      Idle (runFrom (runtimeStep deriveRegistrationProof) .initial before) →
        SlotOwned (runFrom (runtimeStep deriveRegistrationProof) .initial before)) ∧
    ∀ before next, before ++ [next] <+: events →
      CancelsOwn deriveRegistrationProof
        (runFrom (runtimeStep deriveRegistrationProof) .initial before) next := by
  have howned : ∀ before, before <+: events →
      Owned (runFrom (runtimeStep deriveRegistrationProof) .initial before) := by
    intro before hbefore
    have hstep : ∀ (s : Runtime KeyPair) (e : RuntimeEvent KeyPair), Owned s →
        Undisturbed s e → Owned (runtimeStep deriveRegistrationProof s e) :=
      fun _ _ hs hc => hs.step deriveRegistrationProof hc
    exact runFrom_induction_of_meets hstep owned_initial (meets_of_isPrefix hbefore h)
  refine ⟨fun before hbefore hidle => (howned before hbefore).slotOwned hidle, ?_⟩
  intro before next hbefore
  have hprefix : before <+: events := (List.prefix_append before [next]).trans hbefore
  exact (howned before hprefix).cancelsOwn deriveRegistrationProof next

end Runs

/-- An owner disconnects and its pairing is cancelled; then another connection
begins a pairing and waits for a frontend. -/
def afterOwnerLeft : List (RuntimeEvent (Key × Key)) :=
  [.accept, .accept, .beginRequest 0 (sampleRequest "d0")] ++ goesOn 0 3 ++ [.disconnect 0] ++
    goesOn 1 1 ++ goesOn 0 2 ++ [.beginRequest 1 (sampleRequest "d1")] ++ goesOn 2 4

/-- The second connection owns the slot. -/
theorem slot_owned_after_owner_left :
    SlotOwned (runFrom (runtimeStep sampleProof) .initial afterOwnerLeft) ∧
      slotClient (runFrom (runtimeStep sampleProof) .initial afterOwnerLeft).orch = some 1 ∧
      (runFrom (runtimeStep sampleProof) .initial afterOwnerLeft).owner = some 1 :=
  ⟨(slot_owned_and_cancelled_by_owner sampleProof (by decide +kernel)).1 afterOwnerLeft
    List.prefix_rfl (by unfold Idle; decide +kernel), by decide +kernel, by decide +kernel⟩

/-- A connection begins a pairing and disconnects while the relay connects. -/
def disconnectWhileConnecting : List (RuntimeEvent (Key × Key)) :=
  [.accept, .beginRequest 0 (sampleRequest "d0")] ++ goesOn 0 1 ++ [.disconnect 0] ++ goesOn 0 3

/-- The slot stays occupied for the closed connection. -/
theorem closed_connection_keeps_slot :
    Idle (runFrom (runtimeStep sampleProof) .initial disconnectWhileConnecting) ∧
      slotClient (runFrom (runtimeStep sampleProof) .initial disconnectWhileConnecting).orch =
        some 0 ∧
      (runFrom (runtimeStep sampleProof) .initial disconnectWhileConnecting).clis = [] ∧
      ¬SlotOwned (runFrom (runtimeStep sampleProof) .initial disconnectWhileConnecting) := by
  have hslot : slotClient
      (runFrom (runtimeStep sampleProof) .initial disconnectWhileConnecting).orch = some 0 := by
    decide +kernel
  have hclosed : (runFrom (runtimeStep sampleProof) .initial disconnectWhileConnecting).clis = [] :=
    by decide +kernel
  refine ⟨by unfold Idle; decide +kernel, hslot, hclosed, fun howned => ?_⟩
  obtain ⟨cli, -, -, hopen⟩ := howned 0 hslot
  rw [hclosed] at hopen
  exact absurd hopen List.not_mem_nil

end Teleprompter.PairingOwnership
