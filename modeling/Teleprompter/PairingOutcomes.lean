import Teleprompter.PairingTransitions
import Teleprompter.StepRuns

/-!
# How the end of a pairing is told

A command line that began a pairing should be told once how that pairing
ended. The task that tells polls the one slot, and takes whatever it finds
there for its own. As long as a begin takes the slot only when no earlier begin
still follows it, what a task sees is its own pairing.
-/

namespace Teleprompter.PairingOutcomes

open FiniteDictionary StepRuns PairingCrypto RelayServer KeyExchange PairingOrchestrator
  PairingRuntime PairingTransitions

variable {KeyPair : Type}

/-- What a begin answered. -/
def answerOf : PairStage KeyPair → Option BeginOutcome
  | .watching _ info => some info
  | .gone _ info => some info
  | .promoted _ info _ => some info
  | .removing _ info _ => some info
  | .clearing _ info _ => some info
  | .finished _ info _ => some info
  | _ => none

/-- The begin has a client and still depends on the slot. -/
def follows : PairStage KeyPair → Bool
  | .queued => false
  | .connecting .. => true
  | .begun .. => true
  | .watching .. => true
  | .gone .. => false
  | .promoted .. => true
  | .removing .. => true
  | .clearing .. => true
  | .finished .. => false
  | .refused => false

/-- Steps until the end is told, once the pairing left the slot. -/
def toGo : PairStage KeyPair → ℕ
  | .queued => 7
  | .connecting .. => 6
  | .begun .. => 5
  | .watching .. => 4
  | .promoted .. => 3
  | .removing .. => 2
  | .clearing .. => 1
  | .gone .. => 1
  | .finished .. => 0
  | .refused => 0

/-- The message tells how the pairing of a begin ended. -/
def Reports (outcome : Outcome) (info : BeginOutcome) : PairFrame → Prop
  | .completed pairingId daemonId _ =>
    outcome = .promoted ∧ pairingId = info.pairingId ∧ daemonId = info.daemonId
  | .cancelled pairingId => outcome = .cancelled ∧ pairingId = info.pairingId
  | .error pairingId _ => outcome = .unsaved ∧ pairingId = info.pairingId
  | _ => False

/-- Messages that ended the pairing of a client. -/
def terminals (s : Runtime KeyPair) (client : ClientId) : List SentFrame :=
  s.sent.filter fun frame => frame.client = some client ∧ frame.frame.isTerminal

section Statement

variable (deriveRegistrationProof : Bytes → String)

/-- Every begin that was answered is told once how its own pairing ended, and
is told so a few steps after the pairing left the slot. -/
structure OutcomesTold (s : Runtime KeyPair) : Prop where
  /-- An answer belongs to a begin. -/
  answered : ∀ {cli client info}, ⟨cli, some client, .beginOk info⟩ ∈ s.sent →
    ∃ i stage, BeginAt s i cli stage ∧ stage.client = some client ∧ answerOf stage = some info
  /-- What was told once is the truth. -/
  told : ∀ {i cli client info frame}, BeginAt s i cli (.finished client info frame) →
    terminals s client = [⟨cli, some client, frame⟩] ∧
      ∃ outcome, s.outcomes.lookup client = some outcome ∧ Reports outcome info frame
  /-- Nothing is told before. -/
  untold : ∀ {i cli stage client}, BeginAt s i cli stage → stage.client = some client →
    toGo stage ≠ 0 → terminals s client = []
  /-- A begin whose pairing left the slot comes closer to telling. -/
  next : ∀ {i cli stage client}, BeginAt s i cli stage → stage.client = some client →
    (s.outcomes.lookup client).isSome → toGo stage ≠ 0 → ∀ draws, ∃ stage',
      BeginAt (runtimeStep deriveRegistrationProof s (.advance i draws)) i cli stage' ∧
        toGo stage' < toGo stage

/-- A begin that waits for the lock gets it and creates a client. -/
def takesSlot (s : Runtime KeyPair) (i : ℕ) (draws : Draws KeyPair) : Bool :=
  match s.tasks[i]? with
  | some (.pairing _ request .queued) => !s.locked &&
    match (s.orch.beginCreate deriveRegistrationProof request draws.begin).2 with
    | .ok _ => true
    | .error _ => false
  | _ => false

/-- The task is a begin that still depends on the slot. -/
def taskFollows : RuntimeTask KeyPair → Bool
  | .pairing _ _ stage => follows stage
  | _ => false

/-- A begin takes the free slot only when no earlier begin still follows it. -/
def OneAtATime (s : Runtime KeyPair) : RuntimeEvent KeyPair → Prop
  | .advance i draws => takesSlot deriveRegistrationProof s i draws = true →
      ∀ task ∈ s.tasks, taskFollows task = false
  | _ => True

instance (s : Runtime KeyPair) : (e : RuntimeEvent KeyPair) →
    Decidable (OneAtATime deriveRegistrationProof s e)
  | .advance i draws => inferInstanceAs (Decidable (
      takesSlot deriveRegistrationProof s i draws = true →
        ∀ task ∈ s.tasks, taskFollows task = false))
  | .accept => isTrue trivial
  | .beginRequest .. => isTrue trivial
  | .cancelRequest .. => isTrue trivial
  | .disconnect _ => isTrue trivial
  | .join .. => isTrue trivial

end Statement

/-- What a begin at a stage knows. -/
def StageFacts (s : Runtime KeyPair) (cli : CliId) : PairStage KeyPair → Prop
  | .queued => True
  | .connecting client _ => terminals s client = [] ∧ s.outcomes.lookup client = none
  | .begun client _ => terminals s client = [] ∧
      ((slotClient s.orch = some client ∧ s.outcomes.lookup client = none) ∨
        (s.orch.pending = none ∧ s.outcomes.lookup client = some .cancelled))
  | .watching client _ => terminals s client = [] ∧
      ((slotClient s.orch = some client ∧ s.outcomes.lookup client = none) ∨
        (s.orch.pending = none ∧ s.outcomes.lookup client = some .cancelled))
  | .gone client _ => terminals s client = [] ∧ s.outcomes.lookup client = some .cancelled
  | .promoted client _ _ => terminals s client = [] ∧ s.orch.pending = none ∧
      ((s.outcomes.lookup client = some .promoted ∧ s.lastSaveError = none) ∨
        (s.outcomes.lookup client = some .unsaved ∧ s.lastSaveError ≠ none))
  | .removing client _ _ => terminals s client = [] ∧ s.orch.pending = none ∧
      s.outcomes.lookup client = some .unsaved
  | .clearing client _ _ => terminals s client = [] ∧ s.orch.pending = none ∧
      s.outcomes.lookup client = some .unsaved
  | .finished client info frame => terminals s client = [⟨cli, some client, frame⟩] ∧
      ∃ outcome, s.outcomes.lookup client = some outcome ∧ Reports outcome info frame
  | .refused => True

/-- At most one begin follows the slot, and it knows what happens to it. -/
structure Followed (s : Runtime KeyPair) : Prop where
  /-- The runtime is consistent. -/
  consistent : Consistent s
  /-- No other begin follows the slot. -/
  alone : ∀ {i j cli cli' stage stage'}, BeginAt s i cli stage → follows stage = true →
    BeginAt s j cli' stage' → follows stage' = true → i = j
  /-- Each begin knows what its stage says. -/
  stages : ∀ {i cli stage}, BeginAt s i cli stage → StageFacts s cli stage
  /-- The slot is followed. -/
  slot : ∀ {client}, slotClient s.orch = some client → ∃ i cli info,
    BeginAt s i cli (.begun client info) ∨ BeginAt s i cli (.watching client info)
  /-- A failed save is reported by the begin that saved. -/
  error : s.lastSaveError ≠ none → ∃ i cli client info label,
    BeginAt s i cli (.promoted client info label)
  /-- Only clients that exist have an outcome, and are told about. -/
  known : ∀ {client}, (s.outcomes.lookup client).isSome ∨ terminals s client ≠ [] →
    client < s.orch.next
  /-- An answer belongs to a begin. -/
  answered : ∀ {cli client info}, ⟨cli, some client, .beginOk info⟩ ∈ s.sent →
    ∃ i stage, BeginAt s i cli stage ∧ stage.client = some client ∧ answerOf stage = some info

/-- What was told depends on the messages only. -/
theorem terminals_congr {s s' : Runtime KeyPair} (hsent : s'.sent = s.sent) (client : ClientId) :
    terminals s' client = terminals s client := by
  rw [terminals, hsent, terminals]

/-- What was told about a client after a message was sent. -/
theorem terminals_send (s : Runtime KeyPair) (cli : CliId) (about : Option ClientId)
    (frame : PairFrame) (client : ClientId) : terminals (s.send cli about frame) client =
      terminals s client ++
        if about = some client ∧ frame.isTerminal = true then [⟨cli, about, frame⟩] else [] := by
  unfold terminals Runtime.send
  dsimp only
  rw [List.filter_append]
  congr 1
  by_cases h : about = some client ∧ frame.isTerminal = true
  · rw [if_pos h, List.filter_cons_of_pos (by simpa using h), List.filter_nil]
  · rw [if_neg h, List.filter_cons_of_neg (by simpa using h), List.filter_nil]

/-- Facts of a stage stay when what they are about stays. -/
theorem StageFacts.mono {s s' : Runtime KeyPair} {cli : CliId} {stage : PairStage KeyPair}
    (h : StageFacts s cli stage)
    (hterminals : ∀ client, stage.client = some client → terminals s' client = terminals s client)
    (houtcomes : ∀ client, stage.client = some client →
      s'.outcomes.lookup client = s.outcomes.lookup client)
    (hfollows : follows stage = true →
      s'.orch.pending = s.orch.pending ∧ s'.lastSaveError = s.lastSaveError) :
    StageFacts s' cli stage := by
  have hslot : follows stage = true → slotClient s'.orch = slotClient s.orch := by
    intro hf
    rw [slotClient, (hfollows hf).1, slotClient]
  cases stage with
  | queued => trivial
  | connecting client pp =>
    rw [StageFacts, hterminals client rfl, houtcomes client rfl]
    exact h
  | begun client info =>
    rw [StageFacts, hterminals client rfl, houtcomes client rfl, hslot rfl, (hfollows rfl).1]
    exact h
  | watching client info =>
    rw [StageFacts, hterminals client rfl, houtcomes client rfl, hslot rfl, (hfollows rfl).1]
    exact h
  | gone client info =>
    rw [StageFacts, hterminals client rfl, houtcomes client rfl]
    exact h
  | promoted client info label =>
    rw [StageFacts, hterminals client rfl, houtcomes client rfl, (hfollows rfl).1, (hfollows rfl).2]
    exact h
  | removing client info message =>
    rw [StageFacts, hterminals client rfl, houtcomes client rfl, (hfollows rfl).1]
    exact h
  | clearing client info message =>
    rw [StageFacts, hterminals client rfl, houtcomes client rfl, (hfollows rfl).1]
    exact h
  | finished client info frame =>
    rw [StageFacts, hterminals client rfl, houtcomes client rfl]
    exact h
  | refused => trivial

/-- What a begin keeps when it goes on: its connection, its client, and what it
answered. -/
theorem advance_keeps {s s' : Runtime KeyPair} {cli : CliId} {stage stage' : PairStage KeyPair}
    (h : Advance s cli stage s' stage') :
    (∀ client, stage.client = some client → stage'.client = some client) ∧
      (∀ info, answerOf stage = some info → answerOf stage' = some info) := by
  cases h with
  | refuse orch err pending joinSignal next =>
    exact ⟨fun _ heq => by contradiction, fun _ heq => by contradiction⟩
  | create pp daemonIds unlocked free fresh =>
    exact ⟨fun _ heq => by contradiction, fun _ heq => by contradiction⟩
  | fill client pp info fresh => exact ⟨fun _ heq => heq, fun _ heq => by contradiction⟩
  | record client info => exact ⟨fun _ heq => heq, fun _ heq => by contradiction⟩
  | _ => exact ⟨fun _ heq => heq, fun _ heq => heq⟩

/-- A begin that goes on leaves the slot followed, given what is so for itself
and for the others. -/
theorem Followed.moves {s s' : Runtime KeyPair} (h : Followed s) {i : ℕ} {cli : CliId}
    {request : BeginRequest} {stage stage' : PairStage KeyPair}
    (hi : s.tasks[i]? = some (.pairing cli request stage)) (hadvance : Advance s cli stage s' stage')
    (hfollows : follows stage' = true → follows stage = true ∨
      ∀ {j cli' other}, BeginAt s j cli' other → follows other = false)
    (hself : StageFacts s' cli stage')
    (hothers : ∀ {j cli' other}, j ≠ i → BeginAt s j cli' other → StageFacts s' cli' other)
    (hslot : ∀ {client}, slotClient s'.orch = some client →
      (∃ info, stage' = .begun client info ∨ stage' = .watching client info) ∨
        (slotClient s.orch = some client ∧ follows stage = false))
    (herror : s'.lastSaveError ≠ none → (∃ client info label, stage' = .promoted client info label) ∨
      (s.lastSaveError ≠ none ∧ follows stage = false))
    (hknown : ∀ {client}, (s'.outcomes.lookup client).isSome ∨ terminals s' client ≠ [] →
      client < s'.orch.next)
    (hsent : ∀ {cli' client info}, ⟨cli', some client, .beginOk info⟩ ∈ s'.sent →
      ⟨cli', some client, .beginOk info⟩ ∈ s.sent ∨
        (cli' = cli ∧ stage'.client = some client ∧ answerOf stage' = some info)) :
    Followed (s'.replace i (.pairing cli request stage')) := by
  have htasks := hadvance.tasks_replace i (.pairing cli request stage')
  have hat := beginAt_set_self hi htasks
  have hother : ∀ {j cli' other}, BeginAt s j cli' other → other ≠ stage ∨ j ≠ i →
      BeginAt (s'.replace i (.pairing cli request stage')) j cli' other := by
    intro j cli' other hj hne
    refine beginAt_set_of_ne htasks ?_ hj
    rintro rfl
    rcases hne with hne | hne
    · exact hne (beginAt_unique hj ⟨request, hi⟩).2
    · exact hne rfl
  refine ⟨h.consistent.advance hi hadvance, ?_, ?_, ?_, ?_, hknown, ?_⟩
  · intro j k cli₁ cli₂ first second hj hf hk hf'
    rcases beginAt_set_pairing htasks hj with ⟨rfl, -, rfl⟩ | ⟨-, hold⟩
    · rcases beginAt_set_pairing htasks hk with ⟨rfl, -, -⟩ | ⟨-, hold'⟩
      · rfl
      · rcases hfollows hf with hstage | hnone
        · exact h.alone ⟨request, hi⟩ hstage hold' hf'
        · rw [hnone hold'] at hf'
          contradiction
    · rcases beginAt_set_pairing htasks hk with ⟨rfl, -, rfl⟩ | ⟨-, hold'⟩
      · rcases hfollows hf' with hstage | hnone
        · exact h.alone hold hf ⟨request, hi⟩ hstage
        · rw [hnone hold] at hf
          contradiction
      · exact h.alone hold hf hold' hf'
  · intro j cli' other hj
    rcases beginAt_set_pairing htasks hj with ⟨rfl, rfl, rfl⟩ | ⟨hne, hold⟩
    · exact hself
    · exact hothers hne hold
  · intro client hclient
    rcases hslot hclient with ⟨info, rfl | rfl⟩ | ⟨hold, hstage⟩
    · exact ⟨i, cli, info, Or.inl hat⟩
    · exact ⟨i, cli, info, Or.inr hat⟩
    · obtain ⟨j, cli', info, hj | hj⟩ := h.slot hold
      · refine ⟨j, cli', info, Or.inl (hother hj (Or.inl ?_))⟩
        rintro rfl
        contradiction
      · refine ⟨j, cli', info, Or.inr (hother hj (Or.inl ?_))⟩
        rintro rfl
        contradiction
  · intro hne
    rcases herror hne with ⟨client, info, label, rfl⟩ | ⟨hold, hstage⟩
    · exact ⟨i, cli, client, info, label, hat⟩
    · obtain ⟨j, cli', client, info, label, hj⟩ := h.error hold
      refine ⟨j, cli', client, info, label, hother hj (Or.inl ?_)⟩
      rintro rfl
      contradiction
  · intro cli' client info hin
    rcases hsent hin with hold | ⟨rfl, hclient, hinfo⟩
    · obtain ⟨j, other, hj, hclient, hinfo⟩ := h.answered hold
      by_cases hji : j = i
      · obtain ⟨rfl, rfl⟩ := beginAt_unique (hji ▸ hj) ⟨request, hi⟩
        exact ⟨i, stage', hat, (advance_keeps hadvance).1 client hclient,
          (advance_keeps hadvance).2 info hinfo⟩
      · exact ⟨j, other, hother hj (Or.inr hji), hclient, hinfo⟩
    · exact ⟨i, stage', hat, hclient, hinfo⟩

section Advance

variable {s s' : Runtime KeyPair} {i : ℕ} {cli : CliId} {request : BeginRequest}

/-- While one begin follows the slot, no other does. -/
theorem Followed.others_idle (h : Followed s) {stage : PairStage KeyPair}
    (hi : BeginAt s i cli stage) (hstage : follows stage = true) {j : ℕ} {cli' : CliId}
    {other : PairStage KeyPair} (hne : j ≠ i) (hj : BeginAt s j cli' other) :
    follows other = false := by
  cases hf : follows other with
  | false => rfl
  | true => exact absurd (h.alone hj hf hi hstage) hne

/-- A begin that follows the slot is the one whose pairing is there. -/
theorem Followed.stage_of_slot (h : Followed s) {stage : PairStage KeyPair}
    (hi : BeginAt s i cli stage) (hstage : follows stage = true) {client : ClientId}
    (hslot : slotClient s.orch = some client) :
    ∃ info, stage = .begun client info ∨ stage = .watching client info := by
  have hsame : ∀ {j cli' other}, BeginAt s j cli' other → follows other = true → other = stage := by
    intro j cli' other hj hf
    obtain rfl := h.alone hj hf hi hstage
    exact (beginAt_unique hj hi).2
  obtain ⟨j, cli', info, hj | hj⟩ := h.slot hslot
  · exact ⟨info, Or.inl (hsame hj rfl).symm⟩
  · exact ⟨info, Or.inr (hsame hj rfl).symm⟩

/-- Only a promotion leaves an error to report. -/
theorem Followed.error_eq_none (h : Followed s) {stage : PairStage KeyPair}
    (hi : BeginAt s i cli stage) (hstage : follows stage = true)
    (hnot : ∀ client info label, stage ≠ .promoted client info label) : s.lastSaveError = none := by
  by_contra hne
  obtain ⟨j, cli', client, info, label, hj⟩ := h.error hne
  obtain rfl := h.alone hj rfl hi hstage
  exact hnot client info label (beginAt_unique hi hj).2

/-- Facts of the others when messages about one begin are sent and its outcome
is noted. -/
theorem Followed.others (h : Followed s) {stage : PairStage KeyPair}
    (hi : BeginAt s i cli stage)
    (hterminals : ∀ other, stage.client ≠ some other → terminals s' other = terminals s other)
    (houtcomes : ∀ other, stage.client ≠ some other →
      s'.outcomes.lookup other = s.outcomes.lookup other)
    (hkept : follows stage = true ∨
      (s'.orch.pending = s.orch.pending ∧ s'.lastSaveError = s.lastSaveError))
    {j : ℕ} {cli' : CliId} {other : PairStage KeyPair} (hne : j ≠ i) (hj : BeginAt s j cli' other) :
    StageFacts s' cli' other := by
  have hdistinct : ∀ client, other.client = some client → stage.client ≠ some client :=
    fun client hclient hsame => hne (h.consistent.distinct hj hclient hi hsame)
  refine (h.stages hj).mono (fun client hclient => hterminals client (hdistinct client hclient))
    (fun client hclient => houtcomes client (hdistinct client hclient)) fun hf => ?_
  rcases hkept with hstage | hsame
  · rw [h.others_idle hi hstage hne hj] at hf
    contradiction
  · exact hsame

/-- What is told about a client is told about one that exists. -/
theorem Followed.known_send (h : Followed s) {stage : PairStage KeyPair}
    (hi : BeginAt s i cli stage) {about : ClientId} (habout : stage.client = some about)
    {frame : PairFrame} {sender : Runtime KeyPair} (hsent : sender.sent = s.sent)
    (houtcomes : sender.outcomes = s.outcomes) {client : ClientId}
    (hclient : ((sender.send cli (some about) frame).outcomes.lookup client).isSome ∨
      terminals (sender.send cli (some about) frame) client ≠ []) : client < s.orch.next := by
  have hterminals := terminals_congr hsent client
  rcases hclient with hsome | hne
  · have hsome' : (sender.outcomes.lookup client).isSome := hsome
    rw [houtcomes] at hsome'
    exact h.known (Or.inl hsome')
  · rw [terminals_send, hterminals] at hne
    by_cases heq : about = client
    · exact heq ▸ (h.consistent.began hi habout).1
    · rw [if_neg fun hand => heq (Option.some.inj hand.1), List.append_nil] at hne
      exact h.known (Or.inr hne)

/-- A begin that tells the end, truthfully and for the first time. -/
theorem Followed.tell (h : Followed s) {stage : PairStage KeyPair}
    (hi : s.tasks[i]? = some (.pairing cli request stage)) {client : ClientId} {info : BeginOutcome}
    {frame : PairFrame} (hclient : stage.client = some client) {sender : Runtime KeyPair}
    (hadvance : Advance s cli stage (sender.send cli (some client) frame)
      (.finished client info frame))
    (hterminal : frame.isTerminal = true) (hsent : sender.sent = s.sent)
    (houtcomes : sender.outcomes = s.outcomes) (hnext : sender.orch.next = s.orch.next)
    (huntold : terminals s client = [])
    (hreports : ∃ outcome, s.outcomes.lookup client = some outcome ∧ Reports outcome info frame)
    (hkept : (follows stage = true ∧ sender.orch.pending = none ∧ sender.lastSaveError = none) ∨
      (follows stage = false ∧ sender.orch.pending = s.orch.pending ∧
        sender.lastSaveError = s.lastSaveError)) :
    Followed ((sender.send cli (some client) frame).replace i
      (.pairing cli request (.finished client info frame))) := by
  have hat : BeginAt s i cli stage := ⟨request, hi⟩
  have hterminals : ∀ other, terminals (sender.send cli (some client) frame) other =
      terminals s other ++ if client = other then [⟨cli, some client, frame⟩] else [] := by
    intro other
    rw [terminals_send, terminals_congr hsent]
    simp only [hterminal, and_true, Option.some.injEq]
  refine h.moves hi hadvance (fun hf => by contradiction) ?_ ?_ ?_ ?_ ?_ ?_
  · refine ⟨?_, ?_⟩
    · rw [hterminals, huntold, if_pos rfl, List.nil_append]
    · obtain ⟨outcome, hlookup, hreport⟩ := hreports
      exact ⟨outcome, (congrArg (AList.lookup client) houtcomes).trans hlookup, hreport⟩
  · intro j cli' other hne hj
    have hlookup : ∀ c, stage.client ≠ some c →
        (sender.send cli (some client) frame).outcomes.lookup c = s.outcomes.lookup c :=
      fun c _ => congrArg (AList.lookup c) houtcomes
    refine h.others hat (fun c hc => ?_) hlookup ?_ hne hj
    · rw [hterminals, if_neg, List.append_nil]
      rintro rfl
      exact hc hclient
    · exact hkept.imp And.left And.right
  · intro c hc
    rcases hkept with ⟨-, hvacant, -⟩ | ⟨hstage, hpending, -⟩
    · have hnone : slotClient sender.orch = some c := hc
      rw [slotClient, hvacant] at hnone
      contradiction
    · have hsome : slotClient sender.orch = some c := hc
      rw [slotClient, hpending] at hsome
      exact Or.inr ⟨hsome, hstage⟩
  · intro hne
    rcases hkept with ⟨-, -, hnone⟩ | ⟨hstage, -, hsame⟩
    · exact absurd hnone hne
    · have hne' : sender.lastSaveError ≠ none := hne
      rw [hsame] at hne'
      exact Or.inr ⟨hne', hstage⟩
  · intro c hc
    have hlt := h.known_send hat hclient hsent houtcomes hc
    exact hnext.symm ▸ hlt
  · intro cli' c answered hin
    left
    rcases List.mem_append.mp hin with hold | hnew
    · exact hsent ▸ hold
    · have heq := congrArg SentFrame.frame (List.mem_singleton.mp hnew)
      dsimp only at heq
      rw [← heq] at hterminal
      contradiction

/-- A begin that keeps following the slot, or stops to, without telling. -/
theorem Followed.silent (h : Followed s) {stage stage' : PairStage KeyPair}
    (hi : s.tasks[i]? = some (.pairing cli request stage)) (hadvance : Advance s cli stage s' stage')
    (hfollows : follows stage = true) (hself : StageFacts s' cli stage')
    (hsent : ∀ c, terminals s' c = terminals s c)
    (houtcomes : ∀ c, stage.client ≠ some c → s'.outcomes.lookup c = s.outcomes.lookup c)
    (hslot : ∀ {client}, slotClient s'.orch = some client →
      ∃ info, stage' = .begun client info ∨ stage' = .watching client info)
    (herror : s'.lastSaveError ≠ none → ∃ client info label, stage' = .promoted client info label)
    (hnext : s'.orch.next = s.orch.next)
    (hanswered : ∀ {cli' client info}, ⟨cli', some client, .beginOk info⟩ ∈ s'.sent →
      ⟨cli', some client, .beginOk info⟩ ∈ s.sent ∨
        (cli' = cli ∧ stage'.client = some client ∧ answerOf stage' = some info)) :
    Followed (s'.replace i (.pairing cli request stage')) := by
  have hat : BeginAt s i cli stage := ⟨request, hi⟩
  refine h.moves hi hadvance (fun _ => Or.inl hfollows) hself ?_ (fun hc => Or.inl (hslot hc))
    (fun hne => Or.inl (herror hne)) ?_ hanswered
  · intro j cli' other hne hj
    exact h.others hat (fun c _ => hsent c) houtcomes (Or.inl hfollows) hne hj
  · intro c hc
    rw [hnext]
    by_cases hown : stage.client = some c
    · exact (h.consistent.began hat hown).1
    · rw [houtcomes c hown, hsent] at hc
      exact h.known hc

/-- Without an error to report, none is left unreported. -/
theorem Followed.no_error (h : Followed s) {stage stage' : PairStage KeyPair}
    (hi : BeginAt s i cli stage) (hstage : follows stage = true)
    (hnot : ∀ client info label, stage ≠ .promoted client info label) :
    s.lastSaveError ≠ none → ∃ client info label, stage' = .promoted client info label :=
  fun hne => absurd (h.error_eq_none hi hstage hnot) hne

/-- A begin is refused. -/
theorem Followed.refuse (h : Followed s)
    (hi : s.tasks[i]? = some (.pairing cli request .queued)) {orch : Orchestrator KeyPair}
    {err : BeginPairingError} (hpending : orch.pending = s.orch.pending)
    (hsignal : orch.joinSignal = s.orch.joinSignal) (hnext : orch.next = s.orch.next) :
    Followed (({ s with orch := orch }.send cli none (.beginErr err)).replace i
      (.pairing cli request .refused)) := by
  have hat : BeginAt s i cli .queued := ⟨request, hi⟩
  have hterminals : ∀ c, terminals (({ s with orch := orch } : Runtime KeyPair).send cli none
      (.beginErr err)) c = terminals s c := by
    intro c
    rw [terminals_send, if_neg (by simp), List.append_nil]
    rfl
  refine h.moves hi (.refuse orch err hpending hsignal hnext) (fun hf => by contradiction) trivial
    ?_ ?_ (fun hne => Or.inr ⟨hne, rfl⟩) ?_ ?_
  · intro j cli' other hne hj
    exact h.others hat (fun c _ => hterminals c) (fun c _ => rfl) (Or.inr ⟨hpending, rfl⟩) hne hj
  · intro c hc
    have hsome : slotClient orch = some c := hc
    rw [slotClient, hpending] at hsome
    exact Or.inr ⟨hsome, rfl⟩
  · intro c hc
    rw [hterminals] at hc
    exact hnext.symm ▸ h.known hc
  · intro cli' c info hin
    left
    rcases List.mem_append.mp hin with hold | hnew
    · exact hold
    · have heq := congrArg SentFrame.frame (List.mem_singleton.mp hnew)
      contradiction

/-- A begin creates its client while no other follows the slot. -/
theorem Followed.create (h : Followed s)
    (hi : s.tasks[i]? = some (.pairing cli request .queued)) {pp : PendingPairing KeyPair}
    (hadvance : Advance s cli .queued s' (.connecting s.orch.next pp))
    (horch : s'.orch = { s.orch with next := s.orch.next + 1 })
    (herror : s'.lastSaveError = s.lastSaveError) (hsent : s'.sent = s.sent)
    (houtcomes : s'.outcomes = s.outcomes)
    (halone : ∀ {j cli' other}, BeginAt s j cli' other → follows other = false) :
    Followed (s'.replace i (.pairing cli request (.connecting s.orch.next pp))) := by
  have hterminals := terminals_congr hsent
  have hpending : s'.orch.pending = s.orch.pending := by rw [horch]
  have hunknown : ¬((s.outcomes.lookup s.orch.next).isSome ∨ terminals s s.orch.next ≠ []) :=
    fun hk => Nat.lt_irrefl _ (h.known hk)
  rw [not_or, not_not, Option.not_isSome_iff_eq_none] at hunknown
  refine h.moves hi hadvance (fun _ => Or.inr halone) ?_ ?_ ?_ ?_ ?_ ?_
  · rw [StageFacts, hterminals, houtcomes]
    exact ⟨hunknown.2, hunknown.1⟩
  · intro j cli' other hne hj
    exact (h.stages hj).mono (fun c _ => hterminals c)
      (fun c _ => congrArg (AList.lookup c) houtcomes) fun _ => ⟨hpending, herror⟩
  · intro c hc
    rw [slotClient, hpending] at hc
    exact Or.inr ⟨hc, rfl⟩
  · intro hne
    rw [herror] at hne
    exact Or.inr ⟨hne, rfl⟩
  · intro c hc
    rw [houtcomes, hterminals] at hc
    rw [horch]
    exact Nat.lt_succ_of_lt (h.known hc)
  · intro cli' c info hin
    rw [hsent] at hin
    exact Or.inl hin

/-- A begin puts its pairing into the slot. -/
theorem Followed.fill (h : Followed s) {client : ClientId} {pp : PendingPairing KeyPair}
    (hi : s.tasks[i]? = some (.pairing cli request (.connecting client pp))) (info : BeginOutcome)
    (hfresh : pp.Fresh client) :
    Followed (({ s with orch := { s.orch with pending := some pp, joinSignal := some client } } :
      Runtime KeyPair).replace i (.pairing cli request (.begun client info))) := by
  have hat : BeginAt s i cli (.connecting client pp) := ⟨request, hi⟩
  have hfacts := h.stages hat
  have hslot : slotClient { s.orch with pending := some pp, joinSignal := some client } =
      some client := hfresh.relay
  refine h.silent hi (.fill client pp info hfresh) rfl ⟨hfacts.1, Or.inl ⟨hslot, hfacts.2⟩⟩
    (fun _ => rfl) (fun _ _ => rfl) ?_ (h.no_error hat rfl fun _ _ _ heq => by contradiction) rfl
    (fun hin => Or.inl hin)
  intro c hc
  obtain rfl := Option.some.inj (hslot.symm.trans hc)
  exact ⟨info, Or.inl rfl⟩

/-- A begin is answered. -/
theorem Followed.record (h : Followed s) {client : ClientId} {info : BeginOutcome}
    (hi : s.tasks[i]? = some (.pairing cli request (.begun client info))) :
    Followed (({ s with owner := some cli }.send cli (some client) (.beginOk info)).replace i
      (.pairing cli request (.watching client info))) := by
  have hat : BeginAt s i cli (.begun client info) := ⟨request, hi⟩
  have hfacts := h.stages hat
  have hterminals : ∀ c, terminals (({ s with owner := some cli } : Runtime KeyPair).send cli
      (some client) (.beginOk info)) c = terminals s c := by
    intro c
    rw [terminals_send, if_neg (by simp [PairFrame.isTerminal]), List.append_nil]
    rfl
  refine h.silent hi (.record client info) rfl ⟨(hterminals client).trans hfacts.1, hfacts.2⟩
    hterminals (fun _ _ => rfl) ?_ (h.no_error hat rfl fun _ _ _ heq => by contradiction) rfl ?_
  · intro c hc
    obtain ⟨info', heq | heq⟩ := h.stage_of_slot hat rfl hc
    · obtain ⟨rfl, -⟩ := PairStage.begun.inj heq
      exact ⟨info, Or.inr rfl⟩
    · contradiction
  · intro cli' c info' hin
    rcases List.mem_append.mp hin with hold | hnew
    · exact Or.inl hold
    · obtain ⟨rfl, hsome, hframe⟩ := SentFrame.mk.inj (List.mem_singleton.mp hnew)
      obtain rfl := Option.some.inj hsome
      obtain rfl := PairFrame.beginOk.inj hframe
      exact Or.inr ⟨rfl, rfl, rfl⟩

/-- A begin sees that its pairing was cancelled. -/
theorem Followed.lose (h : Followed s) {client : ClientId} {info : BeginOutcome}
    (hi : s.tasks[i]? = some (.pairing cli request (.watching client info)))
    (hfree : s.orch.pending = none) :
    Followed (s.replace i (.pairing cli request (.gone client info))) := by
  have hat : BeginAt s i cli (.watching client info) := ⟨request, hi⟩
  have hfacts := h.stages hat
  have hnone := slotClient_of_free hfree
  have hcancelled : s.outcomes.lookup client = some .cancelled := by
    rcases hfacts.2 with ⟨hslot, -⟩ | ⟨-, hout⟩
    · rw [hnone] at hslot
      contradiction
    · exact hout
  refine h.silent hi (.lose client info hfree) rfl ⟨hfacts.1, hcancelled⟩ (fun _ => rfl)
    (fun _ _ => rfl) ?_ (h.no_error hat rfl fun _ _ _ heq => by contradiction) rfl
    (fun hin => Or.inl hin)
  intro c hc
  rw [hnone] at hc
  contradiction

/-- A begin promotes the pairing in the slot, which is its own. -/
theorem Followed.promote (h : Followed s) {client slot : ClientId} {info : BeginOutcome}
    (hi : s.tasks[i]? = some (.pairing cli request (.watching client info))) (label : Label)
    {orch : Orchestrator KeyPair} (saveError : Option String)
    (hbefore : slotClient s.orch = some slot) (hvacant : orch.pending = none)
    (hnext : orch.next = s.orch.next) :
    Followed (({ s with
        orch := orch
        outcomes := s.outcomes.insert slot (if saveError.isNone then .promoted else .unsaved)
        lastSaveError := saveError.or s.lastSaveError } : Runtime KeyPair).replace i
      (.pairing cli request (.promoted client info label))) := by
  have hat : BeginAt s i cli (.watching client info) := ⟨request, hi⟩
  have hfacts := h.stages hat
  have hslot : slot = client := by
    obtain ⟨info', heq | heq⟩ := h.stage_of_slot hat rfl hbefore
    · contradiction
    · exact (PairStage.watching.inj heq).1.symm
  subst hslot
  have herror := h.error_eq_none hat rfl fun _ _ _ heq => by contradiction
  refine h.silent hi (.promote slot slot info label orch saveError hbefore hvacant hnext) rfl ?_
    (fun _ => rfl) ?_ ?_ (fun _ => ⟨slot, info, label, rfl⟩) hnext (fun hin => Or.inl hin)
  · refine ⟨hfacts.1, hvacant, ?_⟩
    rw [herror, AList.lookup_insert, Option.or_none]
    cases saveError with
    | none => exact Or.inl ⟨rfl, rfl⟩
    | some message => exact Or.inr ⟨rfl, by simp⟩
  · intro c hc
    exact AList.lookup_insert_ne fun heq => hc (congrArg some heq.symm)
  · intro c hc
    rw [slotClient_of_free hvacant] at hc
    contradiction

/-- A begin whose promotion was not saved takes the error. -/
theorem Followed.fail (h : Followed s) {client : ClientId} {info : BeginOutcome} {label : Label}
    (hi : s.tasks[i]? = some (.pairing cli request (.promoted client info label)))
    {message : String} (hunsaved : s.lastSaveError = some message) :
    Followed (({ s.clearOwnerIf cli with lastSaveError := none } : Runtime KeyPair).replace i
      (.pairing cli request (.removing client info message))) := by
  obtain ⟨huntold, hvacant, hout⟩ := h.stages (⟨request, hi⟩ : BeginAt s i cli _)
  have houtcome : s.outcomes.lookup client = some .unsaved := by
    rcases hout with ⟨-, hsaved⟩ | ⟨hu, -⟩
    · rw [hunsaved] at hsaved
      contradiction
    · exact hu
  refine h.silent hi (.fail client info label message hunsaved) rfl ?_ ?_ ?_ ?_
    (fun hne => absurd rfl hne) ?_ ?_ <;> rw [clearOwnerIf_eq]
  · exact ⟨huntold, hvacant, houtcome⟩
  · exact fun _ => rfl
  · exact fun _ _ => rfl
  · intro c hc
    rw [slotClient_of_free hvacant] at hc
    contradiction
  · exact fun hin => Or.inl hin

/-- A begin removes what was not saved. -/
theorem Followed.remove (h : Followed s) {client : ClientId} {info : BeginOutcome}
    {message : String}
    (hi : s.tasks[i]? = some (.pairing cli request (.removing client info message)))
    {orch : Orchestrator KeyPair} (hpending : orch.pending = s.orch.pending)
    (hsignal : orch.joinSignal = s.orch.joinSignal) (hnext : orch.next = s.orch.next) :
    Followed (({ s with orch := orch } : Runtime KeyPair).replace i
      (.pairing cli request (.clearing client info message))) := by
  have hat : BeginAt s i cli (.removing client info message) := ⟨request, hi⟩
  obtain ⟨huntold, hvacant, hout⟩ := h.stages hat
  refine h.silent hi (.remove client info message orch hpending hsignal hnext) rfl
    ⟨huntold, hpending.trans hvacant, hout⟩ (fun _ => rfl) (fun _ _ => rfl) ?_
    (h.no_error hat rfl fun _ _ _ heq => by contradiction) hnext (fun hin => Or.inl hin)
  intro c hc
  rw [slotClient_of_free (hpending.trans hvacant)] at hc
  contradiction

/-- A begin that does not create a client, or creates it alone, leaves the slot
followed. -/
theorem Followed.advance (h : Followed s) {stage stage' : PairStage KeyPair}
    (hi : s.tasks[i]? = some (.pairing cli request stage)) (hadvance : Advance s cli stage s' stage')
    (halone : stage = .queued → follows stage' = true →
      ∀ {j cli' other}, BeginAt s j cli' other → follows other = false) :
    Followed (s'.replace i (.pairing cli request stage')) := by
  have hat : BeginAt s i cli stage := ⟨request, hi⟩
  have hfacts := h.stages hat
  cases hadvance with
  | idle stage =>
    rw [replace_self hi]
    exact h
  | refuse orch err pending joinSignal next => exact h.refuse hi pending joinSignal next
  | create pp daemonIds unlocked free fresh =>
    exact h.create hi (.create pp daemonIds unlocked free fresh) rfl rfl rfl rfl (halone rfl rfl)
  | fill client pp info fresh => exact h.fill hi info fresh
  | record client info => exact h.record hi
  | lose client info free => exact h.lose hi free
  | promote client slot info label orch saveError before pending next =>
    exact h.promote hi label saveError before pending next
  | tellCancelled client info =>
    refine h.tell hi rfl (.tellCancelled client info) rfl ?_ ?_ ?_ hfacts.1
      ⟨_, hfacts.2, rfl, rfl⟩ (Or.inr ⟨rfl, ?_, ?_⟩) <;> rw [clearOwnerIf_eq]
  | tellCompleted client info label saved =>
    obtain ⟨huntold, hvacant, hout⟩ := hfacts
    have hpromoted : s.outcomes.lookup client = some .promoted := by
      rcases hout with ⟨hp, -⟩ | ⟨-, hne⟩
      · exact hp
      · exact absurd saved hne
    refine h.tell hi rfl (.tellCompleted client info label saved) rfl ?_ ?_ ?_ huntold
      ⟨_, hpromoted, rfl, rfl, rfl⟩ (Or.inl ⟨rfl, ?_, ?_⟩) <;> rw [clearOwnerIf_eq]
    · exact hvacant
    · exact saved
  | fail client info label message unsaved => exact h.fail hi unsaved
  | remove client info message orch pending joinSignal next =>
    exact h.remove hi pending joinSignal next
  | tellError client info message orch outcomes pending next kept =>
    obtain ⟨huntold, hvacant, hout⟩ := hfacts
    have herror := h.error_eq_none hat rfl fun _ _ _ heq => by contradiction
    exact h.tell hi rfl (.tellError client info message orch outcomes pending next kept) rfl rfl
      (kept hvacant) next huntold ⟨_, hout, rfl, rfl⟩ (Or.inl ⟨rfl, pending, herror⟩)

/-- Requests, disconnects and joins leave the slot followed. -/
theorem Followed.extend (h : Followed s) (hconsistent : Consistent s')
    {new : List (RuntimeTask KeyPair)} (htasks : s'.tasks = s.tasks ++ new)
    (hnew : ∀ cli request stage, .pairing cli request stage ∈ new → stage = .queued)
    (hpending : s'.orch.pending = s.orch.pending) (hnext : s'.orch.next = s.orch.next)
    (herror : s'.lastSaveError = s.lastSaveError) (hsent : s'.sent = s.sent)
    (houtcomes : s'.outcomes = s.outcomes) : Followed s' := by
  have hslot : slotClient s'.orch = slotClient s.orch := by rw [slotClient, hpending, slotClient]
  have hterminals := terminals_congr hsent
  have hold : ∀ {j cli stage}, BeginAt s' j cli stage → follows stage = true →
      BeginAt s j cli stage := by
    intro j cli stage hj hf
    rcases beginAt_append htasks hnew hj with hj' | rfl
    · exact hj'
    · contradiction
  refine ⟨hconsistent, fun hj hf hk hf' => h.alone (hold hj hf) hf (hold hk hf') hf', ?_, ?_, ?_, ?_,
    ?_⟩
  · intro j cli stage hj
    rcases beginAt_append htasks hnew hj with hj' | rfl
    · exact (h.stages hj').mono (fun c _ => hterminals c)
        (fun c _ => congrArg (AList.lookup c) houtcomes) fun _ => ⟨hpending, herror⟩
    · trivial
  · intro client hclient
    rw [hslot] at hclient
    obtain ⟨j, cli, info, hj⟩ := h.slot hclient
    exact ⟨j, cli, info, hj.imp (beginAt_append_left htasks) (beginAt_append_left htasks)⟩
  · intro hne
    rw [herror] at hne
    obtain ⟨j, cli, client, info, label, hj⟩ := h.error hne
    exact ⟨j, cli, client, info, label, beginAt_append_left htasks hj⟩
  · intro client hclient
    rw [houtcomes, hterminals] at hclient
    exact hnext.symm ▸ h.known hclient
  · intro cli client info hin
    rw [hsent] at hin
    obtain ⟨j, stage, hj, hstage⟩ := h.answered hin
    exact ⟨j, stage, beginAt_append_left htasks hj, hstage⟩

/-- A cancel leaves the slot followed: the begin whose pairing it took sees an
empty slot. -/
theorem Followed.cancel (h : Followed s) (hconsistent : Consistent s') {pairingId : Option String}
    (hi : s.tasks[i]? = some (.cancelling cli pairingId)) (htasks : s'.tasks = s.tasks.set i .done)
    (hnext : s'.orch.next = s.orch.next) (herror : s'.lastSaveError = s.lastSaveError)
    (hsent : s'.sent = s.sent)
    (htaken : (s'.orch.pending = s.orch.pending ∧ s'.outcomes = s.outcomes) ∨
      ∃ client, slotClient s.orch = some client ∧ s'.orch.pending = none ∧
        s'.outcomes = s.outcomes.insert client .cancelled) : Followed s' := by
  have hiff : ∀ {j cli' stage}, BeginAt s' j cli' stage ↔ BeginAt s j cli' stage :=
    beginAt_cancel hi htasks
  have hterminals := terminals_congr hsent
  refine ⟨hconsistent, fun hj hf hk hf' => h.alone (hiff.mp hj) hf (hiff.mp hk) hf', ?_, ?_, ?_, ?_,
    ?_⟩
  · intro j cli' stage hj
    have hj' := hiff.mp hj
    rcases htaken with ⟨hpending, houtcomes⟩ | ⟨client, hslot, hvacant, houtcomes⟩
    · exact (h.stages hj').mono (fun c _ => hterminals c)
        (fun c _ => congrArg (AList.lookup c) houtcomes) fun _ => ⟨hpending, herror⟩
    · cases hf : follows stage with
      | true =>
        have hcancelled : s'.outcomes.lookup client = some .cancelled := by
          rw [houtcomes, AList.lookup_insert]
        obtain ⟨info, rfl | rfl⟩ := h.stage_of_slot hj' hf hslot
        · exact ⟨(hterminals client).trans (h.stages hj').1, Or.inr ⟨hvacant, hcancelled⟩⟩
        · exact ⟨(hterminals client).trans (h.stages hj').1, Or.inr ⟨hvacant, hcancelled⟩⟩
      | false =>
        refine (h.stages hj').mono (fun c _ => hterminals c) ?_ fun ht => ?_
        · intro c hc
          rw [houtcomes]
          refine AList.lookup_insert_ne ?_
          rintro rfl
          obtain ⟨k, cli₀, info, hk | hk⟩ := h.slot hslot
          · obtain rfl := h.consistent.distinct hj' hc hk rfl
            rw [(beginAt_unique hj' hk).2] at hf
            contradiction
          · obtain rfl := h.consistent.distinct hj' hc hk rfl
            rw [(beginAt_unique hj' hk).2] at hf
            contradiction
        · rw [hf] at ht
          contradiction
  · intro client hclient
    rcases htaken with ⟨hpending, -⟩ | ⟨_, -, hvacant, -⟩
    · rw [slotClient, hpending] at hclient
      obtain ⟨j, cli', info, hj⟩ := h.slot hclient
      exact ⟨j, cli', info, hj.imp hiff.mpr hiff.mpr⟩
    · rw [slotClient_of_free hvacant] at hclient
      contradiction
  · intro hne
    rw [herror] at hne
    obtain ⟨j, cli', client, info, label, hj⟩ := h.error hne
    exact ⟨j, cli', client, info, label, hiff.mpr hj⟩
  · intro c hc
    rw [hnext]
    rw [hterminals] at hc
    rcases htaken with ⟨-, houtcomes⟩ | ⟨client, hslot, -, houtcomes⟩
    · rw [houtcomes] at hc
      exact h.known hc
    · rw [houtcomes, lookup_insert_eq] at hc
      by_cases heq : c = client
      · obtain ⟨k, cli₀, stage, hk, hstage⟩ := h.consistent.placed hslot
        exact heq ▸ (h.consistent.began hk hstage).1
      · rw [if_neg heq] at hc
        exact h.known hc
  · intro cli' client info hin
    rw [hsent] at hin
    obtain ⟨j, stage, hj, hstage⟩ := h.answered hin
    exact ⟨j, stage, hiff.mpr hj, hstage⟩

end Advance

section Runs

variable (deriveRegistrationProof : Bytes → String)

/-- Every event leaves the slot followed, if begins take it one at a time. -/
theorem Followed.step {s : Runtime KeyPair} (h : Followed s) {e : RuntimeEvent KeyPair}
    (hcond : OneAtATime deriveRegistrationProof s e) :
    Followed (runtimeStep deriveRegistrationProof s e) := by
  have hconsistent := h.consistent.step deriveRegistrationProof e
  cases happens deriveRegistrationProof h.consistent e with
  | nothing step =>
    rw [step]
    exact h
  | quiet request new queued tasks pending joinSignal next lastSaveError sent beganBy outcomes =>
    exact h.extend hconsistent tasks queued pending next lastSaveError sent outcomes
  | begin i draws cli request stage stage' s' at_ advance eq step =>
    rw [step]
    refine h.advance at_ advance fun hqueued hf j cli' other hj => ?_
    subst hqueued
    cases advance with
    | idle => contradiction
    | refuse => contradiction
    | create pp daemonIds unlocked free fresh =>
      have htakes : takesSlot deriveRegistrationProof s i draws = true := by
        rw [takesSlot, at_]
        dsimp only
        rw [unlocked, Bool.not_false, Bool.true_and]
        rcases beginCreate_cases deriveRegistrationProof s.orch request draws.begin with
          ⟨err, heq, -⟩ | ⟨-, failed, message, -, heq⟩ | ⟨-, pp', -, heq⟩
        · rw [Runtime.advancePairing, unlocked, if_neg Bool.false_ne_true, heq] at eq
          exact absurd (congrArg Prod.snd eq) (by simp)
        · rw [Runtime.advancePairing, unlocked, if_neg Bool.false_ne_true, heq] at eq
          exact absurd (congrArg Prod.snd eq) (by simp)
        · rw [heq]
      obtain ⟨request', hj⟩ := hj
      exact hcond htakes _ (List.mem_of_getElem? hj)
  | cancel i draws cli pairingId pp client orch at_ before fresh named pending next step =>
    rw [step] at hconsistent ⊢
    refine h.cancel hconsistent at_ rfl next rfl rfl (Or.inr ⟨client, ?_, pending, rfl⟩)
    exact slotClient_of_fresh before fresh
  | cancelNothing i draws cli pairingId at_ other step =>
    rw [step] at hconsistent ⊢
    exact h.cancel hconsistent at_ rfl rfl rfl rfl (Or.inl ⟨rfl, rfl⟩)

/-- Nobody follows the slot at first. -/
theorem followed_initial : Followed (.initial : Runtime KeyPair) := by
  have hnone : ∀ {i cli stage}, ¬BeginAt (.initial : Runtime KeyPair) i cli stage := by
    rintro i cli stage ⟨request, hi⟩
    exact absurd (List.mem_of_getElem? hi) List.not_mem_nil
  refine ⟨consistent_initial, fun hi _ _ _ => absurd hi hnone, fun hi => absurd hi hnone,
    fun hclient => by contradiction, fun hne => absurd rfl hne, fun hknown => ?_,
    fun hin => absurd hin List.not_mem_nil⟩
  rcases hknown with hsome | hne
  · contradiction
  · exact absurd rfl hne

/-- A begin that follows the slot after taking it finds the orchestrator free. -/
theorem Followed.unlocked {s : Runtime KeyPair} (h : Followed s) {i : ℕ} {cli : CliId}
    {stage : PairStage KeyPair} (hi : BeginAt s i cli stage) (hstage : follows stage = true)
    (hnot : stage.isConnecting = false) : s.locked = false := by
  rw [Bool.eq_false_iff]
  intro hlocked
  obtain ⟨task, htask, hholds⟩ := List.any_eq_true.mp hlocked
  obtain ⟨j, hj⟩ := List.mem_iff_getElem?.mp htask
  cases task with
  | pairing cli' request other =>
    cases other with
    | connecting client pp =>
      obtain rfl := h.alone ⟨request, hj⟩ rfl hi hstage
      rw [(beginAt_unique hi ⟨request, hj⟩).2] at hnot
      contradiction
    | _ => contradiction
  | cancelling cli' pairingId => contradiction
  | done => contradiction

/-- Once its pairing left the slot, a begin comes closer to telling with every
step. -/
theorem Followed.toGo_lt {s : Runtime KeyPair} (h : Followed s) {i : ℕ} {cli : CliId}
    {stage : PairStage KeyPair} {client : ClientId} (hi : BeginAt s i cli stage)
    (hclient : stage.client = some client) (hout : (s.outcomes.lookup client).isSome)
    (hgo : toGo stage ≠ 0) (draws : Draws KeyPair) : ∃ stage',
      BeginAt (runtimeStep deriveRegistrationProof s (.advance i draws)) i cli stage' ∧
        toGo stage' < toGo stage := by
  have hfacts := h.stages hi
  obtain ⟨request, htask⟩ := hi
  have hat : BeginAt s i cli stage := ⟨request, htask⟩
  have hnext : BeginAt (runtimeStep deriveRegistrationProof s (.advance i draws)) i cli
      (s.advancePairing deriveRegistrationProof cli request draws stage).2 := by
    have hadvance := advance_advancePairing deriveRegistrationProof h.consistent.slot cli request
      draws stage fun c pp heq => (h.consistent.held ⟨request, heq ▸ htask⟩).1
    refine beginAt_set_self htask ?_
    rw [runtimeStep, htask]
    dsimp only [Runtime.advanceTask]
    rw [hadvance.tasks]
  refine ⟨_, hnext, ?_⟩
  cases stage with
  | queued => contradiction
  | connecting c pp =>
    obtain rfl := Option.some.inj hclient
    rw [hfacts.2] at hout
    contradiction
  | begun c info => exact Nat.lt_succ_self 4
  | watching c info =>
    obtain rfl := Option.some.inj hclient
    have hfree : s.orch.pending = none := by
      rcases hfacts.2 with ⟨-, hnone⟩ | ⟨hfree, -⟩
      · rw [hnone] at hout
        contradiction
      · exact hfree
    rw [Runtime.advancePairing, h.unlocked hat rfl rfl, if_neg Bool.false_ne_true, poll_free hfree]
    exact (by decide : 1 < 4)
  | gone c info => exact Nat.lt_succ_self 0
  | promoted c info label =>
    rw [Runtime.advancePairing]
    split
    · exact (by decide : 0 < 3)
    · exact (by decide : 2 < 3)
  | removing c info message => exact Nat.lt_succ_self 1
  | clearing c info message =>
    rw [Runtime.advancePairing, h.unlocked hat rfl rfl, if_neg Bool.false_ne_true]
    exact (by decide : 0 < 1)
  | finished c info frame => exact absurd rfl hgo
  | refused => exact absurd rfl hgo

/-- Who follows the slot alone is told the truth, once. -/
theorem Followed.outcomesTold {s : Runtime KeyPair} (h : Followed s) :
    OutcomesTold deriveRegistrationProof s where
  answered := h.answered
  told hi := h.stages hi
  untold {i cli stage client} hi hclient hgo := by
    have hfacts := h.stages hi
    cases stage with
    | queued => contradiction
    | refused => contradiction
    | finished c info frame => exact absurd rfl hgo
    | _ =>
      obtain rfl := Option.some.inj hclient
      exact hfacts.1
  next hi hclient hout hgo draws := h.toGo_lt deriveRegistrationProof hi hclient hout hgo draws

/-- What was told about a begin that was answered is the truth. -/
theorem OutcomesTold.reports {s : Runtime KeyPair} (h : OutcomesTold deriveRegistrationProof s)
    {cli : CliId} {client : ClientId} {info : BeginOutcome} {told : SentFrame}
    (hanswered : ⟨cli, some client, .beginOk info⟩ ∈ s.sent) (htold : terminals s client = [told]) :
    ∃ outcome, s.outcomes.lookup client = some outcome ∧ Reports outcome info told.frame := by
  obtain ⟨i, stage, hat, hclient, hinfo⟩ := h.answered hanswered
  by_cases hgo : toGo stage = 0
  · cases stage with
    | finished c info' frame =>
      obtain rfl := Option.some.inj hclient
      obtain rfl := Option.some.inj hinfo
      obtain ⟨hone, hreports⟩ := h.told hat
      rw [htold, List.singleton_inj] at hone
      rw [hone]
      exact hreports
    | _ => contradiction
  · rw [h.untold hat hclient hgo] at htold
    contradiction

/-- While a begin takes the slot only when no earlier one still follows it,
every begin that was answered is told once, and truthfully, how its own pairing
ended. -/
theorem outcomes_told {events : List (RuntimeEvent KeyPair)}
    (h : Meets (runtimeStep deriveRegistrationProof) (OneAtATime deriveRegistrationProof) .initial
      events) : ∀ before, before <+: events →
      OutcomesTold deriveRegistrationProof
        (runFrom (runtimeStep deriveRegistrationProof) .initial before) := by
  intro before hbefore
  have hstep : ∀ (s : Runtime KeyPair) (e : RuntimeEvent KeyPair), Followed s →
      OneAtATime deriveRegistrationProof s e →
        Followed (runtimeStep deriveRegistrationProof s e) :=
    fun _ _ hs hc => hs.step deriveRegistrationProof hc
  have hfollowed := runFrom_induction_of_meets hstep followed_initial (meets_of_isPrefix hbefore h)
  exact hfollowed.outcomesTold deriveRegistrationProof

end Runs

/-- One pairing is completed, then another is begun and cancelled. -/
def oneAfterAnother : List (RuntimeEvent (Key × Key)) :=
  [.accept, .beginRequest 0 (sampleRequest "d0")] ++ goesOn 0 3 ++ [.join 0 "f"] ++ goesOn 0 2 ++
    [.accept, .beginRequest 1 (sampleRequest "d1")] ++ goesOn 1 3 ++
    [.cancelRequest 1 "pp-1-1"] ++ goesOn 2 1 ++ goesOn 1 2

/-- Both command lines are told what happened to their pairing. -/
theorem outcomes_told_one_after_another :
    OutcomesTold sampleProof (runFrom (runtimeStep sampleProof) .initial oneAfterAnother) ∧
      (runFrom (runtimeStep sampleProof) .initial oneAfterAnother).sent =
        [⟨0, some 0, .beginOk ⟨"pp-1-0", "tp://p?d=dHAE", "d0"⟩⟩,
          ⟨0, some 0, .completed "pp-1-0" "d0" .unset⟩,
          ⟨1, some 1, .beginOk ⟨"pp-1-1", "tp://p?d=dHAE", "d1"⟩⟩,
          ⟨1, some 1, .cancelled "pp-1-1"⟩] :=
  ⟨outcomes_told sampleProof (by decide +kernel) oneAfterAnother List.prefix_rfl, by decide +kernel⟩

/-- A pairing is cancelled, and another is begun before the first task polls
again. Then a frontend joins the second pairing, and the tasks poll in order. -/
def twoPollers : List (RuntimeEvent (Key × Key)) :=
  [.accept, .beginRequest 0 (sampleRequest "d0")] ++ goesOn 0 3 ++
    [.cancelRequest 0 "pp-1-0"] ++ goesOn 1 1 ++
    [.accept, .beginRequest 1 (sampleRequest "d1")] ++ goesOn 2 3 ++ [.join 1 "f"] ++
    goesOn 0 2 ++ goesOn 2 2

/-- The cancelled pairing is told as completed, and the promoted one as
cancelled. -/
theorem cancelled_pairing_told_completed :
    (runFrom (runtimeStep sampleProof) .initial twoPollers).sent =
      [⟨0, some 0, .beginOk ⟨"pp-1-0", "tp://p?d=dHAE", "d0"⟩⟩,
        ⟨1, some 1, .beginOk ⟨"pp-1-2", "tp://p?d=dHAE", "d1"⟩⟩,
        ⟨0, some 0, .completed "pp-1-0" "d0" .unset⟩, ⟨1, some 1, .cancelled "pp-1-2"⟩] ∧
      (runFrom (runtimeStep sampleProof) .initial twoPollers).outcomes.lookup 0 =
        some .cancelled ∧
      ¬OutcomesTold sampleProof (runFrom (runtimeStep sampleProof) .initial twoPollers) := by
  have hout : (runFrom (runtimeStep sampleProof) .initial twoPollers).outcomes.lookup 0 =
      some .cancelled := by decide +kernel
  refine ⟨by decide +kernel, hout, fun htold => ?_⟩
  obtain ⟨outcome, hlookup, hreports⟩ := htold.reports sampleProof
    (by decide +kernel : (⟨0, some 0, .beginOk ⟨"pp-1-0", "tp://p?d=dHAE", "d0"⟩⟩ : SentFrame) ∈
      (runFrom (runtimeStep sampleProof) .initial twoPollers).sent)
    (by decide +kernel : terminals (runFrom (runtimeStep sampleProof) .initial twoPollers) 0 =
      [⟨0, some 0, .completed "pp-1-0" "d0" .unset⟩])
  rw [hout, Option.some.injEq] at hlookup
  rw [← hlookup] at hreports
  exact absurd hreports.1 (by decide)

end Teleprompter.PairingOutcomes
