import Teleprompter.KeyExchange
import Teleprompter.SpawnedTasks
import Teleprompter.StepRuns

/-!
# The order in which control messages are handled

The read loop of a relay client opens one frame after another. Input for a
session is passed on at once. Any other message is handed to a spawned task
that first looks for the pooled client of the frontend, asking one client
after another for its peers, and then spawns a second task, in which the
dispatcher handles the message. Between the steps of a task the read loop
and all other tasks go on. JSON texts are read by an external library.
-/

namespace Teleprompter.ControlOrder

open FiniteDictionary StepRuns SpawnedTasks PairingCrypto RelayServer KeyExchange

/-- How JSON texts are read. -/
structure JsonReader (Value : Type) where
  /-- The value of a text. -/
  fromSlice : Bytes → Option Value
  /-- The text under a key of an object. -/
  getStr : Value → String → Option String
  /-- The value is a well-formed unpair or rename message. -/
  isControlMessage : Value → Bool

/-- Kinds of input. -/
inductive InputKind where
  | chat
  | term
  deriving DecidableEq

/-- What the client does with an opened frame. -/
inductive Dispatched (Value : Type) where
  | peerControl (msg : Value)
  | input (kind : InputKind) (sid d frontendId : String)
  | controlMessage (msg : Value) (frontendId : String)
  | dropped
  deriving DecidableEq

variable {Value : Type} (suite : CryptoSuite) (reader : JsonReader Value)

/-- Open a frame with the key of a peer and decide what it is. Frames that do
not open or do not parse are errors. -/
def decryptAndDispatch (frame : Frame) (frontendId : String) (rxKey : Key) :
    Option (Dispatched Value) :=
  (openBlob suite frame.ct rxKey).bind fun plaintext =>
    (reader.fromSlice plaintext).map fun msg =>
      let t := (reader.getStr msg "t").getD ""
      if frame.sid = "__control__" ∧ (t = "control.unpair" ∨ t = "control.rename") then
        if reader.isControlMessage msg then .peerControl msg else .dropped
      else if t = "in.chat" ∨ t = "in.term" then
        match reader.getStr msg "sid", reader.getStr msg "d" with
        | some sid, some d => .input (if t = "in.chat" then .chat else .term) sid d frontendId
        | _, _ => .dropped
      else .controlMessage msg frontendId

/-- A frame of a frontend: with the key of the named peer, else with the first
key that opens it. -/
def handleFrame (peers : Dict String FrontendPeer) (frame : Frame) : Option (Dispatched Value) :=
  if frame.sender = .frontend then
    match frame.frontendId.bind fun frontendId =>
      (peers.lookup frontendId).map fun peer => (frontendId, peer) with
    | some (frontendId, peer) =>
      decryptAndDispatch suite reader frame frontendId peer.sessionKeys.rx
    | none => peers.entries.findSome? fun entry =>
        decryptAndDispatch suite reader frame entry.1 entry.2.sessionKeys.rx
  else none

/-- Where a spawned control message stands. -/
inductive ControlStage where
  /-- The first task has not run yet. -/
  | spawned
  /-- Looks for the client of the frontend. -/
  | searching (candidates : List ClientId)
  /-- The second task has not run yet. -/
  | dispatched (link : ClientId)
  /-- The dispatcher has the message, or no client has the frontend. -/
  | finished
  deriving DecidableEq

/-- A message from a frontend, numbered by its delivery. -/
structure Delivery (Value : Type) where
  /-- The client that opened it. -/
  client : ClientId
  frontendId : String
  /-- How many frames the relay had delivered before. -/
  number : ℕ
  msg : Value
  deriving DecidableEq

/-- A spawned control message. -/
structure ControlTask (Value : Type) where
  delivery : Delivery Value
  stage : ControlStage
  deriving DecidableEq

/-- One step of a control message: the next stage, and whether the dispatcher
starts to handle it. -/
def ControlStage.step (relay : RelayClients) (frontendId : String) :
    ControlStage → ControlStage × Bool
  | .spawned => (.searching relay.pool.ids, false)
  | .searching [] => (.finished, false)
  | .searching (client :: candidates) =>
    if frontendId ∈ (relay.client client).peers.keys then (.dispatched client, false)
    else (.searching candidates, false)
  | .dispatched _ => (.finished, true)
  | .finished => (.finished, false)

/-- The relay clients, the spawned control messages in the order of spawning,
and what was handled in which order. -/
structure ControlSystem (Value : Type) where
  relay : RelayClients
  /-- Frames delivered by the relay so far. -/
  delivered : ℕ
  /-- Spawned control messages; finished ones stay. -/
  tasks : List (ControlTask Value)
  /-- Control messages the dispatcher started to handle. -/
  started : List (Delivery Value)
  /-- Inputs passed on to their runner. -/
  inputs : List (Delivery (InputKind × String × String))

/-- Nothing was delivered yet. -/
def ControlSystem.initial (relay : RelayClients) : ControlSystem Value := ⟨relay, 0, [], [], []⟩

/-- What can happen. -/
inductive ControlEvent where
  | deliver (client : ClientId) (frame : Frame)
  | poll (i : ℕ)
  | relay (e : ClientEvent)

/-- The read loop of a client takes one frame. -/
def ControlSystem.readFrame (s : ControlSystem Value) (client : ClientId) (frame : Frame) :
    ControlSystem Value :=
  match handleFrame suite reader (s.relay.client client).peers frame with
  | some (.controlMessage msg frontendId) =>
    { s with tasks := s.tasks ++ [⟨⟨client, frontendId, s.delivered, msg⟩, .spawned⟩] }
  | some (.input kind sid d frontendId) =>
    { s with inputs := s.inputs ++ [⟨client, frontendId, s.delivered, (kind, sid, d)⟩] }
  | _ => s

/-- One event. -/
def controlStep (s : ControlSystem Value) : ControlEvent → ControlSystem Value
  | .deliver client frame =>
    { s.readFrame suite reader client frame with delivered := s.delivered + 1 }
  | .poll i =>
    match s.tasks[i]? with
    | none => s
    | some task =>
      let polled := task.stage.step s.relay task.delivery.frontendId
      { s with
        tasks := s.tasks.set i { task with stage := polled.1 }
        started := if polled.2 then s.started ++ [task.delivery] else s.started }
  | .relay e => { s with relay := s.relay.step e }

/-- Two messages of one frontend through one client are in the order of
delivery. -/
def AsDelivered {V : Type} (first second : Delivery V) : Prop :=
  first.client = second.client → first.frontendId = second.frontendId →
    first.number < second.number

instance {V : Type} : DecidableRel (AsDelivered (V := V)) := fun first second =>
  inferInstanceAs (Decidable (first.client = second.client →
    first.frontendId = second.frontendId → first.number < second.number))

/-- The dispatcher starts handling control messages in the order of delivery. -/
def HandledInOrder (s : ControlSystem Value) : Prop := s.started.Pairwise AsDelivered

/-- The dispatcher is next. -/
def ControlStage.isDispatched : ControlStage → Bool
  | .dispatched _ => true
  | _ => false

/-- A message reaches the dispatcher only when no earlier one of the frontend
is still on its way. -/
def EarlierHandled (s : ControlSystem Value) : ControlEvent → Prop
  | .poll i => ∀ task ∈ s.tasks[i]?, task.stage.isDispatched = true →
      ∀ earlier ∈ s.tasks.take i, earlier.delivery.client = task.delivery.client →
        earlier.delivery.frontendId = task.delivery.frontendId → earlier.stage = .finished
  | _ => True

instance (s : ControlSystem Value) (e : ControlEvent) : Decidable (EarlierHandled s e) :=
  match e with
  | .poll i => inferInstanceAs (Decidable (∀ task ∈ s.tasks[i]?, task.stage.isDispatched = true →
      ∀ earlier ∈ s.tasks.take i, earlier.delivery.client = task.delivery.client →
        earlier.delivery.frontendId = task.delivery.frontendId → earlier.stage = .finished))
  | .deliver .. => isTrue trivial
  | .relay _ => isTrue trivial

/-- The dispatcher may still start to handle a message. -/
def MayStart (task : ControlTask Value) (delivery : Delivery Value) : Prop :=
  delivery = task.delivery ∧ task.stage ≠ .finished

/-- A finished task stays finished. -/
theorem ControlStage.not_finished_of_step {relay : RelayClients} {frontendId : String}
    {stage : ControlStage} (h : (stage.step relay frontendId).1 ≠ .finished) :
    stage ≠ .finished := by
  rintro rfl
  exact h rfl

/-- A message is handed over from the last stage, and the task is finished. -/
theorem ControlStage.step_started {relay : RelayClients} {frontendId : String}
    {stage : ControlStage} (h : (stage.step relay frontendId).2 = true) :
    stage.isDispatched = true ∧ stage ≠ .finished ∧
      (stage.step relay frontendId).1 = .finished := by
  cases stage with
  | spawned => exact absurd h nofun
  | searching candidates =>
    cases candidates with
    | nil => exact absurd h nofun
    | cons client candidates =>
      simp only [ControlStage.step] at h
      split at h <;> exact absurd h nofun
  | dispatched link => exact ⟨rfl, nofun, rfl⟩
  | finished => exact absurd h nofun

/-- What every run keeps while earlier messages are handled first. -/
structure ControlInv (s : ControlSystem Value) : Prop where
  /-- Handled messages, and those still on their way, are in order. -/
  ordered : SortedSoFar MayStart AsDelivered s.tasks s.started
  /-- Messages were spawned in the order of delivery. -/
  numbered : (s.tasks.map ControlTask.delivery).Pairwise fun first second =>
    first.number < second.number
  /-- Spawned messages were delivered. -/
  spawned : ∀ delivery ∈ s.tasks.map ControlTask.delivery, delivery.number < s.delivered
  /-- Handled messages were delivered. -/
  handled : ∀ delivery ∈ s.started, delivery.number < s.delivered

/-- A control message is spawned with the next number; other frames leave the
control messages alone. -/
theorem ControlSystem.readFrame_cases (s : ControlSystem Value) (client : ClientId)
    (frame : Frame) :
    (s.readFrame suite reader client frame).started = s.started ∧
      ((s.readFrame suite reader client frame).tasks = s.tasks ∨
        ∃ msg frontendId, (s.readFrame suite reader client frame).tasks =
          s.tasks ++ [⟨⟨client, frontendId, s.delivered, msg⟩, .spawned⟩]) := by
  unfold ControlSystem.readFrame
  split
  · next msg frontendId _ => exact ⟨rfl, .inr ⟨msg, frontendId, rfl⟩⟩
  · exact ⟨rfl, .inl rfl⟩
  · exact ⟨rfl, .inl rfl⟩

/-- A delivered frame keeps the invariant. -/
theorem ControlInv.deliver {s : ControlSystem Value} (h : ControlInv s) (client : ClientId)
    (frame : Frame) : ControlInv (controlStep suite reader s (.deliver client frame)) := by
  have hspawned : ∀ delivery ∈ s.tasks.map ControlTask.delivery,
      delivery.number < s.delivered + 1 := fun d hd => (h.spawned d hd).trans (Nat.lt_succ_self _)
  have hhandled : ∀ delivery ∈ s.started, delivery.number < s.delivered + 1 :=
    fun d hd => (h.handled d hd).trans (Nat.lt_succ_self _)
  obtain ⟨hstarted, hsame | ⟨msg, frontendId, hnew⟩⟩ := s.readFrame_cases suite reader client frame
  · refine ⟨?_, ?_, ?_, ?_⟩ <;> simp only [controlStep, hstarted, hsame]
    · exact h.ordered
    · exact h.numbered
    · exact hspawned
    · exact hhandled
  · refine ⟨?_, ?_, ?_, ?_⟩ <;>
      simp only [controlStep, hstarted, hnew, List.map_append, List.map_cons, List.map_nil]
    · refine h.ordered.spawn fun first hfirst second hsecond _ _ => ?_
      have hlt := h.handled first hfirst
      rw [hsecond.1]
      exact hlt
    · refine List.pairwise_append.mpr ⟨h.numbered, List.pairwise_singleton _ _, ?_⟩
      intro first hfirst second hsecond
      rw [List.mem_singleton.mp hsecond]
      exact h.spawned first hfirst
    · intro delivery hdelivery
      rcases List.mem_append.mp hdelivery with hold | hlast
      · exact hspawned delivery hold
      · rw [List.mem_singleton.mp hlast]
        exact Nat.lt_succ_self _
    · exact hhandled

/-- A step of a message that lets earlier ones be handled first keeps the
order. -/
theorem ControlInv.poll_ordered {s : ControlSystem Value} (h : ControlInv s) {i : ℕ}
    {task : ControlTask Value} (htask : s.tasks[i]? = some task)
    (hc : EarlierHandled s (.poll i)) :
    SortedSoFar MayStart AsDelivered
      (s.tasks.set i
        { task with stage := (task.stage.step s.relay task.delivery.frontendId).1 })
      (if (task.stage.step s.relay task.delivery.frontendId).2 then s.started ++ [task.delivery]
        else s.started) := by
  by_cases hstarts : (task.stage.step s.relay task.delivery.frontendId).2 = true
  · obtain ⟨hdispatched, hbefore, hafter⟩ := ControlStage.step_started hstarts
    rw [if_pos hstarts]
    refine h.ordered.emit htask ⟨rfl, hbefore⟩ ?_ ?_
    · intro later hlater
      exact absurd hafter hlater.2
    · intro j other hji hj later hlater hclient hfrontend
      rw [hlater.1] at hclient hfrontend ⊢
      rcases Nat.lt_or_gt_of_ne hji with hlt | hgt
      · have hearlier : other ∈ s.tasks.take i := mem_take_of_lt hj hlt
        have hdone := hc task htask hdispatched other hearlier hclient.symm hfrontend.symm
        exact absurd hdone hlater.2
      · have hlt := rel_of_lt h.numbered htask hj hgt
        exact hlt
  · rw [if_neg hstarts]
    refine h.ordered.advance htask fun delivery hmay => ⟨hmay.1, ?_⟩
    exact ControlStage.not_finished_of_step hmay.2

/-- Every event keeps the invariant while earlier messages are handled first. -/
theorem ControlInv.step {s : ControlSystem Value} (h : ControlInv s) {e : ControlEvent}
    (hc : EarlierHandled s e) : ControlInv (controlStep suite reader s e) := by
  cases e with
  | deliver client frame => exact h.deliver suite reader client frame
  | poll i =>
    cases htask : s.tasks[i]? with
    | none => simpa only [controlStep, htask] using h
    | some task =>
      have hdeliveries : ∀ stage, (s.tasks.set i { task with stage := stage }).map
          ControlTask.delivery = s.tasks.map ControlTask.delivery :=
        fun stage => map_set_same htask rfl
      have hmem : task.delivery ∈ s.tasks.map ControlTask.delivery :=
        List.mem_map_of_mem (List.mem_of_getElem? htask)
      simp only [controlStep, htask]
      refine ⟨h.poll_ordered htask hc, ?_, ?_, ?_⟩
      · rw [hdeliveries]
        exact h.numbered
      · rw [hdeliveries]
        exact h.spawned
      · intro delivery hdelivery
        split at hdelivery
        · rcases List.mem_append.mp hdelivery with hold | hnew
          · exact h.handled delivery hold
          · rw [List.mem_singleton.mp hnew]
            exact h.spawned task.delivery hmem
        · exact h.handled delivery hdelivery
  | relay e => exact ⟨h.ordered, h.numbered, h.spawned, h.handled⟩

/-- The dispatcher starts handling the control messages of a frontend in the
order of delivery in every run in which no message overtakes an earlier one
that is still on its way. -/
theorem control_in_order (relay : RelayClients) {events before : List ControlEvent}
    (hm : Meets (controlStep suite reader) EarlierHandled (ControlSystem.initial relay) events)
    (hp : before <+: events) :
    HandledInOrder (runFrom (controlStep suite reader) (ControlSystem.initial relay) before) := by
  have hinit : ControlInv (ControlSystem.initial relay : ControlSystem Value) :=
    ⟨sortedSoFar_nil, List.Pairwise.nil, nofun, nofun⟩
  have hstep : ∀ s e, ControlInv s → EarlierHandled s e →
      ControlInv (controlStep suite reader s e) := fun s e h hc => h.step suite reader hc
  have hinv := runFrom_induction_of_meets hstep hinit (meets_of_isPrefix hp hm)
  exact hinv.ordered.sorted

/-- Inputs are passed on in order, and were delivered. -/
structure InputInv (s : ControlSystem Value) : Prop where
  /-- Inputs are in the order of delivery. -/
  ordered : s.inputs.Pairwise AsDelivered
  /-- Inputs were delivered. -/
  below : ∀ delivery ∈ s.inputs, delivery.number < s.delivered

/-- Every event keeps inputs in order. -/
theorem InputInv.step {s : ControlSystem Value} (h : InputInv s) (e : ControlEvent) :
    InputInv (controlStep suite reader s e) := by
  cases e with
  | deliver client frame =>
    have hbelow : ∀ delivery ∈ s.inputs, delivery.number < s.delivered + 1 :=
      fun d hd => (h.below d hd).trans (Nat.lt_succ_self _)
    simp only [controlStep, ControlSystem.readFrame]
    split
    · exact ⟨h.ordered, hbelow⟩
    · refine ⟨List.pairwise_append.mpr ⟨h.ordered, List.pairwise_singleton _ _, ?_⟩, ?_⟩
      · intro first hfirst second hsecond _ _
        rw [List.mem_singleton.mp hsecond]
        exact h.below first hfirst
      · intro delivery hdelivery
        rcases List.mem_append.mp hdelivery with hold | hnew
        · exact hbelow delivery hold
        · rw [List.mem_singleton.mp hnew]
          exact Nat.lt_succ_self _
    · exact ⟨h.ordered, hbelow⟩
  | poll i =>
    cases htask : s.tasks[i]? with
    | none => simpa only [controlStep, htask] using h
    | some task =>
      simp only [controlStep, htask]
      exact ⟨h.ordered, h.below⟩
  | relay e => exact ⟨h.ordered, h.below⟩

/-- Inputs, which the read loop passes on itself, are always handled in the
order of delivery. -/
theorem inputs_in_order (relay : RelayClients) (events : List ControlEvent) :
    (runFrom (controlStep suite reader) (ControlSystem.initial relay) events).inputs.Pairwise
      AsDelivered := by
  have hinit : InputInv (ControlSystem.initial relay : ControlSystem Value) :=
    ⟨List.Pairwise.nil, nofun⟩
  have hstep : ∀ s e, InputInv s → InputInv (controlStep suite reader s e) :=
    fun s e h => h.step suite reader e
  have hinv := runFrom_induction hstep hinit events
  exact hinv.ordered

/-- JSON text of the first resize. -/
def firstResizeJson : Bytes :=
  bytesOfNat 38 0x7b2274223a22726573697a65222c22736964223a2273222c22636f6c73223a38302c22726f77 ++
    bytesOfNat 6 0x73223a32347d

/-- Nonce, ciphertext and tag of the first resize under the session key. -/
def firstResizeBlob : Bytes :=
  bytesOfNat 38 0x111111111111111111111111111111111111111111111111460c72e63fe5dc136c42028d1b5c ++
    bytesOfNat 38 0x38c972d64735ca2ba66b48cebd893f898598bcfabed58815e24a166ee609c26b8f9f21be734c ++
    bytesOfNat 8 0x3398242ef8ee08de

/-- Base64 of the first sealed resize. -/
def firstResizeCt : String :=
  "ERERERERERERERERERERERERERERERERRgxy5j/l3BNsQgKNG1w4yXLWRzXKK6ZrSM69iT+JhZi8" ++
    "+r7ViBXiShZu5gnCa4+fIb5zTDOYJC747gje"

/-- JSON text of the second resize. -/
def secondResizeJson : Bytes :=
  bytesOfNat 38 0x7b2274223a22726573697a65222c22736964223a2273222c22636f6c73223a3132302c22726f ++
    bytesOfNat 7 0x7773223a34307d

/-- Nonce, ciphertext and tag of the second resize under the session key. -/
def secondResizeBlob : Bytes :=
  bytesOfNat 38 0x1212121212121212121212121212121212121212121212128274f1e985f78fd50dd8d35e8549 ++
    bytesOfNat 38 0xd93868f0a65d991bd10be67e0b2b6b9b1a4923dfb15485202d88082ff322091708fb08050461 ++
    bytesOfNat 9 0x5cc394e536d59ca514

/-- Base64 of the second sealed resize. -/
def secondResizeCt : String :=
  "EhISEhISEhISEhISEhISEhISEhISEhISgnTx6YX3j9UN2NNehUnZOGjwpl2ZG9EL5n4LK2ubGkkj" ++
    "37FUhSAtiAgv8yIJFwj7CAUEYVzDlOU21ZylFA=="

/-- The cipher and base64 on the two resizes. -/
def resizeSuite : CryptoSuite :=
  { sampleSuite with
    fromBase64 := fun text =>
      if text = firstResizeCt then some firstResizeBlob
      else if text = secondResizeCt then some secondResizeBlob
      else none
    aeadDecrypt := fun key nonce ct =>
      if key = sampleSecondHalf ∧ nonce.bytes ++ ct = firstResizeBlob then some firstResizeJson
      else if key = sampleSecondHalf ∧ nonce.bytes ++ ct = secondResizeBlob then
        some secondResizeJson
      else none }

/-- A resize message. -/
structure ResizeMsg where
  sid : String
  cols : ℕ
  rows : ℕ
  deriving DecidableEq

/-- JSON on the two resizes. -/
def resizeReader : JsonReader ResizeMsg where
  fromSlice bytes :=
    if bytes = firstResizeJson then some ⟨"s", 80, 24⟩
    else if bytes = secondResizeJson then some ⟨"s", 120, 40⟩
    else none
  getStr msg key := if key = "t" then some "resize" else if key = "sid" then some msg.sid else none
  isControlMessage _ := false

/-- One client that has exchanged keys with one frontend. -/
def onePeer : ControlSystem ResizeMsg :=
  ControlSystem.initial (samplePool "f"
    ⟨sampleAppPublic, ⟨sampleSecondHalf, sampleFirstHalf⟩, 3, none, none⟩)

/-- The relay delivers the two resizes of a frontend in order. -/
def twoResizes : List ControlEvent :=
  [.deliver 0 ⟨"s", firstResizeCt, 0, .frontend, some "f"⟩,
    .deliver 0 ⟨"s", secondResizeCt, 0, .frontend, some "f"⟩]

/-- A control message runs from its spawn to the dispatcher. -/
def pollToDispatcher (i : ℕ) : List ControlEvent := List.replicate 3 (.poll i)

/-- One message after the other: the larger window is applied last. -/
theorem control_in_order_two_resizes :
    Meets (controlStep resizeSuite resizeReader) EarlierHandled onePeer
        (twoResizes ++ pollToDispatcher 0 ++ pollToDispatcher 1) ∧
      HandledInOrder (runFrom (controlStep resizeSuite resizeReader) onePeer
        (twoResizes ++ pollToDispatcher 0 ++ pollToDispatcher 1)) ∧
      (runFrom (controlStep resizeSuite resizeReader) onePeer
        (twoResizes ++ pollToDispatcher 0 ++ pollToDispatcher 1)).started.map Delivery.msg =
        [⟨"s", 80, 24⟩, ⟨"s", 120, 40⟩] := by
  have hm : Meets (controlStep resizeSuite resizeReader) EarlierHandled onePeer
      (twoResizes ++ pollToDispatcher 0 ++ pollToDispatcher 1) := by decide +kernel
  exact ⟨hm, control_in_order resizeSuite resizeReader _ hm List.prefix_rfl, by decide +kernel⟩

/-- The second message runs first: the window keeps the size it had before. -/
theorem control_overtaken :
    (runFrom (controlStep resizeSuite resizeReader) onePeer
        (twoResizes ++ pollToDispatcher 1 ++ pollToDispatcher 0)).started.map Delivery.msg =
        [⟨"s", 120, 40⟩, ⟨"s", 80, 24⟩] ∧
      ¬HandledInOrder (runFrom (controlStep resizeSuite resizeReader) onePeer
        (twoResizes ++ pollToDispatcher 1 ++ pollToDispatcher 0)) := by
  refine ⟨by decide +kernel, ?_⟩
  unfold HandledInOrder
  decide +kernel

end Teleprompter.ControlOrder
