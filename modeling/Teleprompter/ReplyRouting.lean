import Teleprompter.ControlOrder

/-!
# Replies through the client that was asked

A client opens a frame with the keys of one of its peers and hands the message
on with the frontend's name only. The task that answers looks the client up
again: it asks the pooled clients, in the order of the pool, which of them has
the frontend as a peer. An app has one name in all of its pairings, and peers
are never removed, so several clients may have it. Clients are numbered in the
order in which they join the pool; one that is still pending has a number that
was not handed out yet.
-/

namespace Teleprompter.ReplyRouting

open FiniteDictionary StepRuns PairingCrypto RelayServer KeyExchange ControlOrder

/-- What a client passes on with the name of a frontend. -/
inductive Request (Value : Type) where
  | control (msg : Value)
  /-- Input for a session without a runner. -/
  | noRunner (sid : String)
  | joined
  deriving DecidableEq

/-- What leaves through a client, or is dispatched with it. -/
inductive AnswerBody (Value : Type) where
  | dispatch (msg : Value)
  | err (channel code message : String)
  | hello (daemonLabel : Label) (pct : Option String)
  deriving DecidableEq

/-- An answer, and the client it goes through. -/
structure Answer (Value : Type) where
  link : ClientId
  frontendId : String
  body : AnswerBody Value
  deriving DecidableEq

/-- A task that answers. -/
structure RoutedTask (Value : Type) where
  /-- The client that opened the message. -/
  client : ClientId
  frontendId : String
  request : Request Value
  stage : ControlStage
  answer : Option (Answer Value)
  deriving DecidableEq

/-- Clients, runners and tasks. -/
structure RoutingSystem (Value : Type) where
  relay : RelayClients
  /-- Sessions with a connected runner. -/
  runners : KeySet String
  /-- Spawned tasks; finished ones stay. -/
  tasks : List (RoutedTask Value)

/-- No message was opened yet. -/
def RoutingSystem.initial {Value : Type} (relay : RelayClients) : RoutingSystem Value :=
  ⟨relay, ∅, []⟩

/-- What can happen. -/
inductive RoutingEvent where
  | frame (client : ClientId) (frame : Frame)
  | keyExchange (client : ClientId) (sender : Role) (ct : String) (nonce : Nonce)
  | connect (client : ClientId) (socket : ConnId)
  | authOk (client : ClientId) (resumed : Bool) (nonce : Nonce)
  | disconnect (client : ClientId)
  | register
  | remove (client : ClientId)
  | runner (sid : String) (connected : Bool)
  | poll (i : ℕ)

variable {Value : Type} {suite : CryptoSuite} (reader : JsonReader Value)
  (config : ClientId → DaemonConfig suite) (label : ClientId → Option Label)

/-- Spawn a task for a message that a client opened. -/
def RoutingSystem.spawn (s : RoutingSystem Value) (client : ClientId) (frontendId : String)
    (request : Request Value) : RoutingSystem Value :=
  { s with tasks := s.tasks ++ [⟨client, frontendId, request, .spawned, none⟩] }

/-- The read loop of a client takes one frame. -/
def RoutingSystem.readFrame (suite : CryptoSuite) (s : RoutingSystem Value) (client : ClientId)
    (frame : Frame) : RoutingSystem Value :=
  match handleFrame suite reader (s.relay.client client).peers frame with
  | some (.controlMessage msg frontendId) => s.spawn client frontendId (.control msg)
  | some (.input _ sid _ frontendId) =>
    if sid ∈ s.runners ∨ frontendId = "" then s else s.spawn client frontendId (.noRunner sid)
  | _ => s

/-- Change the state of a client. -/
def RoutingSystem.change (s : RoutingSystem Value) (client : ClientId)
    (f : DaemonClient → DaemonClient) : RoutingSystem Value :=
  { s with relay := s.relay.step (.change client (f (s.relay.client client))) }

/-- A key exchange adds a peer, and its frontend joined. -/
def RoutingSystem.readKeyExchange (s : RoutingSystem Value) (client : ClientId) (sender : Role)
    (ct : String) (nonce : Nonce) : RoutingSystem Value :=
  match readKxFrame suite (s.relay.client client) sender ct with
  | some (_, frontendId, _) =>
    (s.change client fun state => (handleKxFrame (config client) state sender ct nonce).1).spawn
      client frontendId .joined
  | none => s

/-- What is answered through the client that was found. A hello carries the
label of the client that was joined and the tag of the client it is sent
through. -/
def answerBody (relay : RelayClients) (task : RoutedTask Value) (link : ClientId) :
    AnswerBody Value :=
  match task.request with
  | .control msg => .dispatch msg
  | .noRunner sid => .err sid "NO_RUNNER" ("No runner for session " ++ sid)
  | .joined => .hello ((label task.client).getD .unset)
      (((relay.client link).peers.lookup task.frontendId).bind FrontendPeer.pctB64)

/-- A task goes on: it looks for the client, or answers through the one it
found. -/
def RoutedTask.poll (relay : RelayClients) (task : RoutedTask Value) : RoutedTask Value :=
  { task with
    stage := (task.stage.step relay task.frontendId).1
    answer := match task.stage with
      | .dispatched link => some ⟨link, task.frontendId, answerBody label relay task link⟩
      | _ => task.answer }

/-- One event. -/
def routingStep (s : RoutingSystem Value) : RoutingEvent → RoutingSystem Value
  | .frame client frame => s.readFrame reader suite client frame
  | .keyExchange client sender ct nonce => s.readKeyExchange config client sender ct nonce
  | .connect client socket => s.change client (DaemonClient.connect (config client) socket)
  | .authOk client resumed nonce =>
    s.change client fun state => (handleAuthOk (config client) state resumed nonce).1
  | .disconnect client =>
    s.change client fun state => { state with socket := none, authenticated := false }
  | .register => { s with relay := s.relay.step .register }
  | .remove client => { s with relay := s.relay.step (.remove client) }
  | .runner sid connected =>
    { s with runners := if connected then s.runners.insert sid () else s.runners.erase sid }
  | .poll i =>
    match s.tasks[i]? with
    | some task => { s with tasks := s.tasks.set i (task.poll label s.relay) }
    | none => s

/-- The task answered through the client that opened the message. -/
def RoutedTask.AnsweredThroughOwn (task : RoutedTask Value) : Prop :=
  ∃ answer ∈ task.answer, answer.link = task.client ∧ answer.frontendId = task.frontendId

/-- Every task that is finished answered through the client that opened the
message. -/
def AllThroughOwn (s : RoutingSystem Value) : Prop :=
  ∀ task ∈ s.tasks, task.stage = .finished → task.AnsweredThroughOwn

/-- When a task looks for the client, the one that opened the message is
pooled, and no other client that is asked before it has the frontend as a
peer. -/
def OwnFirst (s : RoutingSystem Value) : RoutingEvent → Prop
  | .poll i => ∀ task ∈ s.tasks[i]?,
    match task.stage with
    | .spawned => task.client ∈ s.relay.pool.ids
    | .searching (asked :: _) =>
      task.frontendId ∈ (s.relay.client asked).peers.keys → asked = task.client
    | _ => True
  | _ => True

/-- The task may still answer through the client that opened the message. -/
def OnTrack (task : RoutedTask Value) : Prop :=
  match task.stage with
  | .spawned => True
  | .searching candidates => task.client ∈ candidates
  | .dispatched link => link = task.client
  | .finished => task.AnsweredThroughOwn

/-- The frontend that an opened message is passed on with. -/
def passedWith : Dispatched Value → Option String
  | .controlMessage _ frontendId => some frontendId
  | .input _ _ _ frontendId => some frontendId
  | _ => none

/-- A message is passed on with the name of the peer whose key opened it. -/
theorem passedWith_decryptAndDispatch {frame : Frame} {frontendId : String} {rxKey : Key}
    {dispatched : Dispatched Value}
    (h : decryptAndDispatch suite reader frame frontendId rxKey = some dispatched)
    {passed : String} (hp : passedWith dispatched = some passed) : passed = frontendId := by
  obtain ⟨plaintext, -, hmsg⟩ := Option.bind_eq_some_iff.mp h
  obtain ⟨msg, -, rfl⟩ := Option.map_eq_some_iff.mp hmsg
  dsimp only at hp
  split at hp
  · split at hp
    · contradiction
    · contradiction
  · split at hp
    · split at hp
      · exact (Option.some.inj hp).symm
      · contradiction
    · exact (Option.some.inj hp).symm

/-- A message is passed on with the name of a peer. -/
theorem passedWith_handleFrame {peers : Dict String FrontendPeer} {frame : Frame}
    {dispatched : Dispatched Value} (h : handleFrame suite reader peers frame = some dispatched)
    {passed : String} (hp : passedWith dispatched = some passed) : passed ∈ peers := by
  unfold handleFrame at h
  split at h
  · split at h
    · rename_i frontendId peer hnamed
      obtain ⟨name, -, hpeer⟩ := Option.bind_eq_some_iff.mp hnamed
      obtain ⟨found, hfound, heq⟩ := Option.map_eq_some_iff.mp hpeer
      rw [passedWith_decryptAndDispatch reader h hp, ← (Prod.mk.inj heq).1]
      exact mem_iff_lookup.mpr ⟨found, hfound⟩
    · obtain ⟨entry, hentry, hopen⟩ := List.exists_of_findSome?_eq_some h
      rw [passedWith_decryptAndDispatch reader hopen hp]
      exact AList.mem_keys.mp (List.mem_map_of_mem hentry)
  · contradiction

/-- The state of a client after one of them changed. -/
theorem client_change (s : RoutingSystem Value) (client other : ClientId)
    (f : DaemonClient → DaemonClient) : (s.change client f).relay.client other =
      if other = client then f (s.relay.client client) else s.relay.client other := by
  unfold RoutingSystem.change RelayClients.step RelayClients.client
  dsimp only
  rw [lookup_insert_eq]
  by_cases h : other = client
  · rw [if_pos h, if_pos h, Option.getD_some]
  · rw [if_neg h, if_neg h]

/-- A change of a client that keeps its peers keeps all peers. -/
theorem peers_change {s : RoutingSystem Value} {client : ClientId}
    (f : DaemonClient → DaemonClient)
    (hf : ∀ frontendId ∈ (s.relay.client client).peers,
      frontendId ∈ (f (s.relay.client client)).peers)
    {other : ClientId} {frontendId : String} (h : frontendId ∈ (s.relay.client other).peers) :
    frontendId ∈ ((s.change client f).relay.client other).peers := by
  rw [client_change]
  by_cases heq : other = client
  · rw [if_pos heq]
    exact hf frontendId (heq ▸ h)
  · rw [if_neg heq]
    exact h

/-- A key exchange that is read makes its frontend a peer and keeps the others. -/
theorem mem_peers_handleKxFrame (config : DaemonConfig suite) {client : DaemonClient}
    {sender : Role} {ct : String} (nonce : Nonce) {payload : KxPayload} {frontendId : String}
    {key : Key} (h : readKxFrame suite client sender ct = some (payload, frontendId, key))
    (other : String) : other ∈ (handleKxFrame config client sender ct nonce).1.peers ↔
      other = frontendId ∨ other ∈ client.peers := by
  rw [handleKxFrame, h]
  exact AList.mem_insert _

/-- Peers are never removed. -/
theorem peers_routingStep (s : RoutingSystem Value) (e : RoutingEvent) {client : ClientId}
    {frontendId : String} (h : frontendId ∈ (s.relay.client client).peers) :
    frontendId ∈ ((routingStep reader config label s e).relay.client client).peers := by
  cases e with
  | frame receiver frame =>
    rw [routingStep, RoutingSystem.readFrame]
    split
    · exact h
    · split
      · exact h
      · exact h
    · exact h
  | keyExchange receiver sender ct nonce =>
    rw [routingStep, RoutingSystem.readKeyExchange]
    split
    · rename_i hread
      have hkept : ∀ other ∈ (s.relay.client receiver).peers, other ∈
          (handleKxFrame (config receiver) (s.relay.client receiver) sender ct nonce).1.peers :=
        fun other hother =>
          (mem_peers_handleKxFrame (config receiver) nonce hread other).mpr (Or.inr hother)
      exact peers_change
        (fun state => (handleKxFrame (config receiver) state sender ct nonce).1) hkept h
    · exact h
  | connect receiver socket => exact peers_change _ (fun _ hother => hother) h
  | authOk receiver resumed nonce => exact peers_change _ (fun _ hother => hother) h
  | disconnect receiver => exact peers_change _ (fun _ hother => hother) h
  | register => exact h
  | remove receiver => exact h
  | runner sid connected => exact h
  | poll i =>
    rw [routingStep]
    split
    · exact h
    · exact h

/-- The frontend of every task is a peer of the client that opened the
message, and the answer comes last. -/
def Known (s : RoutingSystem Value) : Prop :=
  ∀ task ∈ s.tasks, task.frontendId ∈ (s.relay.client task.client).peers ∧
    (task.stage ≠ .finished → task.answer = none)

/-- A step polls one task, or spawns tasks for peers. -/
theorem routingStep_tasks (s : RoutingSystem Value) (e : RoutingEvent) :
    (∃ i task, e = .poll i ∧ s.tasks[i]? = some task ∧
      routingStep reader config label s e =
        { s with tasks := s.tasks.set i (task.poll label s.relay) }) ∨
    (∃ new, (routingStep reader config label s e).tasks = s.tasks ++ new ∧
      (∀ task ∈ new,
        task.frontendId ∈ ((routingStep reader config label s e).relay.client task.client).peers ∧
          task.answer = none ∧ task.stage = .spawned) ∧
      OwnFirst s e) := by
  cases e with
  | frame receiver frame =>
    right
    rw [routingStep, RoutingSystem.readFrame]
    split
    · rename_i msg frontendId hframe
      refine ⟨_, rfl, fun task htask => ?_, trivial⟩
      rw [List.mem_singleton.mp htask]
      exact ⟨passedWith_handleFrame reader hframe rfl, rfl, rfl⟩
    · rename_i kind sid d frontendId hframe
      split
      · exact ⟨[], (List.append_nil _).symm, by simp, trivial⟩
      · refine ⟨_, rfl, fun task htask => ?_, trivial⟩
        rw [List.mem_singleton.mp htask]
        exact ⟨passedWith_handleFrame reader hframe rfl, rfl, rfl⟩
    · exact ⟨[], (List.append_nil _).symm, by simp, trivial⟩
  | keyExchange receiver sender ct nonce =>
    right
    rw [routingStep, RoutingSystem.readKeyExchange]
    split
    · rename_i payload frontendId key hread
      refine ⟨_, rfl, fun task htask => ?_, trivial⟩
      rw [List.mem_singleton.mp htask]
      refine ⟨?_, rfl, rfl⟩
      have hclient := client_change s receiver receiver fun state =>
        (handleKxFrame (config receiver) state sender ct nonce).1
      rw [if_pos rfl] at hclient
      have hpeer := (mem_peers_handleKxFrame (config receiver) nonce hread
        frontendId).mpr (Or.inl rfl)
      rw [← hclient] at hpeer
      exact hpeer
    · exact ⟨[], (List.append_nil _).symm, by simp, trivial⟩
  | connect receiver socket => exact Or.inr ⟨[], (List.append_nil _).symm, by simp, trivial⟩
  | authOk receiver resumed nonce => exact Or.inr ⟨[], (List.append_nil _).symm, by simp, trivial⟩
  | disconnect receiver => exact Or.inr ⟨[], (List.append_nil _).symm, by simp, trivial⟩
  | register => exact Or.inr ⟨[], (List.append_nil _).symm, by simp, trivial⟩
  | remove receiver => exact Or.inr ⟨[], (List.append_nil _).symm, by simp, trivial⟩
  | runner sid connected => exact Or.inr ⟨[], (List.append_nil _).symm, by simp, trivial⟩
  | poll i =>
    cases htask : s.tasks[i]? with
    | some task =>
      left
      refine ⟨i, task, rfl, htask, ?_⟩
      rw [routingStep, htask]
    | none =>
      right
      rw [routingStep, htask]
      refine ⟨[], (List.append_nil _).symm, by simp, ?_⟩
      intro task hsome
      rw [htask] at hsome
      contradiction

/-- One question of a search. -/
theorem poll_searching (relay : RelayClients) (client : ClientId) (frontendId : String)
    (request : Request Value) (asked : ClientId) (candidates : List ClientId)
    (answer : Option (Answer Value)) :
    RoutedTask.poll label relay
        ⟨client, frontendId, request, .searching (asked :: candidates), answer⟩ =
      ⟨client, frontendId, request,
        if frontendId ∈ (relay.client asked).peers.keys then .dispatched asked
        else .searching candidates, answer⟩ := by
  by_cases hpeer : frontendId ∈ (relay.client asked).peers.keys
  · simp only [RoutedTask.poll, ControlStage.step, if_pos hpeer]
  · simp only [RoutedTask.poll, ControlStage.step, if_neg hpeer]

/-- Only a finished task has an answer. -/
theorem unanswered_poll {relay : RelayClients} {task : RoutedTask Value}
    (h : task.stage ≠ .finished → task.answer = none) :
    (task.poll label relay).stage ≠ .finished → (task.poll label relay).answer = none := by
  obtain ⟨client, frontendId, request, stage, answer⟩ := task
  cases stage with
  | spawned => exact fun _ => h (by simp)
  | searching candidates =>
    cases candidates with
    | nil => exact fun hne => absurd rfl hne
    | cons asked candidates =>
      rw [poll_searching]
      exact fun _ => h (by simp)
  | dispatched link => exact fun hne => absurd rfl hne
  | finished => exact fun hne => absurd rfl hne

/-- Every step keeps the facts about tasks. -/
theorem Known.step {s : RoutingSystem Value} (h : Known s) (e : RoutingEvent) :
    Known (routingStep reader config label s e) := by
  intro task htask
  rcases routingStep_tasks reader config label s e with
    ⟨i, old, rfl, hi, hstep⟩ | ⟨new, htasks, hnew, -⟩
  · rw [hstep] at htask ⊢
    rcases List.mem_or_eq_of_mem_set htask with hold | rfl
    · exact h task hold
    · obtain ⟨hpeer, hnone⟩ := h old (List.mem_of_getElem? hi)
      exact ⟨hpeer, unanswered_poll label hnone⟩
  · rw [htasks] at htask
    rcases List.mem_append.mp htask with hold | hadded
    · obtain ⟨hpeer, hnone⟩ := h task hold
      exact ⟨peers_routingStep reader config label s e hpeer, hnone⟩
    · obtain ⟨hpeer, hnone, -⟩ := hnew task hadded
      exact ⟨hpeer, fun _ => hnone⟩

/-- A task stays on track exactly when the client it asks is not a wrong one,
and the right one is among those it will ask. -/
theorem onTrack_poll {relay : RelayClients} {task : RoutedTask Value}
    (hknown : task.frontendId ∈ (relay.client task.client).peers) (h : OnTrack task) :
    OnTrack (task.poll label relay) ↔
      match task.stage with
      | .spawned => task.client ∈ relay.pool.ids
      | .searching (asked :: _) =>
        task.frontendId ∈ (relay.client asked).peers.keys → asked = task.client
      | _ => True := by
  obtain ⟨client, frontendId, request, stage, answer⟩ := task
  cases stage with
  | spawned => exact Iff.rfl
  | searching candidates =>
    cases candidates with
    | nil => exact absurd h List.not_mem_nil
    | cons asked candidates =>
      rw [poll_searching]
      by_cases hpeer : frontendId ∈ (relay.client asked).peers.keys
      · rw [if_pos hpeer]
        exact ⟨fun heq _ => heq, fun heq => heq hpeer⟩
      · have hother : client ≠ asked := by
          rintro rfl
          exact hpeer (AList.mem_keys.mpr hknown)
        rw [if_neg hpeer]
        exact ⟨fun _ hin => absurd hin hpeer,
          fun _ => (List.mem_cons.mp h).resolve_left hother⟩
  | dispatched link => exact ⟨fun _ => trivial, fun _ => ⟨_, rfl, h, rfl⟩⟩
  | finished => exact ⟨fun _ => trivial, fun _ => h⟩

/-- A task that lost track does not find it again. -/
theorem not_onTrack_poll {relay : RelayClients} {task : RoutedTask Value} (h : ¬OnTrack task)
    (hnone : task.stage ≠ .finished → task.answer = none) :
    ¬OnTrack (task.poll label relay) := by
  obtain ⟨client, frontendId, request, stage, answer⟩ := task
  cases stage with
  | spawned => exact absurd trivial h
  | searching candidates =>
    cases candidates with
    | nil =>
      rintro ⟨found, hfound, -⟩
      have hanswer : answer = none := hnone (by simp)
      have hfound' : found ∈ answer := hfound
      rw [hanswer] at hfound'
      contradiction
    | cons asked candidates =>
      have hnotin : client ∉ asked :: candidates := h
      rw [poll_searching]
      by_cases hpeer : frontendId ∈ (relay.client asked).peers.keys
      · rw [if_pos hpeer]
        intro heq
        have heq' : asked = client := heq
        exact hnotin (heq' ▸ List.mem_cons_self)
      · rw [if_neg hpeer]
        exact fun hin => hnotin (List.mem_cons_of_mem asked hin)
  | dispatched link =>
    rintro ⟨found, hfound, hlink, -⟩
    rw [← Option.some.inj hfound] at hlink
    exact h hlink
  | finished => exact h

/-- All tasks are on track after a step exactly when they were before it and the
step meets the condition. -/
theorem onTrack_routingStep {s : RoutingSystem Value} (hknown : Known s) (e : RoutingEvent) :
    (∀ task ∈ (routingStep reader config label s e).tasks, OnTrack task) ↔
      (∀ task ∈ s.tasks, OnTrack task) ∧ OwnFirst s e := by
  rcases routingStep_tasks reader config label s e with
    ⟨i, polled, rfl, hi, hstep⟩ | ⟨new, htasks, hnew, hcond⟩
  · have hmem := List.mem_of_getElem? hi
    have hlt := (List.getElem?_eq_some_iff.mp hi).1
    obtain ⟨hpeer, hnone⟩ := hknown polled hmem
    have hcond_iff : OnTrack polled →
        (OnTrack (polled.poll label s.relay) ↔ OwnFirst s (.poll i)) := by
      intro hpolled
      rw [onTrack_poll label hpeer hpolled, OwnFirst, hi]
      simp only [Option.mem_some_iff, forall_eq']
    rw [hstep]
    constructor
    · intro h
      have hnew : OnTrack (polled.poll label s.relay) := h _ (List.mem_set hlt _)
      have hpolled : OnTrack polled := by
        by_contra hoff
        exact not_onTrack_poll label hoff hnone hnew
      refine ⟨fun task htask => ?_, (hcond_iff hpolled).mp hnew⟩
      obtain ⟨j, hj⟩ := List.mem_iff_getElem?.mp htask
      by_cases hij : i = j
      · rw [← hij, hi, Option.some.injEq] at hj
        exact hj ▸ hpolled
      · exact h task (List.mem_of_getElem? ((List.getElem?_set_ne hij).trans hj))
    · rintro ⟨hall, hc⟩ task htask
      rcases List.mem_or_eq_of_mem_set htask with hold | rfl
      · exact hall task hold
      · exact (hcond_iff (hall polled hmem)).mpr hc
  · rw [htasks]
    constructor
    · exact fun h => ⟨fun task htask => h task (List.mem_append_left _ htask), hcond⟩
    · rintro ⟨hall, -⟩ task htask
      rcases List.mem_append.mp htask with hold | hadded
      · exact hall task hold
      · rw [OnTrack, (hnew task hadded).2.2]
        trivial

/-- All tasks are on track after a run exactly when each of its steps met the
condition. -/
theorem onTrack_runFrom {s : RoutingSystem Value} (hknown : Known s) (events : List RoutingEvent) :
    (∀ task ∈ (runFrom (routingStep reader config label) s events).tasks, OnTrack task) ↔
      (∀ task ∈ s.tasks, OnTrack task) ∧
        Meets (routingStep reader config label) OwnFirst s events := by
  induction events generalizing s with
  | nil => exact ⟨fun h => ⟨h, trivial⟩, fun h => h.1⟩
  | cons e events ih =>
    rw [runFrom_cons, ih (hknown.step reader config label e),
      onTrack_routingStep reader config label hknown, Meets, and_assoc]

/-- While the client that opened a message is pooled and is the first of the
pool that has the frontend as a peer, every task that is finished answered
through it; and once all tasks are finished, all answers went through the
right clients only if it was so throughout. -/
theorem answered_through_own_iff (relay : RelayClients) (events : List RoutingEvent) :
    (Meets (routingStep reader config label) OwnFirst (.initial relay) events →
      ∀ before, before <+: events →
        AllThroughOwn (runFrom (routingStep reader config label) (.initial relay) before)) ∧
    ((∀ task ∈ (runFrom (routingStep reader config label) (.initial relay) events).tasks,
        task.stage = .finished) →
      (AllThroughOwn (runFrom (routingStep reader config label) (.initial relay) events) ↔
        Meets (routingStep reader config label) OwnFirst (.initial relay) events)) := by
  have hknown : Known (.initial relay : RoutingSystem Value) :=
    fun task htask => absurd htask List.not_mem_nil
  have hinit : ∀ task ∈ (.initial relay : RoutingSystem Value).tasks, OnTrack task :=
    fun task htask => absurd htask List.not_mem_nil
  have hown : ∀ {task : RoutedTask Value}, task.stage = .finished →
      (OnTrack task ↔ task.AnsweredThroughOwn) := by
    intro task hfinished
    rw [OnTrack, hfinished]
  have hthrough : ∀ events, Meets (routingStep reader config label) OwnFirst (.initial relay) events →
      AllThroughOwn (runFrom (routingStep reader config label) (.initial relay) events) := by
    intro events hm task htask hfinished
    exact (hown hfinished).mp
      ((onTrack_runFrom reader config label hknown events).mpr ⟨hinit, hm⟩ task htask)
  refine ⟨fun hm before hp => hthrough before (meets_of_isPrefix hp hm),
    fun hfinished => ⟨fun hall => ?_, hthrough events⟩⟩
  refine ((onTrack_runFrom reader config label hknown events).mp fun task htask => ?_).2
  exact (hown (hfinished task htask)).mpr (hall task htask (hfinished task htask))

/-- Two pairings of one app, each with its own keys. -/
def twoPairings : RelayClients :=
  ⟨ClientPool.empty.register.register,
    ((∅ : Dict ClientId DaemonClient).insert 0 ⟨none, some 0, true,
      (∅ : Dict String FrontendPeer).insert "f"
        ⟨sampleAppPublic, ⟨sampleFirstHalf, sampleSecondHalf⟩, 3, none, none⟩⟩).insert 1
      ⟨none, some 1, true, (∅ : Dict String FrontendPeer).insert "f"
        ⟨sampleAppPublic, ⟨sampleSecondHalf, sampleFirstHalf⟩, 3, none, none⟩⟩⟩

/-- Each pairing's own configuration. -/
def pairingConfig (client : ClientId) : DaemonConfig resizeSuite where
  pairingId := if client = 0 then samplePairingId
    else ⟨"11020304-0506-0708-090a-0b0c0d0e0f10", Or.inr rfl⟩
  daemonId := if client = 0 then "daemon-0" else "daemon-1"
  hostname := "host"
  pairingSecret := if client = 0 then samplePairingSecret else sampleSeed.bytes
  keyPair := kxSeedKeypair resizeSuite
    (if client = 0 then sampleDaemonSecret else sampleAppSecret)

/-- The second pairing opens a resize of the app, and its task runs. -/
def resizeOfSecond : List RoutingEvent :=
  [.frame 1 ⟨"s", firstResizeCt, 0, .frontend, some "f"⟩, .poll 0, .poll 0, .poll 0]

/-- The message is dispatched with the client of the first pairing. -/
theorem second_pairing_answered_through_first :
    (runFrom (routingStep resizeReader pairingConfig fun _ => none) (.initial twoPairings)
        resizeOfSecond).tasks =
      [⟨1, "f", .control ⟨"s", 80, 24⟩, .finished,
        some ⟨0, "f", .dispatch ⟨"s", 80, 24⟩⟩⟩] ∧
      ¬AllThroughOwn (runFrom (routingStep resizeReader pairingConfig fun _ => none)
        (.initial twoPairings) resizeOfSecond) := by
  have htasks : (runFrom (routingStep resizeReader pairingConfig fun _ => none)
      (.initial twoPairings) resizeOfSecond).tasks =
      [⟨1, "f", .control ⟨"s", 80, 24⟩, .finished,
        some ⟨0, "f", .dispatch ⟨"s", 80, 24⟩⟩⟩] := by decide +kernel
  refine ⟨htasks, fun hall => ?_⟩
  obtain ⟨answer, hanswer, hlink, -⟩ := hall _ (by rw [htasks]; exact List.mem_singleton_self _) rfl
  rw [← Option.some.inj hanswer] at hlink
  exact absurd hlink (by decide)

end Teleprompter.ReplyRouting
