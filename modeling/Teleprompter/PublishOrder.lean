import Teleprompter.KeyExchange
import Teleprompter.SessionRecords
import Teleprompter.SpawnedTasks
import Teleprompter.StepRuns

/-!
# The order in which records leave the daemon

Handling a record stores it and spawns a task that publishes it: for every
pooled relay client in turn, and there for every peer in turn, the task seals
the record and hands it to the outbound channel of the client. Every lock the
task waits for is a point where other tasks may run, and so is the point
between taking the channel and using it. Clients change at any time.
-/

namespace Teleprompter.PublishOrder

open FiniteDictionary StepRuns SpawnedTasks PairingCrypto KeyExchange SessionRecords
open KeyExchange RelayServer

/-- A record handed to an outbound channel, sealed for one frontend. -/
structure SentFrame where
  client : ClientId
  channel : ConnId
  frontendId : String
  txKey : Key
  record : SessionRec
  deriving DecidableEq

/-- Where a publishing task stands. -/
inductive PublishStage where
  /-- Before the next client. -/
  | nextLink (links : List ClientId)
  /-- Knows whether the client is authenticated, and waits for its peers. -/
  | readState (link : ClientId) (links : List ClientId) (authenticated : Bool)
  /-- Before the next peer of a client. -/
  | nextPeer (link : ClientId) (frontendIds : List String) (links : List ClientId)
  /-- Has sealed for a peer, and waits for the channel. -/
  | sealed (link : ClientId) (frontendId : String) (txKey : Key) (frontendIds : List String)
    (links : List ClientId)
  /-- Has taken the channel. -/
  | sending (link : ClientId) (frontendId : String) (txKey : Key) (channel : ConnId)
    (frontendIds : List String) (links : List ClientId)
  deriving DecidableEq

/-- A spawned publication of a stored record. -/
structure PublishTask where
  record : SessionRec
  stage : PublishStage
  deriving DecidableEq

/-- What a step of a task depends on besides the clients. -/
structure PollOutcome where
  /-- A nonce could be drawn. -/
  seals : Bool
  /-- The channel is open and has room. -/
  accepts : Bool
  deriving DecidableEq

/-- One step of a publication: the next stage, and what it handed to a channel. -/
def PublishStage.step (clients : ClientId → DaemonClient) (outcome : PollOutcome)
    (rec : SessionRec) : PublishStage → PublishStage × Option SentFrame
  | .nextLink [] => (.nextLink [], none)
  | .nextLink (link :: links) => (.readState link links (clients link).authenticated, none)
  | .readState link links authenticated =>
    let frontendIds := (clients link).peers.keys
    if !authenticated || frontendIds.isEmpty then (.nextLink links, none)
    else (.nextPeer link frontendIds links, none)
  | .nextPeer _ [] links => (.nextLink links, none)
  | .nextPeer link (frontendId :: frontendIds) links =>
    match (clients link).peers.lookup frontendId with
    | none => (.nextPeer link frontendIds links, none)
    | some peer =>
      if outcome.seals then
        (.sealed link frontendId peer.sessionKeys.tx frontendIds links, none)
      else (.nextPeer link frontendIds links, none)
  | .sealed link frontendId txKey frontendIds links =>
    match (clients link).socket with
    | none => (.nextPeer link frontendIds links, none)
    | some channel => (.sending link frontendId txKey channel frontendIds links, none)
  | .sending link frontendId txKey channel frontendIds links =>
    (.nextPeer link frontendIds links,
      if outcome.accepts then some ⟨link, channel, frontendId, txKey, rec⟩ else none)

/-- The daemon's store, its relay clients, the spawned publications in the
order of spawning, and all frames handed to channels in order. -/
structure PublishSystem where
  store : RecordStore
  relay : RelayClients
  /-- Spawned publications; finished ones stay. -/
  tasks : List PublishTask
  /-- Frames handed to outbound channels. -/
  sent : List SentFrame

/-- Nothing was published yet. -/
def PublishSystem.initial (store : RecordStore) (relay : RelayClients) : PublishSystem :=
  ⟨store, relay, [], []⟩

/-- What can happen. A client's connection and peers are its own affair. -/
inductive PublishEvent where
  | runnerRec (msg : RecMsg) (binary : Option Octets) (disk : DiskOutcome)
  | poll (i : ℕ) (outcome : PollOutcome)
  | relay (e : ClientEvent)

/-- The publication spawned for a frame. -/
def spawnPublish (pool : ClientPool) : Option SessionFrame → List PublishTask
  | some (.record rec) => [⟨rec, .nextLink pool.ids⟩]
  | _ => []

variable (codec : Base64Codec)

/-- One event. -/
def publishStep (s : PublishSystem) : PublishEvent → PublishSystem
  | .runnerRec msg binary disk =>
    let handled := handleRec codec s.store msg binary disk
    { s with store := handled.1, tasks := s.tasks ++ spawnPublish s.relay.pool handled.2.2 }
  | .poll i outcome =>
    match s.tasks[i]? with
    | none => s
    | some task =>
      let polled := task.stage.step s.relay.client outcome task.record
      { s with
        tasks := s.tasks.set i { task with stage := polled.1 }
        sent := s.sent ++ polled.2.toList }
  | .relay e => { s with relay := s.relay.step e }

/-- Two frames of one session that left one client are in order: their numbers
do not fall, and rise for one frontend. -/
def FramesInOrder (first second : SentFrame) : Prop :=
  first.client = second.client → first.record.sid = second.record.sid →
    first.record.seq ≤ second.record.seq ∧
      (first.frontendId = second.frontendId → first.record.seq < second.record.seq)

instance : DecidableRel FramesInOrder := fun first second =>
  inferInstanceAs (Decidable (first.client = second.client → first.record.sid = second.record.sid →
    first.record.seq ≤ second.record.seq ∧
      (first.frontendId = second.frontendId → first.record.seq < second.record.seq)))

/-- The frames of every session leave every client in order. -/
def Ascending (s : PublishSystem) : Prop := s.sent.Pairwise FramesInOrder

/-- The client a task is about to send through. -/
def PublishStage.sendingTo : PublishStage → Option ClientId
  | .sending link .. => some link
  | _ => none

/-- Clients that a task may still send through. -/
def PublishStage.ahead : PublishStage → List ClientId
  | .nextLink links => links
  | .readState link links _ => link :: links
  | .nextPeer _ [] links => links
  | .nextPeer link (_ :: _) links => link :: links
  | .sealed link _ _ _ links => link :: links
  | .sending link _ _ _ _ links => link :: links

/-- A task sends through a client only when no task of an earlier record of
the session may still do so. -/
def EarlierFirst (s : PublishSystem) : PublishEvent → Prop
  | .poll i _ => ∀ task ∈ s.tasks[i]?, ∀ link ∈ task.stage.sendingTo,
      ∀ earlier ∈ s.tasks.take i, earlier.record.sid = task.record.sid → link ∉ earlier.stage.ahead
  | _ => True

instance (s : PublishSystem) (e : PublishEvent) : Decidable (EarlierFirst s e) :=
  match e with
  | .poll i _ => inferInstanceAs (Decidable (∀ task ∈ s.tasks[i]?, ∀ link ∈ task.stage.sendingTo,
      ∀ earlier ∈ s.tasks.take i, earlier.record.sid = task.record.sid → link ∉ earlier.stage.ahead))
  | .runnerRec .. => isTrue trivial
  | .relay _ => isTrue trivial

/-- A task may still send through a client to a frontend. -/
def PublishStage.MaySend : PublishStage → ClientId → String → Prop
  | .nextLink links, client, _ => client ∈ links
  | .readState link links _, client, _ => client = link ∨ client ∈ links
  | .nextPeer link frontendIds links, client, frontendId =>
    client = link ∧ frontendId ∈ frontendIds ∨ client ∈ links
  | .sealed link first _ frontendIds links, client, frontendId =>
    client = link ∧ frontendId ∈ first :: frontendIds ∨ client ∈ links
  | .sending link first _ _ frontendIds links, client, frontendId =>
    client = link ∧ frontendId ∈ first :: frontendIds ∨ client ∈ links

/-- A task visits no client twice, and there no frontend twice. -/
def PublishStage.Distinct : PublishStage → Prop
  | .nextLink links => links.Nodup
  | .readState link links _ => (link :: links).Nodup
  | .nextPeer link frontendIds links => (link :: links).Nodup ∧ frontendIds.Nodup
  | .sealed link first _ frontendIds links =>
    (link :: links).Nodup ∧ (first :: frontendIds).Nodup
  | .sending link first _ _ frontendIds links =>
    (link :: links).Nodup ∧ (first :: frontendIds).Nodup

/-- A client that a task may send through is ahead of it. -/
theorem PublishStage.MaySend.mem_ahead {stage : PublishStage} {client : ClientId}
    {frontendId : String} (h : stage.MaySend client frontendId) : client ∈ stage.ahead := by
  cases stage with
  | nextLink links => exact h
  | readState link links authenticated => exact List.mem_cons.mpr h
  | nextPeer link frontendIds links =>
    cases frontendIds with
    | nil => exact h.resolve_left fun hnone => absurd hnone.2 List.not_mem_nil
    | cons first frontendIds => exact List.mem_cons.mpr (h.imp_left And.left)
  | sealed link first txKey frontendIds links => exact List.mem_cons.mpr (h.imp_left And.left)
  | sending link first txKey channel frontendIds links =>
    exact List.mem_cons.mpr (h.imp_left And.left)

/-- Skipping a peer leaves the later ones. -/
theorem maySend_skip {link client : ClientId} {first frontendId : String}
    {frontendIds : List String} {links : List ClientId}
    (h : (PublishStage.nextPeer link frontendIds links).MaySend client frontendId) :
    client = link ∧ frontendId ∈ first :: frontendIds ∨ client ∈ links :=
  h.imp_left fun hhere => ⟨hhere.1, List.mem_cons_of_mem first hhere.2⟩

/-- A step of a task never adds a frame it may send. -/
theorem PublishStage.maySend_step {clients : ClientId → DaemonClient} {outcome : PollOutcome}
    {rec : SessionRec} {stage : PublishStage} {client : ClientId} {frontendId : String}
    (h : (stage.step clients outcome rec).1.MaySend client frontendId) :
    stage.MaySend client frontendId := by
  cases stage with
  | nextLink links =>
    cases links with
    | nil => exact h
    | cons link links => exact List.mem_cons.mpr h
  | readState link links authenticated =>
    simp only [PublishStage.step] at h
    split at h
    · exact .inr h
    · exact h.imp_left And.left
  | nextPeer link frontendIds links =>
    cases frontendIds with
    | nil => exact .inr h
    | cons first frontendIds =>
      simp only [PublishStage.step] at h
      split at h
      · exact maySend_skip h
      · split at h
        · exact h
        · exact maySend_skip h
  | sealed link first txKey frontendIds links =>
    simp only [PublishStage.step] at h
    split at h
    · exact maySend_skip h
    · exact h
  | sending link first txKey channel frontendIds links => exact maySend_skip h

/-- A step of a task keeps its visits distinct. -/
theorem PublishStage.Distinct.step {stage : PublishStage} (h : stage.Distinct)
    (clients : ClientId → DaemonClient) (outcome : PollOutcome) (rec : SessionRec) :
    (stage.step clients outcome rec).1.Distinct := by
  cases stage with
  | nextLink links =>
    cases links with
    | nil => exact h
    | cons link links => exact h
  | readState link links authenticated =>
    have hlinks : links.Nodup := List.Nodup.of_cons h
    have hkeys : (clients link).peers.keys.Nodup := (clients link).peers.keys_nodup
    simp only [PublishStage.step]
    split
    · exact hlinks
    · exact ⟨h, hkeys⟩
  | nextPeer link frontendIds links =>
    cases frontendIds with
    | nil => exact List.Nodup.of_cons h.1
    | cons first frontendIds =>
      have hrest : frontendIds.Nodup := List.Nodup.of_cons h.2
      simp only [PublishStage.step]
      split
      · exact ⟨h.1, hrest⟩
      · split
        · exact h
        · exact ⟨h.1, hrest⟩
  | sealed link first txKey frontendIds links =>
    simp only [PublishStage.step]
    split
    · exact ⟨h.1, List.Nodup.of_cons h.2⟩
    · exact h
  | sending link first txKey channel frontendIds links => exact ⟨h.1, List.Nodup.of_cons h.2⟩

/-- A frame leaves only from the last stage of a peer, and not again. -/
theorem PublishStage.step_sent {clients : ClientId → DaemonClient} {outcome : PollOutcome}
    {rec : SessionRec} {stage : PublishStage} {frame : SentFrame} (hd : stage.Distinct)
    (h : (stage.step clients outcome rec).2 = some frame) :
    stage.sendingTo = some frame.client ∧ frame.record = rec ∧
      stage.MaySend frame.client frame.frontendId ∧
      ¬(stage.step clients outcome rec).1.MaySend frame.client frame.frontendId := by
  cases stage with
  | nextLink links => cases links <;> exact absurd h nofun
  | readState link links authenticated =>
    simp only [PublishStage.step] at h
    split at h <;> exact absurd h nofun
  | nextPeer link frontendIds links =>
    cases frontendIds with
    | nil => exact absurd h nofun
    | cons first frontendIds =>
      simp only [PublishStage.step] at h
      split at h
      · exact absurd h nofun
      · split at h <;> exact absurd h nofun
  | sealed link first txKey frontendIds links =>
    simp only [PublishStage.step] at h
    split at h <;> exact absurd h nofun
  | sending link first txKey channel frontendIds links =>
    have hlink : link ∉ links := (List.nodup_cons.mp hd.1).1
    have hfirst : first ∉ frontendIds := (List.nodup_cons.mp hd.2).1
    simp only [PublishStage.step] at h ⊢
    split at h
    · obtain rfl := Option.some.inj h
      refine ⟨rfl, rfl, .inl ⟨rfl, List.mem_cons_self⟩, ?_⟩
      rintro (hagain | hagain)
      · exact hfirst hagain.2
      · exact hlink hagain
    · exact absurd h nofun

/-- A frame that a task may still send. -/
def MayPublish (task : PublishTask) (frame : SentFrame) : Prop :=
  frame.record = task.record ∧ task.stage.MaySend frame.client frame.frontendId

/-- The records of the spawned publications. -/
def PublishSystem.records (s : PublishSystem) : List SessionRec :=
  s.tasks.map PublishTask.record

/-- What every run keeps while earlier records go first. -/
structure PublishInv (s : PublishSystem) : Prop where
  /-- Frames so far, and those still possible, are in order. -/
  ordered : SortedSoFar MayPublish FramesInOrder s.tasks s.sent
  /-- No task visits anything twice. -/
  distinct : ∀ task ∈ s.tasks, task.stage.Distinct
  /-- Records of a session were numbered in the order of spawning. -/
  numbered : s.records.Pairwise fun first second =>
    first.sid = second.sid → first.seq < second.seq
  /-- Records being published are stored. -/
  stored : ∀ rec ∈ s.records, s.store.Holds rec
  /-- Frames carry records of spawned publications. -/
  published : ∀ frame ∈ s.sent, frame.record ∈ s.records

/-- Spawning the publication of the next record keeps the invariant. -/
theorem PublishInv.runnerRec {s : PublishSystem} (h : PublishInv s) (msg : RecMsg)
    (binary : Option Octets) (disk : DiskOutcome) :
    PublishInv (publishStep codec s (.runnerRec msg binary disk)) := by
  have hext := handleRec_extends codec s.store msg binary disk
  have hkept : ∀ rec ∈ s.records, (handleRec codec s.store msg binary disk).1.Holds rec :=
    fun rec hrec => (h.stored rec hrec).extends hext
  cases hframe : (handleRec codec s.store msg binary disk).2.2 with
  | none =>
    simp only [publishStep, hframe, spawnPublish, List.append_nil]
    exact ⟨h.ordered, h.distinct, h.numbered, hkept, h.published⟩
  | some frame =>
    obtain ⟨rec, rfl, hholds, hseq⟩ := handleRec_frame hframe
    have hnext : ∀ old ∈ s.records, old.sid = rec.sid → old.seq < rec.seq := by
      intro old hold hsid
      have hle := (h.stored old hold).seq_le
      rw [hsid] at hle
      omega
    have hrecords : (s.tasks ++ [(⟨rec, .nextLink s.relay.pool.ids⟩ : PublishTask)]).map
        PublishTask.record = s.records ++ [rec] := List.map_append
    simp only [publishStep, hframe, spawnPublish]
    refine ⟨h.ordered.spawn ?_, ?_, ?_, ?_, ?_⟩
    · intro first hfirst second hsecond _ hsid
      have hrec : second.record = rec := hsecond.1
      have hlt := hnext first.record (h.published first hfirst) (by rw [hsid, hrec])
      rw [← hrec] at hlt
      exact ⟨hlt.le, fun _ => hlt⟩
    · intro task htask
      rcases List.mem_append.mp htask with hold | hnew
      · exact h.distinct task hold
      · rw [List.mem_singleton.mp hnew]
        exact s.relay.pool.nodup
    · rw [PublishSystem.records, hrecords]
      refine List.pairwise_append.mpr ⟨h.numbered, List.pairwise_singleton _ _, ?_⟩
      intro old hold new hnew
      rw [List.mem_singleton.mp hnew]
      exact hnext old hold
    · intro old hold
      rw [PublishSystem.records, hrecords] at hold
      rcases List.mem_append.mp hold with hold | hnew
      · exact hkept old hold
      · rw [List.mem_singleton.mp hnew]
        exact hholds
    · intro frame hframe
      rw [PublishSystem.records, hrecords]
      exact List.mem_append_left _ (h.published frame hframe)

/-- A step of a task that lets earlier records go first keeps the order. -/
theorem PublishInv.poll_ordered {s : PublishSystem} (h : PublishInv s) {i : ℕ}
    {outcome : PollOutcome} {task : PublishTask} (htask : s.tasks[i]? = some task)
    (hc : EarlierFirst s (.poll i outcome)) :
    SortedSoFar MayPublish FramesInOrder
      (s.tasks.set i { task with stage := (task.stage.step s.relay.client outcome task.record).1 })
      (s.sent ++ (task.stage.step s.relay.client outcome task.record).2.toList) := by
  have hdistinct := h.distinct task (List.mem_of_getElem? htask)
  cases hsent : (task.stage.step s.relay.client outcome task.record).2 with
  | none =>
    rw [Option.toList_none, List.append_nil]
    exact h.ordered.advance htask fun frame hframe => ⟨hframe.1, PublishStage.maySend_step hframe.2⟩
  | some frame =>
    obtain ⟨hto, hrec, hmay, hagain⟩ := PublishStage.step_sent hdistinct hsent
    rw [Option.toList_some]
    refine h.ordered.emit htask ⟨hrec, hmay⟩ ?_ ?_
    · intro later hlater
      refine ⟨⟨hlater.1, PublishStage.maySend_step hlater.2⟩, fun hclient _ => ?_⟩
      have hsame : later.record = frame.record := hlater.1.trans hrec.symm
      refine ⟨by rw [hsame], fun hfrontend => absurd hlater.2 ?_⟩
      rw [← hclient, ← hfrontend]
      exact hagain
    · intro j other hji hj later hlater hclient hsid
      rw [hrec, hlater.1] at hsid ⊢
      rcases Nat.lt_or_gt_of_ne hji with hlt | hgt
      · have hearlier : other ∈ s.tasks.take i := mem_take_of_lt hj hlt
        have hahead := hc task htask frame.client hto other hearlier hsid.symm
        rw [hclient] at hahead
        exact absurd hlater.2.mem_ahead hahead
      · have hlt := rel_of_lt h.numbered htask hj hgt hsid
        exact ⟨hlt.le, fun _ => hlt⟩

/-- Every event keeps the invariant while earlier records go first. -/
theorem PublishInv.step {s : PublishSystem} (h : PublishInv s) {e : PublishEvent}
    (hc : EarlierFirst s e) : PublishInv (publishStep codec s e) := by
  cases e with
  | runnerRec msg binary disk => exact h.runnerRec codec msg binary disk
  | poll i outcome =>
    cases htask : s.tasks[i]? with
    | none => simpa only [publishStep, htask] using h
    | some task =>
      have hrecords : ∀ stage, (s.tasks.set i { task with stage := stage }).map
          PublishTask.record = s.tasks.map PublishTask.record :=
        fun stage => map_set_same htask rfl
      simp only [publishStep, htask]
      refine ⟨h.poll_ordered htask hc, ?_, ?_, ?_, ?_⟩
      · intro other hother
        rcases List.mem_or_eq_of_mem_set hother with hold | rfl
        · exact h.distinct other hold
        · exact (h.distinct task (List.mem_of_getElem? htask)).step s.relay.client outcome task.record
      · rw [PublishSystem.records, hrecords]
        exact h.numbered
      · rw [PublishSystem.records, hrecords]
        exact h.stored
      · intro frame hframe
        rw [PublishSystem.records, hrecords]
        rcases List.mem_append.mp hframe with hold | hnew
        · exact h.published frame hold
        · have hdistinct := h.distinct task (List.mem_of_getElem? htask)
          have hrec := (PublishStage.step_sent hdistinct (Option.mem_toList.mp hnew)).2.1
          rw [hrec]
          exact List.mem_map_of_mem (List.mem_of_getElem? htask)
  | relay e => exact ⟨h.ordered, h.distinct, h.numbered, h.stored, h.published⟩

/-- Frames leave every client in order in every run whose tasks let those of
earlier records of the session pass each client first. -/
theorem publish_ascending (store : RecordStore) (relay : RelayClients)
    {events before : List PublishEvent}
    (hm : Meets (publishStep codec) EarlierFirst (PublishSystem.initial store relay) events)
    (hp : before <+: events) :
    Ascending (runFrom (publishStep codec) (PublishSystem.initial store relay) before) := by
  have hinit : PublishInv (PublishSystem.initial store relay) :=
    ⟨sortedSoFar_nil, nofun, List.Pairwise.nil, nofun, nofun⟩
  have hstep : ∀ s e, PublishInv s → EarlierFirst s e → PublishInv (publishStep codec s e) :=
    fun s e h hc => h.step codec hc
  have hinv := runFrom_induction_of_meets hstep hinit (meets_of_isPrefix hp hm)
  exact hinv.ordered.sorted

/-- One authenticated client with one frontend. -/
def oneFrontend : PublishSystem :=
  PublishSystem.initial ⟨∅, ∅⟩ (samplePool "f" ⟨zeroKey, ⟨zeroKey, zeroKey⟩, 3, none, none⟩)

/-- Two records of a session arrive on one runner connection. -/
def twoRecords : List PublishEvent :=
  List.replicate 2 (.runnerRec (emptyIo "s") none ⟨true, true, true⟩)

/-- A task runs from its spawn to its send. -/
def pollThrough (i : ℕ) : List PublishEvent := List.replicate 5 (.poll i ⟨true, true⟩)

/-- One task after the other: the records leave as they came. -/
theorem publish_ascending_two_records :
    Meets (publishStep emptyPayloadCodec) EarlierFirst oneFrontend
        (twoRecords ++ pollThrough 0 ++ pollThrough 1) ∧
      Ascending (runFrom (publishStep emptyPayloadCodec) oneFrontend
        (twoRecords ++ pollThrough 0 ++ pollThrough 1)) ∧
      (runFrom (publishStep emptyPayloadCodec) oneFrontend
        (twoRecords ++ pollThrough 0 ++ pollThrough 1)).sent.map (fun frame => frame.record.seq) =
        [1, 2] := by
  have hm : Meets (publishStep emptyPayloadCodec) EarlierFirst oneFrontend
      (twoRecords ++ pollThrough 0 ++ pollThrough 1) := by decide +kernel
  exact ⟨hm, publish_ascending emptyPayloadCodec _ _ hm List.prefix_rfl, by decide +kernel⟩

/-- The task of the second record runs first: the records leave swapped. -/
theorem publish_swapped :
    (runFrom (publishStep emptyPayloadCodec) oneFrontend
        (twoRecords ++ pollThrough 1 ++ pollThrough 0)).sent.map (fun frame => frame.record.seq) =
        [2, 1] ∧
      ¬Ascending (runFrom (publishStep emptyPayloadCodec) oneFrontend
        (twoRecords ++ pollThrough 1 ++ pollThrough 0)) := by
  refine ⟨by decide +kernel, ?_⟩
  unfold Ascending
  decide +kernel

end Teleprompter.PublishOrder
