import Teleprompter.KeyExchange
import Teleprompter.StepRuns

/-!
# Subscriptions of relay clients

Every pooled client should be subscribed to the two channels and to the
sessions that have a row. Sessions and clients come and go, and each change is
followed by tasks that subscribe or unsubscribe one client after the other,
working on snapshots of the pool or of the session list. The invariant below
says, for every client and session, that what is still queued will make the
subscription right; it survives as long as changes of one session do not
overtake each other's tasks.
-/

namespace Teleprompter.SessionSubscriptions

open FiniteDictionary KeyExchange StepRuns

/-- Channel of session updates. -/
def metaChannel : String := "__meta__"

/-- Channel of control messages. -/
def controlChannel : String := "__control__"

/-- One step of a task. -/
inductive TaskOp where
  | subscribe (client : ClientId) (sid : String)
  | unsubscribe (client : ClientId) (sid : String)
  /-- Read the session list, and subscribe to each of it. -/
  | loadSessions (client : ClientId)
  /-- Read the pool, and unsubscribe each of it. -/
  | unsubscribePool (sid : String)
  /-- A connected client is saved and joins the pool. -/
  | enterPool (client : ClientId)
  deriving DecidableEq

/-- Sessions, clients and the tasks under way. -/
structure Subscriptions where
  /-- Sessions with a row. -/
  rows : KeySet String
  /-- Sessions whose runner was spawned and has not introduced itself yet. -/
  starting : List String
  /-- Pooled clients. -/
  pool : List ClientId
  /-- Clients that connect and are not pooled yet. -/
  joining : List ClientId
  /-- Next unused client. -/
  next : ClientId
  /-- Sessions and channels a client is subscribed to. -/
  subscribed : Dict ClientId (KeySet String)
  /-- What is left of each task. -/
  tasks : List (List TaskOp)

/-- No sessions and no clients. -/
def Subscriptions.initial : Subscriptions := ⟨∅, [], [], [], 0, ∅, []⟩

/-- Sessions and channels of a client. -/
def Subscriptions.sessionsOf (s : Subscriptions) (client : ClientId) : KeySet String :=
  (s.subscribed.lookup client).getD ∅

/-- Set the subscriptions of a client. -/
def Subscriptions.setSessions (s : Subscriptions) (client : ClientId) (sids : KeySet String) :
    Subscriptions :=
  { s with subscribed := s.subscribed.insert client sids }

/-- Spawn a task. -/
def Subscriptions.spawn (s : Subscriptions) (task : List TaskOp) : Subscriptions :=
  { s with tasks := s.tasks ++ [task] }

/-- Subscribe a client to the channels and to the sessions in the list. -/
def subscribeAll (client : ClientId) : List TaskOp :=
  [.subscribe client metaChannel, .subscribe client controlChannel, .loadSessions client]

/-- What changes the sessions, the clients or the tasks. -/
inductive SubscriptionEvent where
  /-- A runner introduces itself. -/
  | hello (sid : String)
  /-- A frontend creates a session, and its runner was spawned. -/
  | create (sid : String)
  /-- A spawned runner ends without having introduced itself. -/
  | startFails (sid : String)
  /-- A session is deleted or pruned over the local socket. -/
  | deleteLocal (sid : String)
  /-- A session is deleted by a frontend. -/
  | deleteRelay (sid : String)
  /-- The clock prunes a session. -/
  | expire (sid : String)
  /-- The worktree of running sessions is removed by force. -/
  | forceStop (sids : List String)
  /-- A pending pairing is promoted. -/
  | promote
  /-- A saved pairing is connected. -/
  | reconnectSaved
  /-- A frontend joins a pooled client. -/
  | frontendJoined (client : ClientId)
  /-- A pairing is removed. -/
  | removeClient (client : ClientId)
  /-- A task takes its next step; saving a pairing may fail. -/
  | advance (task : ℕ) (saves : Bool)

/-- The next step of a task, and what follows it. -/
def runOp (s : Subscriptions) (saves : Bool) : TaskOp → Subscriptions × List TaskOp
  | .subscribe client sid => (s.setSessions client ((s.sessionsOf client).insert sid ()), [])
  | .unsubscribe client sid => (s.setSessions client ((s.sessionsOf client).erase sid), [])
  | .loadSessions client => (s, s.rows.keys.map (.subscribe client))
  | .unsubscribePool sid => (s, s.pool.map (.unsubscribe · sid))
  | .enterPool client =>
    if client ∈ s.joining then
      ({ s with
          joining := s.joining.filter (· ≠ client)
          pool := if saves then s.pool ++ [client] else s.pool }, [])
    else (s, [])

/-- One event. -/
def subscriptionStep (s : Subscriptions) : SubscriptionEvent → Subscriptions
  | .hello sid =>
    { s with rows := s.rows.insert sid (), starting := s.starting.erase sid }.spawn
      (s.pool.map (.subscribe · sid))
  | .create sid => { s with starting := sid :: s.starting }.spawn (s.pool.map (.subscribe · sid))
  | .startFails sid => { s with starting := s.starting.erase sid }
  | .deleteLocal sid =>
    if sid ∈ s.rows then
      { s with rows := s.rows.erase sid }.spawn (s.pool.map (.unsubscribe · sid))
    else s
  | .deleteRelay sid =>
    if sid ∈ s.rows then { s with rows := s.rows.erase sid }.spawn [.unsubscribePool sid] else s
  | .expire sid => if sid ∈ s.rows then { s with rows := s.rows.erase sid } else s
  | .forceStop sids => s.spawn (s.pool.flatMap fun client => sids.map (.unsubscribe client))
  | .promote =>
    ({ s with pool := s.pool ++ [s.next], next := s.next + 1 }.setSessions s.next
      (((∅ : KeySet String).insert metaChannel ()).insert controlChannel ())).spawn
        (subscribeAll s.next)
  | .reconnectSaved =>
    { s with joining := s.joining ++ [s.next], next := s.next + 1 }.spawn
      (subscribeAll s.next ++ [TaskOp.enterPool s.next])
  | .frontendJoined client => if client ∈ s.pool then s.spawn [.loadSessions client] else s
  | .removeClient client => { s with pool := s.pool.erase client }
  | .advance i saves =>
    match s.tasks[i]? with
    | some (op :: rest) =>
      let ran := runOp s saves op
      { ran.1 with tasks := ran.1.tasks.set i (ran.2 ++ rest) }
    | _ => s

/-- A channel, or a session with a row. -/
def Wanted (s : Subscriptions) (sid : String) : Prop :=
  sid = metaChannel ∨ sid = controlChannel ∨ sid ∈ s.rows

/-- All tasks have finished, and no spawned runner is about to insert a row. -/
def Quiescent (s : Subscriptions) : Prop :=
  (∀ task ∈ s.tasks, task = []) ∧ ∀ sid ∈ s.starting, Wanted s sid

/-- Every pooled client is subscribed to exactly what is wanted. -/
def InAgreement (s : Subscriptions) : Prop :=
  ∀ client ∈ s.pool, ∀ sid, sid ∈ s.sessionsOf client ↔ Wanted s sid

/-- Some task will take a step. -/
def Pending (s : Subscriptions) (op : TaskOp) : Prop := ∃ task ∈ s.tasks, op ∈ task

/-- Pooled or connecting clients. -/
def Member (s : Subscriptions) (client : ClientId) : Prop := client ∈ s.pool ∨ client ∈ s.joining

/-- A client neither has a subscription nor waits for it. -/
def Without (s : Subscriptions) (client : ClientId) (sid : String) : Prop :=
  sid ∉ s.sessionsOf client ∧ ¬Pending s (.subscribe client sid)

/-- No change of a session overtakes the tasks of an earlier one: a row is
inserted when no unsubscription of the session is queued and every connecting
client has still to read the list; it is deleted when no subscription is
queued and no connecting client has one. Rows go without an unsubscription,
and runners fail to start, only when no client has the session; sessions with
a row are not stopped by force; and channels are no sessions to delete. -/
def InTurn (s : Subscriptions) : SubscriptionEvent → Prop
  | .hello sid => ¬Wanted s sid → ¬Pending s (.unsubscribePool sid) ∧
      (∀ client ∈ s.pool ++ s.joining, ¬Pending s (.unsubscribe client sid)) ∧
        ∀ client ∈ s.joining, Pending s (.loadSessions client)
  | .startFails sid => sid ∈ s.starting → Wanted s sid ∨ sid ∈ s.starting.erase sid ∨
      ∀ client ∈ s.pool ++ s.joining, Without s client sid
  | .deleteLocal sid => sid ∈ s.rows → sid ≠ metaChannel ∧ sid ≠ controlChannel ∧
      (∀ client ∈ s.pool ++ s.joining, ¬Pending s (.subscribe client sid)) ∧
        ∀ client ∈ s.joining, sid ∉ s.sessionsOf client
  | .deleteRelay sid => sid ∈ s.rows → sid ≠ metaChannel ∧ sid ≠ controlChannel ∧
      (∀ client ∈ s.pool ++ s.joining, ¬Pending s (.subscribe client sid)) ∧
        ∀ client ∈ s.joining, sid ∉ s.sessionsOf client
  | .expire sid => sid ∈ s.rows → sid ≠ metaChannel ∧ sid ≠ controlChannel ∧
      ∀ client ∈ s.pool ++ s.joining, Without s client sid
  | .forceStop sids => s.pool ≠ [] → ∀ sid ∈ sids, ¬Wanted s sid
  | _ => True

/-- The client that a step of a task is about. -/
def opClient : TaskOp → Option ClientId
  | .subscribe client _ => some client
  | .unsubscribe client _ => some client
  | .loadSessions client => some client
  | .unsubscribePool _ => none
  | .enterPool client => some client

/-- What is queued makes every subscription right. -/
structure Converging (s : Subscriptions) : Prop where
  /-- Clients are known before anything is queued for them. -/
  fresh : (∀ client ∈ s.pool ++ s.joining, client < s.next) ∧
    (∀ op, Pending s op → ∀ client ∈ opClient op, client < s.next) ∧
      ∀ client, s.next ≤ client → s.sessionsOf client = ∅
  /-- A client is pooled or connecting, not both. -/
  apart : ∀ client ∈ s.pool, client ∉ s.joining
  /-- Nothing wanted is taken from the pool. -/
  kept : ∀ sid, Wanted s sid → ¬Pending s (.unsubscribePool sid)
  /-- What is wanted is there or queued, and is not taken. -/
  wanted : ∀ client, Member s client → ∀ sid, Wanted s sid →
    (sid ∈ s.sessionsOf client ∨ Pending s (.subscribe client sid) ∨
      (Pending s (.loadSessions client) ∧ sid ∈ s.rows)) ∧
      ¬Pending s (.unsubscribe client sid)
  /-- What is not wanted is absent or will be taken, and is not queued. -/
  unwanted : ∀ client, Member s client → ∀ sid, ¬Wanted s sid → sid ∉ s.starting →
    ¬Pending s (.subscribe client sid) ∧
      (sid ∈ s.sessionsOf client → Pending s (.unsubscribe client sid) ∨
        (client ∈ s.pool ∧ Pending s (.unsubscribePool sid)))

/-- Subscriptions after those of one client were set. -/
theorem sessionsOf_setSessions (s : Subscriptions) (client other : ClientId)
    (sids : KeySet String) : (s.setSessions client sids).sessionsOf other =
      if other = client then sids else s.sessionsOf other := by
  unfold Subscriptions.sessionsOf Subscriptions.setSessions
  dsimp only
  rw [lookup_insert_eq]
  by_cases h : other = client
  · rw [if_pos h, if_pos h, Option.getD_some]
  · rw [if_neg h, if_neg h]

/-- With nothing queued every subscription is right. -/
theorem Converging.inAgreement {s : Subscriptions} (h : Converging s) (hq : Quiescent s) :
    InAgreement s := by
  have hnone : ∀ op, ¬Pending s op := by
    rintro op ⟨task, htask, hop⟩
    rw [hq.1 task htask] at hop
    exact absurd hop List.not_mem_nil
  intro client hclient sid
  constructor
  · intro hsid
    by_contra hwanted
    have hstarting : sid ∉ s.starting := fun hmem => hwanted (hq.2 sid hmem)
    rcases (h.unwanted client (Or.inl hclient) sid hwanted hstarting).2 hsid with hp | ⟨-, hp⟩
    · exact hnone _ hp
    · exact hnone _ hp
  · intro hwanted
    rcases (h.wanted client (Or.inl hclient) sid hwanted).1 with hin | hp | ⟨hp, -⟩
    · exact hin
    · exact absurd hp (hnone _)
    · exact absurd hp (hnone _)

/-- What is queued after a spawn. -/
theorem pending_spawn {s : Subscriptions} {task : List TaskOp} {op : TaskOp} :
    Pending (s.spawn task) op ↔ Pending s op ∨ op ∈ task := by
  simp only [Pending, Subscriptions.spawn, List.mem_append, List.mem_singleton]
  constructor
  · rintro ⟨t, hold | rfl, hop⟩
    · exact Or.inl ⟨t, hold, hop⟩
    · exact Or.inr hop
  · rintro (⟨t, hold, hop⟩ | hop)
    · exact ⟨t, Or.inl hold, hop⟩
    · exact ⟨task, Or.inr rfl, hop⟩

/-- What is queued after a step of a task was queued before or follows it. -/
theorem pending_of_pending_set {s : Subscriptions} {i : ℕ} {op : TaskOp} {rest more : List TaskOp}
    (hi : s.tasks[i]? = some (op :: rest)) {other : TaskOp}
    (h : ∃ task ∈ s.tasks.set i (more ++ rest), other ∈ task) :
    Pending s other ∨ other ∈ more := by
  obtain ⟨task, htask, hother⟩ := h
  rcases List.mem_or_eq_of_mem_set htask with hold | rfl
  · exact Or.inl ⟨task, hold, hother⟩
  · rcases List.mem_append.mp hother with hmore | hrest
    · exact Or.inr hmore
    · exact Or.inl ⟨op :: rest, List.mem_of_getElem? hi, List.mem_cons_of_mem op hrest⟩

/-- What was queued still is, except the step that was taken. -/
theorem pending_set_of_pending {s : Subscriptions} {i : ℕ} {op : TaskOp} {rest more : List TaskOp}
    (hi : s.tasks[i]? = some (op :: rest)) {other : TaskOp} (h : Pending s other)
    (hne : other ≠ op) : ∃ task ∈ s.tasks.set i (more ++ rest), other ∈ task := by
  obtain ⟨task, htask, hother⟩ := h
  obtain ⟨j, hj⟩ := List.mem_iff_getElem?.mp htask
  have hlt : i < s.tasks.length := (List.getElem?_eq_some_iff.mp hi).1
  by_cases hij : i = j
  · rw [← hij, hi, Option.some.injEq] at hj
    rw [← hj] at hother
    have hrest : other ∈ rest := by
      rcases List.mem_cons.mp hother with heq | hrest
      · exact absurd heq hne
      · exact hrest
    exact ⟨more ++ rest, List.mem_set hlt _, List.mem_append_right more hrest⟩
  · exact ⟨task, List.mem_of_getElem? ((List.getElem?_set_ne hij).trans hj), hother⟩

/-- A change of sessions and tasks that leaves the clients alone. -/
structure SameClients (s s' : Subscriptions) (task : List TaskOp) : Prop where
  pool : s'.pool = s.pool
  joining : s'.joining = s.joining
  next : s'.next = s.next
  subscribed : s'.subscribed = s.subscribed
  /-- Queued is what was queued, and the new task. -/
  pending : ∀ op, Pending s' op ↔ Pending s op ∨ op ∈ task

/-- A spawn leaves the clients alone. -/
theorem sameClients_spawn (s : Subscriptions) (rows : KeySet String) (starting : List String)
    (task : List TaskOp) : SameClients s ({ s with rows, starting }.spawn task) task :=
  ⟨rfl, rfl, rfl, rfl, fun _ => pending_spawn⟩

/-- Without a spawn the queue stays. -/
theorem sameClients_sessions (s : Subscriptions) (rows : KeySet String) (starting : List String) :
    SameClients s { s with rows, starting } [] :=
  ⟨rfl, rfl, rfl, rfl, fun op => by simp [Pending]⟩

/-- When the clients stay, three facts about the new sessions and the new task
keep the queue right. -/
theorem Converging.change {s s' : Subscriptions} {task : List TaskOp} (h : Converging s)
    (hsame : SameClients s s' task)
    (htask : ∀ op ∈ task, ∀ client ∈ opClient op, Member s client)
    (hkept : ∀ sid, Wanted s' sid →
      ¬Pending s (.unsubscribePool sid) ∧ TaskOp.unsubscribePool sid ∉ task)
    (hwanted : ∀ client, Member s client → ∀ sid, Wanted s' sid →
      (sid ∈ s.sessionsOf client ∨ Pending s' (.subscribe client sid) ∨
        (Pending s' (.loadSessions client) ∧ sid ∈ s'.rows)) ∧
        ¬Pending s (.unsubscribe client sid) ∧ TaskOp.unsubscribe client sid ∉ task)
    (hunwanted : ∀ client, Member s client → ∀ sid, ¬Wanted s' sid → sid ∉ s'.starting →
      ¬Pending s (.subscribe client sid) ∧ TaskOp.subscribe client sid ∉ task ∧
        (sid ∈ s.sessionsOf client → Pending s' (.unsubscribe client sid) ∨
          (client ∈ s.pool ∧ Pending s' (.unsubscribePool sid)))) :
    Converging s' := by
  have hsessions : ∀ client, s'.sessionsOf client = s.sessionsOf client := by
    intro client
    rw [Subscriptions.sessionsOf, hsame.subscribed, Subscriptions.sessionsOf]
  have hmember : ∀ client, Member s' client ↔ Member s client := by
    intro client
    rw [Member, hsame.pool, hsame.joining, Member]
  refine ⟨⟨?_, ?_, ?_⟩, ?_, ?_, ?_, ?_⟩
  · intro client hclient
    rw [hsame.pool, hsame.joining] at hclient
    rw [hsame.next]
    exact h.fresh.1 client hclient
  · intro op hop client hclient
    rw [hsame.next]
    rcases (hsame.pending op).mp hop with hold | hnew
    · exact h.fresh.2.1 op hold client hclient
    · have hin := htask op hnew client hclient
      exact h.fresh.1 client (List.mem_append.mpr hin)
  · intro client hclient
    rw [hsessions]
    exact h.fresh.2.2 client (hsame.next ▸ hclient)
  · intro client hclient
    rw [hsame.joining]
    exact h.apart client (hsame.pool ▸ hclient)
  · intro sid hsid
    rw [hsame.pending, not_or]
    exact hkept sid hsid
  · intro client hclient sid hsid
    rw [hsessions, hsame.pending (.unsubscribe client sid), not_or]
    exact hwanted client ((hmember client).mp hclient) sid hsid
  · intro client hclient sid hsid hstarting
    have hold := hunwanted client ((hmember client).mp hclient) sid hsid hstarting
    rw [hsessions, hsame.pending (.subscribe client sid), not_or, hsame.pool]
    exact ⟨⟨hold.1, hold.2.1⟩, hold.2.2⟩

/-- What was right for a wanted session stays right. -/
theorem Converging.wanted_mono {s s' : Subscriptions} {task : List TaskOp} (h : Converging s)
    (hsame : SameClients s s' task) {client : ClientId} (hclient : Member s client) {sid : String}
    (hsid : Wanted s sid) (hrow : sid ∈ s.rows → sid ∈ s'.rows) :
    sid ∈ s.sessionsOf client ∨ Pending s' (.subscribe client sid) ∨
      (Pending s' (.loadSessions client) ∧ sid ∈ s'.rows) := by
  rcases (h.wanted client hclient sid hsid).1 with hin | hp | ⟨hp, hr⟩
  · exact Or.inl hin
  · exact Or.inr (Or.inl ((hsame.pending _).mpr (Or.inl hp)))
  · exact Or.inr (Or.inr ⟨(hsame.pending _).mpr (Or.inl hp), hrow hr⟩)

/-- What was right for an unwanted session stays right. -/
theorem Converging.unwanted_mono {s s' : Subscriptions} {task : List TaskOp} (h : Converging s)
    (hsame : SameClients s s' task) {client : ClientId} (hclient : Member s client) {sid : String}
    (hsid : ¬Wanted s sid) (hstarting : sid ∉ s.starting) :
    ¬Pending s (.subscribe client sid) ∧
      (sid ∈ s.sessionsOf client → Pending s' (.unsubscribe client sid) ∨
        (client ∈ s.pool ∧ Pending s' (.unsubscribePool sid))) := by
  obtain ⟨hqueued, htaken⟩ := h.unwanted client hclient sid hsid hstarting
  refine ⟨hqueued, fun hin => ?_⟩
  rcases htaken hin with hp | ⟨hpool, hp⟩
  · exact Or.inl ((hsame.pending _).mpr (Or.inl hp))
  · exact Or.inr ⟨hpool, (hsame.pending _).mpr (Or.inl hp)⟩

/-- A hello in turn keeps the queue right. -/
theorem Converging.hello {s : Subscriptions} (h : Converging s) {sid : String}
    (hcond : InTurn s (.hello sid)) : Converging (subscriptionStep s (.hello sid)) := by
  have hsame := sameClients_spawn s (s.rows.insert sid ()) (s.starting.erase sid)
    (s.pool.map (.subscribe · sid))
  have hwanted_iff : ∀ other, Wanted (subscriptionStep s (.hello sid)) other ↔
      Wanted s other ∨ other = sid := by
    intro other
    have hmem : other ∈ (subscriptionStep s (.hello sid)).rows ↔ other = sid ∨ other ∈ s.rows :=
      AList.mem_insert _
    rw [Wanted, hmem, Wanted]
    tauto
  refine h.change hsame ?_ ?_ ?_ ?_
  · intro op hop client hclient
    obtain ⟨pooled, hpooled, rfl⟩ := List.mem_map.mp hop
    obtain rfl := Option.some.inj hclient
    exact Or.inl hpooled
  · intro other hother
    refine ⟨?_, by simp⟩
    by_cases hw : Wanted s other
    · exact h.kept other hw
    · obtain rfl := ((hwanted_iff other).mp hother).resolve_left hw
      exact (hcond hw).1
  · intro client hclient other hother
    by_cases hw : Wanted s other
    · refine ⟨h.wanted_mono hsame hclient hw fun hr => (AList.mem_insert _).mpr (Or.inr hr),
        (h.wanted client hclient other hw).2, by simp⟩
    · obtain rfl := ((hwanted_iff other).mp hother).resolve_left hw
      obtain ⟨-, hunsubscribe, hload⟩ := hcond hw
      refine ⟨?_, hunsubscribe client (List.mem_append.mpr hclient), by simp⟩
      rcases hclient with hpool | hjoining
      · exact Or.inr (Or.inl ((hsame.pending _).mpr (Or.inr (List.mem_map_of_mem hpool))))
      · exact Or.inr (Or.inr ⟨(hsame.pending _).mpr (Or.inl (hload client hjoining)),
          (AList.mem_insert _).mpr (Or.inl rfl)⟩)
  · intro client hclient other hother hstarting
    rw [hwanted_iff, not_or] at hother
    have hnot : other ∉ s.starting := fun hmem =>
      hstarting ((List.mem_erase_of_ne hother.2).mpr hmem)
    obtain ⟨hqueued, htaken⟩ := h.unwanted_mono hsame hclient hother.1 hnot
    refine ⟨hqueued, ?_, htaken⟩
    simp [Ne.symm hother.2]

/-- The creation of a session keeps the queue right. -/
theorem Converging.create {s : Subscriptions} (h : Converging s) (sid : String) :
    Converging (subscriptionStep s (.create sid)) := by
  have hsame := sameClients_spawn s s.rows (sid :: s.starting) (s.pool.map (.subscribe · sid))
  refine h.change hsame ?_ ?_ ?_ ?_
  · intro op hop client hclient
    obtain ⟨pooled, hpooled, rfl⟩ := List.mem_map.mp hop
    obtain rfl := Option.some.inj hclient
    exact Or.inl hpooled
  · intro other hother
    exact ⟨h.kept other hother, by simp⟩
  · intro client hclient other hother
    exact ⟨h.wanted_mono hsame hclient hother id, (h.wanted client hclient other hother).2, by simp⟩
  · intro client hclient other hother hstarting
    obtain ⟨hne, hnot⟩ := not_or.mp (mt List.mem_cons.mpr hstarting)
    obtain ⟨hqueued, htaken⟩ := h.unwanted_mono hsame hclient hother hnot
    exact ⟨hqueued, by simp [Ne.symm hne], htaken⟩

/-- The end of a runner that did not start, in turn, keeps the queue right. -/
theorem Converging.startFails {s : Subscriptions} (h : Converging s) {sid : String}
    (hcond : InTurn s (.startFails sid)) :
    Converging (subscriptionStep s (.startFails sid)) := by
  have hsame := sameClients_sessions s s.rows (s.starting.erase sid)
  refine h.change hsame (by simp) (fun other hother => ⟨h.kept other hother, by simp⟩) ?_ ?_
  · intro client hclient other hother
    exact ⟨h.wanted_mono hsame hclient hother id, (h.wanted client hclient other hother).2, by simp⟩
  · intro client hclient other hother hstarting
    by_cases hnot : other ∈ s.starting
    · have heq : other = sid := by
        by_contra hne
        exact hstarting ((List.mem_erase_of_ne hne).mpr hnot)
      subst heq
      rcases hcond hnot with hw | hmore | hwithout
      · exact absurd hw hother
      · exact absurd hmore hstarting
      · obtain ⟨habsent, hqueued⟩ := hwithout client (List.mem_append.mpr hclient)
        exact ⟨hqueued, by simp, fun hin => absurd hin habsent⟩
    · obtain ⟨hqueued, htaken⟩ := h.unwanted_mono hsame hclient hother hnot
      exact ⟨hqueued, by simp, htaken⟩

/-- Without the row of a session that is no channel, all others are wanted. -/
theorem wanted_of_erase {s s' : Subscriptions} {sid : String} (hrows : s'.rows = s.rows.erase sid)
    (hmeta : sid ≠ metaChannel) (hcontrol : sid ≠ controlChannel) (other : String) :
    Wanted s' other ↔ Wanted s other ∧ other ≠ sid := by
  rw [Wanted, hrows, AList.mem_erase, Wanted]
  constructor
  · rintro (rfl | rfl | ⟨hne, hold⟩)
    · exact ⟨Or.inl rfl, hmeta.symm⟩
    · exact ⟨Or.inr (Or.inl rfl), hcontrol.symm⟩
    · exact ⟨Or.inr (Or.inr hold), hne⟩
  · rintro ⟨rfl | rfl | hold, hne⟩
    · exact Or.inl rfl
    · exact Or.inr (Or.inl rfl)
    · exact Or.inr (Or.inr ⟨hne, hold⟩)

/-- A row that goes keeps the queue right when the clients that have the
session will lose it. -/
theorem Converging.eraseRow {s s' : Subscriptions} {task : List TaskOp} (h : Converging s)
    (hsame : SameClients s s' task) {sid : String} (hrows : s'.rows = s.rows.erase sid)
    (hstart : s'.starting = s.starting) (hmeta : sid ≠ metaChannel)
    (hcontrol : sid ≠ controlChannel)
    (htask : ∀ op ∈ task, (∃ client ∈ s.pool, op = .unsubscribe client sid) ∨
      op = .unsubscribePool sid)
    (hqueued : ∀ client ∈ s.pool ++ s.joining, ¬Pending s (.subscribe client sid))
    (hlost : ∀ client, Member s client → sid ∈ s.sessionsOf client →
      Pending s' (.unsubscribe client sid) ∨
        (client ∈ s.pool ∧ Pending s' (.unsubscribePool sid))) : Converging s' := by
  have hwanted_iff := wanted_of_erase hrows hmeta hcontrol
  refine h.change hsame ?_ ?_ ?_ ?_
  · intro op hop client hclient
    rcases htask op hop with ⟨pooled, hpooled, rfl⟩ | rfl
    · obtain rfl := Option.some.inj hclient
      exact Or.inl hpooled
    · contradiction
  · intro other hother
    obtain ⟨hw, hne⟩ := (hwanted_iff other).mp hother
    refine ⟨h.kept other hw, fun hmem => ?_⟩
    rcases htask _ hmem with ⟨_, _, heq⟩ | heq
    · contradiction
    · exact hne (TaskOp.unsubscribePool.inj heq)
  · intro client hclient other hother
    obtain ⟨hw, hne⟩ := (hwanted_iff other).mp hother
    refine ⟨h.wanted_mono hsame hclient hw fun hr => ?_, (h.wanted client hclient other hw).2,
      fun hmem => ?_⟩
    · rw [hrows]
      exact AList.mem_erase.mpr ⟨hne, hr⟩
    · rcases htask _ hmem with ⟨pooled, -, heq⟩ | heq
      · exact hne (TaskOp.unsubscribe.inj heq).2
      · contradiction
  · intro client hclient other hother hstarting
    have hnew : TaskOp.subscribe client other ∉ task := by
      intro hmem
      rcases htask _ hmem with ⟨_, _, heq⟩ | heq
      · contradiction
      · contradiction
    by_cases heq : other = sid
    · rw [heq]
      exact ⟨hqueued client (List.mem_append.mpr hclient), heq ▸ hnew, hlost client hclient⟩
    · have hw : ¬Wanted s other := fun hw => hother ((hwanted_iff other).mpr ⟨hw, heq⟩)
      obtain ⟨hold, htaken⟩ := h.unwanted_mono hsame hclient hw (hstart ▸ hstarting)
      exact ⟨hold, hnew, htaken⟩

/-- A deletion over the local socket, in turn, keeps the queue right. -/
theorem Converging.deleteLocal {s : Subscriptions} (h : Converging s) {sid : String}
    (hcond : InTurn s (.deleteLocal sid)) :
    Converging (subscriptionStep s (.deleteLocal sid)) := by
  rw [subscriptionStep]
  by_cases hrow : sid ∈ s.rows
  · rw [if_pos hrow]
    obtain ⟨hmeta, hcontrol, hqueued, habsent⟩ := hcond hrow
    have hsame := sameClients_spawn s (s.rows.erase sid) s.starting
      (s.pool.map (.unsubscribe · sid))
    refine h.eraseRow hsame rfl rfl hmeta hcontrol ?_ hqueued ?_
    · intro op hop
      obtain ⟨client, hclient, rfl⟩ := List.mem_map.mp hop
      exact Or.inl ⟨client, hclient, rfl⟩
    · intro client hclient hin
      rcases hclient with hpool | hjoining
      · exact Or.inl ((hsame.pending _).mpr (Or.inr (List.mem_map_of_mem hpool)))
      · exact absurd hin (habsent client hjoining)
  · rw [if_neg hrow]
    exact h

/-- A deletion by a frontend, in turn, keeps the queue right. -/
theorem Converging.deleteRelay {s : Subscriptions} (h : Converging s) {sid : String}
    (hcond : InTurn s (.deleteRelay sid)) :
    Converging (subscriptionStep s (.deleteRelay sid)) := by
  rw [subscriptionStep]
  by_cases hrow : sid ∈ s.rows
  · rw [if_pos hrow]
    obtain ⟨hmeta, hcontrol, hqueued, habsent⟩ := hcond hrow
    have hsame := sameClients_spawn s (s.rows.erase sid) s.starting [.unsubscribePool sid]
    refine h.eraseRow hsame rfl rfl hmeta hcontrol ?_ hqueued ?_
    · intro op hop
      exact Or.inr (List.mem_singleton.mp hop)
    · intro client hclient hin
      rcases hclient with hpool | hjoining
      · exact Or.inr ⟨hpool, (hsame.pending _).mpr (Or.inr List.mem_cons_self)⟩
      · exact absurd hin (habsent client hjoining)
  · rw [if_neg hrow]
    exact h

/-- An expiry in turn keeps the queue right. -/
theorem Converging.expire {s : Subscriptions} (h : Converging s) {sid : String}
    (hcond : InTurn s (.expire sid)) : Converging (subscriptionStep s (.expire sid)) := by
  have hsame := sameClients_sessions s (s.rows.erase sid) s.starting
  rw [subscriptionStep]
  by_cases hrow : sid ∈ s.rows
  · rw [if_pos hrow]
    obtain ⟨hmeta, hcontrol, hwithout⟩ := hcond hrow
    refine h.eraseRow hsame rfl rfl hmeta hcontrol (by simp)
      (fun client hclient => (hwithout client hclient).2) ?_
    intro client hclient hin
    exact absurd hin (hwithout client (List.mem_append.mpr hclient)).1
  · rw [if_neg hrow]
    exact h

/-- Stopping sessions by force, in turn, keeps the queue right. -/
theorem Converging.forceStop {s : Subscriptions} (h : Converging s) {sids : List String}
    (hcond : InTurn s (.forceStop sids)) :
    Converging (subscriptionStep s (.forceStop sids)) := by
  have hsame := sameClients_spawn s s.rows s.starting
    (s.pool.flatMap fun client => sids.map (.unsubscribe client))
  have htask : ∀ op ∈ s.pool.flatMap fun client => sids.map (TaskOp.unsubscribe client),
      ∃ client ∈ s.pool, ∃ sid ∈ sids, op = .unsubscribe client sid := by
    intro op hop
    obtain ⟨client, hclient, hop⟩ := List.mem_flatMap.mp hop
    obtain ⟨sid, hsid, rfl⟩ := List.mem_map.mp hop
    exact ⟨client, hclient, sid, hsid, rfl⟩
  refine h.change hsame ?_ ?_ ?_ ?_
  · intro op hop client hclient
    obtain ⟨pooled, hpooled, sid, -, rfl⟩ := htask op hop
    obtain rfl := Option.some.inj hclient
    exact Or.inl hpooled
  · intro other hother
    refine ⟨h.kept other hother, fun hmem => ?_⟩
    obtain ⟨_, _, _, _, heq⟩ := htask _ hmem
    contradiction
  · intro client hclient other hother
    refine ⟨h.wanted_mono hsame hclient hother id, (h.wanted client hclient other hother).2,
      fun hmem => ?_⟩
    obtain ⟨pooled, hpooled, sid, hsid, heq⟩ := htask _ hmem
    have hpool : s.pool ≠ [] := List.ne_nil_of_mem hpooled
    rw [(TaskOp.unsubscribe.inj heq).2] at hother
    exact hcond hpool sid hsid hother
  · intro client hclient other hother hstarting
    obtain ⟨hqueued, htaken⟩ := h.unwanted_mono hsame hclient hother hstarting
    refine ⟨hqueued, fun hmem => ?_, htaken⟩
    obtain ⟨_, _, _, _, heq⟩ := htask _ hmem
    contradiction

/-- A frontend that joins keeps the queue right. -/
theorem Converging.frontendJoined {s : Subscriptions} (h : Converging s) (client : ClientId) :
    Converging (subscriptionStep s (.frontendJoined client)) := by
  rw [subscriptionStep]
  by_cases hpool : client ∈ s.pool
  · rw [if_pos hpool]
    have hsame := sameClients_spawn s s.rows s.starting [.loadSessions client]
    refine h.change hsame ?_ (fun other hother => ⟨h.kept other hother, by simp⟩) ?_ ?_
    · intro op hop other hother
      rw [List.mem_singleton.mp hop] at hother
      obtain rfl := Option.some.inj hother
      exact Or.inl hpool
    · intro other hclient sid hsid
      exact ⟨h.wanted_mono hsame hclient hsid id, (h.wanted other hclient sid hsid).2, by simp⟩
    · intro other hclient sid hsid hstarting
      obtain ⟨hqueued, htaken⟩ := h.unwanted_mono hsame hclient hsid hstarting
      exact ⟨hqueued, by simp, htaken⟩
  · rw [if_neg hpool]
    exact h

/-- A client that leaves keeps the queue right. -/
theorem Converging.removeClient {s : Subscriptions} (h : Converging s) (client : ClientId) :
    Converging (subscriptionStep s (.removeClient client)) := by
  have hpool : ∀ {other}, other ∈ s.pool.erase client → other ∈ s.pool := List.mem_of_mem_erase
  have hmember : ∀ {other}, Member (subscriptionStep s (.removeClient client)) other →
      Member s other := fun hm => hm.imp hpool id
  refine ⟨⟨?_, h.fresh.2.1, h.fresh.2.2⟩, fun other hother => h.apart other (hpool hother), h.kept,
    fun other hother => h.wanted other (hmember hother), ?_⟩
  · intro other hother
    have hm : Member (subscriptionStep s (.removeClient client)) other := List.mem_append.mp hother
    exact h.fresh.1 other (List.mem_append.mpr (hmember hm))
  · intro other hother sid hsid hstarting
    obtain ⟨hqueued, htaken⟩ := h.unwanted other (hmember hother) sid hsid hstarting
    refine ⟨hqueued, fun hin => ?_⟩
    rcases htaken hin with hp | ⟨hold, hp⟩
    · exact Or.inl hp
    · rcases hother with hnew | hjoining
      · exact Or.inr ⟨hnew, hp⟩
      · exact absurd hjoining (h.apart other hold)

/-- A new client that will be subscribed to everything wanted. -/
structure NewClient (s s' : Subscriptions) : Prop where
  rows : s'.rows = s.rows
  starting : s'.starting = s.starting
  next : s'.next = s.next + 1
  pool : ∀ client, client ∈ s'.pool → client ∈ s.pool ∨ client = s.next
  pool_old : ∀ client, client ∈ s.pool → client ∈ s'.pool
  joining : ∀ client, client ∈ s'.joining → client ∈ s.joining ∨ client = s.next
  apart : s.next ∈ s'.pool → s.next ∉ s'.joining
  sessions : ∀ client, client ≠ s.next → s'.sessionsOf client = s.sessionsOf client
  /-- It has no other subscription than the channels. -/
  new : ∀ sid ∈ s'.sessionsOf s.next, sid = metaChannel ∨ sid = controlChannel
  pending_old : ∀ op, Pending s op → Pending s' op
  pending_new : ∀ op ∈ subscribeAll s.next, Pending s' op
  pending_only : ∀ op, Pending s' op →
    Pending s op ∨ op ∈ subscribeAll s.next ∨ op = .enterPool s.next

/-- A step that is queued after a client was created and is about another
client, or about the whole pool, was queued before. -/
theorem NewClient.pending_other {s s' : Subscriptions} (hnew : NewClient s s') {op : TaskOp}
    (hop : Pending s' op) (hclient : opClient op ≠ some s.next) : Pending s op := by
  rcases hnew.pending_only op hop with hold | htask | rfl
  · exact hold
  · simp only [subscribeAll, List.mem_cons, List.not_mem_nil, or_false] at htask
    rcases htask with rfl | rfl | rfl
    · exact absurd rfl hclient
    · exact absurd rfl hclient
    · exact absurd rfl hclient
  · exact absurd rfl hclient

/-- A new client keeps the queue right. -/
theorem Converging.newClient {s s' : Subscriptions} (h : Converging s) (hnew : NewClient s s') :
    Converging s' := by
  have hunknown : ∀ op, opClient op = some s.next → ¬Pending s op := by
    intro op hop hpending
    exact absurd (h.fresh.2.1 op hpending s.next hop) (Nat.lt_irrefl _)
  have hwanted : ∀ sid, Wanted s' sid ↔ Wanted s sid := by
    intro sid
    rw [Wanted, hnew.rows, Wanted]
  have hmember : ∀ client, Member s' client → Member s client ∨ client = s.next := by
    rintro client (hpool | hjoining)
    · exact (hnew.pool client hpool).imp Or.inl id
    · exact (hnew.joining client hjoining).imp Or.inr id
  have hold : ∀ client, Member s client → client ≠ s.next := by
    intro client hclient heq
    exact Nat.ne_of_lt (h.fresh.1 client (List.mem_append.mpr hclient)) heq
  refine ⟨⟨?_, ?_, ?_⟩, ?_, ?_, ?_, ?_⟩
  · intro client hclient
    rw [hnew.next]
    rcases hmember client (List.mem_append.mp hclient) with hm | rfl
    · exact Nat.lt_succ_of_lt (h.fresh.1 client (List.mem_append.mpr hm))
    · exact Nat.lt_succ_self _
  · intro op hop client hclient
    rw [hnew.next]
    by_cases heq : client = s.next
    · exact heq ▸ Nat.lt_succ_self _
    · have hother : opClient op ≠ some s.next := by
        intro hsame
        rw [hsame, Option.mem_some_iff] at hclient
        exact heq hclient.symm
      exact Nat.lt_succ_of_lt (h.fresh.2.1 op (hnew.pending_other hop hother) client hclient)
  · intro client hclient
    rw [hnew.next] at hclient
    rw [hnew.sessions client (Nat.ne_of_gt (Nat.lt_of_succ_le hclient))]
    exact h.fresh.2.2 client (Nat.le_of_succ_le hclient)
  · intro client hpool hjoining
    rcases hnew.pool client hpool with hp | rfl
    · rcases hnew.joining client hjoining with hj | rfl
      · exact h.apart client hp hj
      · exact hold s.next (Or.inl hp) rfl
    · exact hnew.apart hpool hjoining
  · intro sid hsid hpending
    exact h.kept sid ((hwanted sid).mp hsid) (hnew.pending_other hpending (by simp [opClient]))
  · intro client hclient sid hsid
    rcases hmember client hclient with hm | rfl
    · have hne := hold client hm
      obtain ⟨hthere, htaken⟩ := h.wanted client hm sid ((hwanted sid).mp hsid)
      rw [hnew.sessions client hne, hnew.rows]
      refine ⟨?_, fun hp => htaken (hnew.pending_other hp (by simpa [opClient] using hne))⟩
      rcases hthere with hin | hp | ⟨hp, hr⟩
      · exact Or.inl hin
      · exact Or.inr (Or.inl (hnew.pending_old _ hp))
      · exact Or.inr (Or.inr ⟨hnew.pending_old _ hp, hr⟩)
    · refine ⟨?_, fun hp => ?_⟩
      · rcases hsid with rfl | rfl | hrow
        · exact Or.inr (Or.inl (hnew.pending_new _ (by simp [subscribeAll])))
        · exact Or.inr (Or.inl (hnew.pending_new _ (by simp [subscribeAll])))
        · exact Or.inr (Or.inr ⟨hnew.pending_new _ (by simp [subscribeAll]), hrow⟩)
      · rcases hnew.pending_only _ hp with hold' | htask | heq
        · exact hunknown _ rfl hold'
        · simp [subscribeAll] at htask
        · contradiction
  · intro client hclient sid hsid hstarting
    rw [hwanted] at hsid
    rw [hnew.starting] at hstarting
    rcases hmember client hclient with hm | rfl
    · have hne := hold client hm
      obtain ⟨hqueued, htaken⟩ := h.unwanted client hm sid hsid hstarting
      rw [hnew.sessions client hne]
      refine ⟨fun hp => hqueued (hnew.pending_other hp (by simpa [opClient] using hne)),
        fun hin => ?_⟩
      rcases htaken hin with hp | ⟨hpool, hp⟩
      · exact Or.inl (hnew.pending_old _ hp)
      · exact Or.inr ⟨hnew.pool_old client hpool, hnew.pending_old _ hp⟩
    · refine ⟨fun hp => ?_, fun hin => ?_⟩
      · rcases hnew.pending_only _ hp with hold' | htask | heq
        · exact hunknown _ rfl hold'
        · simp only [subscribeAll, List.mem_cons, List.not_mem_nil, or_false,
            TaskOp.subscribe.injEq, true_and, reduceCtorEq] at htask
          exact hsid (htask.imp id Or.inl)
        · contradiction
      · exact absurd ((hnew.new sid hin).imp id Or.inl) hsid

/-- A promoted client keeps the queue right. -/
theorem Converging.promote {s : Subscriptions} (h : Converging s) :
    Converging (subscriptionStep s .promote) := by
  have hknown : s.next ∉ s.joining := fun hmem =>
    absurd (h.fresh.1 s.next (List.mem_append_right _ hmem)) (Nat.lt_irrefl _)
  have hsessions : ∀ client, (subscriptionStep s .promote).sessionsOf client =
      if client = s.next then ((∅ : KeySet String).insert metaChannel ()).insert controlChannel ()
      else s.sessionsOf client := fun client => sessionsOf_setSessions _ _ _ _
  refine h.newClient
    { rows := rfl
      starting := rfl
      next := rfl
      pool := fun client hclient => ?_
      pool_old := fun client hclient => List.mem_append_left _ hclient
      joining := fun client hclient => Or.inl hclient
      apart := fun _ => hknown
      sessions := fun client hne => ?_
      new := fun sid hsid => ?_
      pending_old := fun op hop => pending_spawn.mpr (Or.inl hop)
      pending_new := fun op hop => pending_spawn.mpr (Or.inr hop)
      pending_only := fun op hop => ?_ }
  · exact (List.mem_append.mp hclient).imp id List.mem_singleton.mp
  · rw [hsessions, if_neg hne]
  · rw [hsessions, if_pos rfl, AList.mem_insert, AList.mem_insert] at hsid
    rcases hsid with rfl | rfl | hnone
    · exact Or.inr rfl
    · exact Or.inl rfl
    · exact absurd hnone (AList.notMem_empty _)
  · exact (pending_spawn.mp hop).imp id Or.inl

/-- A saved client that connects keeps the queue right. -/
theorem Converging.reconnectSaved {s : Subscriptions} (h : Converging s) :
    Converging (subscriptionStep s .reconnectSaved) := by
  have hknown : s.next ∉ s.pool := fun hmem =>
    absurd (h.fresh.1 s.next (List.mem_append_left _ hmem)) (Nat.lt_irrefl _)
  refine h.newClient
    { rows := rfl
      starting := rfl
      next := rfl
      pool := fun client hclient => Or.inl hclient
      pool_old := fun client hclient => hclient
      joining := fun client hclient => ?_
      apart := fun hpool => absurd hpool hknown
      sessions := fun client _ => rfl
      new := fun sid hsid => ?_
      pending_old := fun op hop => pending_spawn.mpr (Or.inl hop)
      pending_new := fun op hop => pending_spawn.mpr (Or.inr (List.mem_append_left _ hop))
      pending_only := fun op hop => ?_ }
  · exact (List.mem_append.mp hclient).imp id List.mem_singleton.mp
  · have hempty : s.sessionsOf s.next = ∅ := h.fresh.2.2 s.next (Nat.le_refl _)
    have hin : sid ∈ s.sessionsOf s.next := hsid
    rw [hempty] at hin
    exact absurd hin (AList.notMem_empty _)
  · rcases pending_spawn.mp hop with hold | hnew
    · exact Or.inl hold
    · exact Or.inr ((List.mem_append.mp hnew).imp id List.mem_singleton.mp)

/-- What a step of a task does to the queue; rows and runners stay. -/
structure Advanced (s s' : Subscriptions) (op : TaskOp) (more : List TaskOp) : Prop where
  rows : s'.rows = s.rows
  starting : s'.starting = s.starting
  next : s'.next = s.next
  /-- The step was queued. -/
  taken : Pending s op
  back : ∀ other, Pending s' other → Pending s other ∨ other ∈ more
  forth : ∀ other, Pending s other → other ≠ op → Pending s' other
  more : ∀ other ∈ more, Pending s' other

/-- A task that takes a step changes the queue so. -/
theorem advanced_of_runOp {s : Subscriptions} {i : ℕ} {op : TaskOp} {rest : List TaskOp}
    (hi : s.tasks[i]? = some (op :: rest)) (saves : Bool) {after : Subscriptions}
    {more : List TaskOp} (hran : runOp s saves op = (after, more)) :
    Advanced s { after with tasks := after.tasks.set i (more ++ rest) } op more := by
  have hkept : after.rows = s.rows ∧ after.starting = s.starting ∧ after.next = s.next ∧
      after.tasks = s.tasks := by
    have hafter : after = (runOp s saves op).1 := by rw [hran]
    rw [hafter]
    cases op with
    | subscribe client sid => exact ⟨rfl, rfl, rfl, rfl⟩
    | unsubscribe client sid => exact ⟨rfl, rfl, rfl, rfl⟩
    | loadSessions client => exact ⟨rfl, rfl, rfl, rfl⟩
    | unsubscribePool sid => exact ⟨rfl, rfl, rfl, rfl⟩
    | enterPool client =>
      rw [runOp]
      by_cases hjoining : client ∈ s.joining
      · rw [if_pos hjoining]
        exact ⟨rfl, rfl, rfl, rfl⟩
      · rw [if_neg hjoining]
        exact ⟨rfl, rfl, rfl, rfl⟩
  obtain ⟨hrows, hstarting, hnext, htasks⟩ := hkept
  have hlt : i < s.tasks.length := (List.getElem?_eq_some_iff.mp hi).1
  refine ⟨hrows, hstarting, hnext, ⟨op :: rest, List.mem_of_getElem? hi, List.mem_cons_self⟩,
    ?_, ?_, ?_⟩
  · intro other hother
    rw [Pending, htasks] at hother
    exact pending_of_pending_set hi hother
  · intro other hother hne
    rw [Pending, htasks]
    exact pending_set_of_pending hi hother hne
  · intro other hother
    rw [Pending, htasks]
    exact ⟨more ++ rest, List.mem_set hlt _, List.mem_append_left rest hother⟩

/-- The same sessions are wanted after a step of a task. -/
theorem Advanced.wanted {s s' : Subscriptions} {op : TaskOp} {more : List TaskOp}
    (ha : Advanced s s' op more) (sid : String) : Wanted s' sid ↔ Wanted s sid := by
  rw [Wanted, ha.rows, Wanted]

/-- A step of a task keeps the queue right, once it does so for what its client
has and for what follows it. -/
theorem Converging.advanced {s s' : Subscriptions} {op : TaskOp} {more : List TaskOp}
    (h : Converging s) (ha : Advanced s s' op more)
    (hpool : ∀ client ∈ s'.pool, client ∉ s'.joining)
    (hmember : ∀ client, Member s' client → Member s client)
    (hstays : ∀ client, client ∈ s.pool → client ∈ s'.pool)
    (hfresh : ∀ client, s.next ≤ client → s'.sessionsOf client = s.sessionsOf client)
    (hmore : ∀ other ∈ more, ∀ client ∈ opClient other, client < s.next)
    (hkept : ∀ sid, TaskOp.unsubscribePool sid ∉ more)
    (hwanted : ∀ client, Member s client → ∀ sid, Wanted s sid →
      TaskOp.unsubscribe client sid ∉ more ∧
        (sid ∈ s.sessionsOf client → sid ∈ s'.sessionsOf client) ∧
        (op = .subscribe client sid → sid ∈ s'.sessionsOf client) ∧
        (op = .loadSessions client → sid ∈ s.rows → TaskOp.subscribe client sid ∈ more))
    (hunwanted : ∀ client, Member s client → ∀ sid, ¬Wanted s sid → sid ∉ s.starting →
      TaskOp.subscribe client sid ∉ more ∧
        (sid ∈ s'.sessionsOf client → sid ∈ s.sessionsOf client ∨ op = .subscribe client sid) ∧
        (op = .unsubscribe client sid → sid ∉ s'.sessionsOf client) ∧
        (op = .unsubscribePool sid → client ∈ s.pool → TaskOp.unsubscribe client sid ∈ more)) :
    Converging s' := by
  refine ⟨⟨?_, ?_, ?_⟩, hpool, ?_, ?_, ?_⟩
  · intro client hclient
    rw [ha.next]
    exact h.fresh.1 client (List.mem_append.mpr (hmember client (List.mem_append.mp hclient)))
  · intro other hother client hclient
    rw [ha.next]
    rcases ha.back other hother with hold | hnew
    · exact h.fresh.2.1 other hold client hclient
    · exact hmore other hnew client hclient
  · intro client hclient
    rw [ha.next] at hclient
    rw [hfresh client hclient]
    exact h.fresh.2.2 client hclient
  · intro sid hsid hpending
    rcases ha.back _ hpending with hold | hnew
    · exact h.kept sid ((ha.wanted sid).mp hsid) hold
    · exact hkept sid hnew
  · intro client hclient sid hsid
    rw [ha.wanted] at hsid
    have hm := hmember client hclient
    obtain ⟨hthere, htaken⟩ := h.wanted client hm sid hsid
    obtain ⟨hnottaken, hstill, hsubscribed, hloaded⟩ := hwanted client hm sid hsid
    refine ⟨?_, fun hp => (ha.back _ hp).elim htaken hnottaken⟩
    rcases hthere with hin | hp | ⟨hp, hrow⟩
    · exact Or.inl (hstill hin)
    · by_cases hop : op = .subscribe client sid
      · exact Or.inl (hsubscribed hop)
      · exact Or.inr (Or.inl (ha.forth _ hp (Ne.symm hop)))
    · by_cases hop : op = .loadSessions client
      · exact Or.inr (Or.inl (ha.more _ (hloaded hop hrow)))
      · rw [ha.rows]
        exact Or.inr (Or.inr ⟨ha.forth _ hp (Ne.symm hop), hrow⟩)
  · intro client hclient sid hsid hstarting
    rw [ha.wanted] at hsid
    rw [ha.starting] at hstarting
    have hm := hmember client hclient
    obtain ⟨hqueued, htaken⟩ := h.unwanted client hm sid hsid hstarting
    obtain ⟨hnotqueued, honly, hgone, hspread⟩ := hunwanted client hm sid hsid hstarting
    refine ⟨fun hp => (ha.back _ hp).elim hqueued hnotqueued, fun hin => ?_⟩
    rcases honly hin with hold | hop
    · rcases htaken hold with hp | ⟨hc, hp⟩
      · by_cases hop : op = .unsubscribe client sid
        · exact absurd hin (hgone hop)
        · exact Or.inl (ha.forth _ hp (Ne.symm hop))
      · by_cases hop : op = .unsubscribePool sid
        · exact Or.inl (ha.more _ (hspread hop hc))
        · exact Or.inr ⟨hstays client hc, ha.forth _ hp (Ne.symm hop)⟩
    · exact absurd (hop ▸ ha.taken) hqueued

/-- A step about sessions that leaves the clients where they are. -/
theorem Converging.advanced_sessions {s after : Subscriptions} {op : TaskOp} {more : List TaskOp}
    {tasks : List (List TaskOp)} (h : Converging s)
    (ha : Advanced s { after with tasks } op more) {client : ClientId} {sids : KeySet String}
    (hafter : after = s.setSessions client sids) (hop : opClient op = some client)
    (hmore : more = [])
    (hwanted : Member s client → ∀ sid, Wanted s sid →
      (sid ∈ s.sessionsOf client → sid ∈ sids) ∧ (op = .subscribe client sid → sid ∈ sids) ∧
        op ≠ .loadSessions client)
    (hunwanted : Member s client → ∀ sid, ¬Wanted s sid →
      (sid ∈ sids → sid ∈ s.sessionsOf client ∨ op = .subscribe client sid) ∧
        (op = .unsubscribe client sid → sid ∉ sids)) :
    Converging { after with tasks } := by
  have hsessions : ∀ other, Subscriptions.sessionsOf { after with tasks } other =
      if other = client then sids else s.sessionsOf other := by
    intro other
    rw [← sessionsOf_setSessions, ← hafter]
    rfl
  have hpool : after.pool = s.pool := by rw [hafter]; rfl
  have hjoining : after.joining = s.joining := by rw [hafter]; rfl
  have hknown : client < s.next := h.fresh.2.1 op ha.taken client hop
  have hother : ∀ other, other ≠ client → ∀ sid, op ≠ .subscribe other sid ∧
      op ≠ .unsubscribe other sid ∧ op ≠ .loadSessions other := by
    intro other hne sid
    refine ⟨fun heq => ?_, fun heq => ?_, fun heq => ?_⟩ <;> rw [heq] at hop
    · exact hne (Option.some.inj hop)
    · exact hne (Option.some.inj hop)
    · exact hne (Option.some.inj hop)
  refine h.advanced ha ?_ ?_ ?_ ?_ (by simp [hmore]) (by simp [hmore]) ?_ ?_
  · intro other hin
    have hold : other ∈ s.pool := hpool ▸ hin
    exact hjoining ▸ h.apart other hold
  · rintro other (hin | hin)
    · exact Or.inl (hpool ▸ hin)
    · exact Or.inr (hjoining ▸ hin)
  · intro other hin
    exact hpool ▸ hin
  · intro other hlarge
    rw [hsessions, if_neg]
    rintro rfl
    exact absurd hknown (Nat.not_lt.mpr hlarge)
  · intro other hm sid hsid
    rw [hsessions, hmore]
    by_cases heq : other = client
    · obtain ⟨hstill, hsubscribed, hload⟩ := hwanted (heq ▸ hm) sid hsid
      rw [if_pos heq, heq]
      exact ⟨List.not_mem_nil, hstill, hsubscribed, fun hop' => absurd hop' hload⟩
    · obtain ⟨hsubscribe, -, hload⟩ := hother other heq sid
      rw [if_neg heq]
      exact ⟨List.not_mem_nil, id, fun hop' => absurd hop' hsubscribe,
        fun hop' => absurd hop' hload⟩
  · intro other hm sid hsid _
    have hpoolop : op ≠ .unsubscribePool sid := by
      rintro rfl
      contradiction
    rw [hsessions, hmore]
    by_cases heq : other = client
    · obtain ⟨honly, hgone⟩ := hunwanted (heq ▸ hm) sid hsid
      rw [if_pos heq, heq]
      exact ⟨List.not_mem_nil, honly, hgone, fun hop' => absurd hop' hpoolop⟩
    · obtain ⟨-, hunsubscribe, -⟩ := hother other heq sid
      rw [if_neg heq]
      exact ⟨List.not_mem_nil, Or.inl, fun hop' => absurd hop' hunsubscribe,
        fun hop' => absurd hop' hpoolop⟩

/-- Two steps that subscribe one client are about the same session. -/
theorem Converging.subscribe {s : Subscriptions} (h : Converging s) {i : ℕ} {client : ClientId}
    {sid : String} {rest : List TaskOp}
    (hi : s.tasks[i]? = some (.subscribe client sid :: rest)) (saves : Bool) :
    Converging (subscriptionStep s (.advance i saves)) := by
  rw [subscriptionStep, hi]
  refine h.advanced_sessions (advanced_of_runOp hi saves rfl) rfl rfl rfl ?_ ?_
  · intro _ other _
    refine ⟨fun hin => (AList.mem_insert _).mpr (Or.inr hin), fun heq => ?_, by simp⟩
    exact (AList.mem_insert _).mpr (Or.inl (TaskOp.subscribe.inj heq).2.symm)
  · intro _ other _
    refine ⟨fun hin => ?_, by simp⟩
    rcases (AList.mem_insert _).mp hin with rfl | hold
    · exact Or.inr rfl
    · exact Or.inl hold

/-- An unsubscription that is queued is of a session that is not wanted. -/
theorem Converging.unsubscribe {s : Subscriptions} (h : Converging s) {i : ℕ} {client : ClientId}
    {sid : String} {rest : List TaskOp}
    (hi : s.tasks[i]? = some (.unsubscribe client sid :: rest)) (saves : Bool) :
    Converging (subscriptionStep s (.advance i saves)) := by
  rw [subscriptionStep, hi]
  have ha := advanced_of_runOp hi saves rfl
  refine h.advanced_sessions ha rfl rfl rfl ?_ ?_
  · intro hm other hwanted
    have hne : other ≠ sid := by
      rintro rfl
      exact (h.wanted client hm other hwanted).2 ha.taken
    exact ⟨fun hin => AList.mem_erase.mpr ⟨hne, hin⟩, by simp, by simp⟩
  · intro _ other _
    refine ⟨fun hin => Or.inl (AList.mem_erase.mp hin).2, fun heq hin => ?_⟩
    exact (AList.mem_erase.mp hin).1 (TaskOp.unsubscribe.inj heq).2.symm

/-- The sessions that are read have rows, and all of them will be subscribed. -/
theorem Converging.loadSessions {s : Subscriptions} (h : Converging s) {i : ℕ} {client : ClientId}
    {rest : List TaskOp} (hi : s.tasks[i]? = some (.loadSessions client :: rest)) (saves : Bool) :
    Converging (subscriptionStep s (.advance i saves)) := by
  rw [subscriptionStep, hi]
  have ha := advanced_of_runOp hi saves rfl
  refine h.advanced ha h.apart (fun _ => id) (fun _ => id) (fun _ _ => rfl) ?_ (by simp) ?_ ?_
  · intro other hother known hknown
    obtain ⟨sid, -, rfl⟩ := List.mem_map.mp hother
    obtain rfl := Option.some.inj hknown
    exact h.fresh.2.1 _ ha.taken client rfl
  · intro other _ sid _
    refine ⟨by simp, id, by simp, fun heq hrow => ?_⟩
    rw [TaskOp.loadSessions.inj heq]
    exact List.mem_map_of_mem (AList.mem_keys.mpr hrow)
  · intro other _ sid hsid _
    refine ⟨fun hmem => ?_, Or.inl, by simp, by simp⟩
    obtain ⟨row, hrow, heq⟩ := List.mem_map.mp hmem
    rw [(TaskOp.subscribe.inj heq).2] at hrow
    exact hsid (Or.inr (Or.inr (AList.mem_keys.mp hrow)))

/-- What is taken from the pool is not wanted. -/
theorem Converging.unsubscribePool {s : Subscriptions} (h : Converging s) {i : ℕ} {sid : String}
    {rest : List TaskOp} (hi : s.tasks[i]? = some (.unsubscribePool sid :: rest)) (saves : Bool) :
    Converging (subscriptionStep s (.advance i saves)) := by
  rw [subscriptionStep, hi]
  have ha := advanced_of_runOp hi saves rfl
  refine h.advanced ha h.apart (fun _ => id) (fun _ => id) (fun _ _ => rfl) ?_ (by simp) ?_ ?_
  · intro other hother known hknown
    obtain ⟨pooled, hpooled, rfl⟩ := List.mem_map.mp hother
    obtain rfl := Option.some.inj hknown
    exact h.fresh.1 pooled (List.mem_append_left _ hpooled)
  · intro client _ other hwanted
    refine ⟨fun hmem => ?_, id, by simp, by simp⟩
    obtain ⟨_, _, heq⟩ := List.mem_map.mp hmem
    rw [← (TaskOp.unsubscribe.inj heq).2] at hwanted
    exact h.kept sid hwanted ha.taken
  · intro client _ other _ _
    refine ⟨by simp, Or.inl, by simp, fun heq hpool => ?_⟩
    rw [← TaskOp.unsubscribePool.inj heq]
    exact List.mem_map_of_mem hpool

/-- Where clients are after one of them joined the pool, or was dropped. -/
theorem runOp_enterPool {s after : Subscriptions} {saves : Bool} {client : ClientId}
    {more : List TaskOp} (hran : runOp s saves (.enterPool client) = (after, more)) :
    more = [] ∧ after.subscribed = s.subscribed ∧ (∀ other ∈ s.pool, other ∈ after.pool) ∧
      (∀ other ∈ after.pool, other ∈ s.pool ∨ (other = client ∧ client ∈ s.joining)) ∧
      ∀ other ∈ after.joining, other ∈ s.joining ∧ (client ∈ s.joining → other ≠ client) := by
  rw [runOp] at hran
  by_cases hjoining : client ∈ s.joining
  · rw [if_pos hjoining, Prod.mk.injEq] at hran
    obtain ⟨rfl, rfl⟩ := hran
    refine ⟨rfl, rfl, ?_, ?_, ?_⟩
    · intro other hin
      dsimp only
      split
      · exact List.mem_append_left _ hin
      · exact hin
    · intro other
      dsimp only
      split
      · intro hin
        exact (List.mem_append.mp hin).imp id fun hin => ⟨List.mem_singleton.mp hin, hjoining⟩
      · exact Or.inl
    · intro other hin
      obtain ⟨hold, hne⟩ := List.mem_filter.mp hin
      exact ⟨hold, fun _ => of_decide_eq_true hne⟩
  · rw [if_neg hjoining, Prod.mk.injEq] at hran
    obtain ⟨rfl, rfl⟩ := hran
    exact ⟨rfl, rfl, fun _ hin => hin, fun _ hin => Or.inl hin,
      fun _ hin => ⟨hin, fun hin' => absurd hin' hjoining⟩⟩

/-- A client that joins the pool takes what is queued for it along. -/
theorem Converging.enterPool {s : Subscriptions} (h : Converging s) {i : ℕ} {client : ClientId}
    {rest : List TaskOp} (hi : s.tasks[i]? = some (.enterPool client :: rest)) (saves : Bool) :
    Converging (subscriptionStep s (.advance i saves)) := by
  rw [subscriptionStep, hi]
  dsimp only
  rcases hran : runOp s saves (.enterPool client) with ⟨after, more⟩
  have ha := advanced_of_runOp hi saves hran
  obtain ⟨hmore, hsubscribed, hstays, hpool, hjoining⟩ := runOp_enterPool hran
  have hsessions : ∀ other, Subscriptions.sessionsOf
      { after with tasks := after.tasks.set i (more ++ rest) } other = s.sessionsOf other := by
    intro other
    rw [Subscriptions.sessionsOf, hsubscribed, Subscriptions.sessionsOf]
  refine h.advanced ha ?_ ?_ hstays (fun other _ => hsessions other) (by simp [hmore])
    (by simp [hmore]) ?_ ?_
  · intro other hin hin'
    obtain ⟨hold, hne⟩ := hjoining other hin'
    rcases hpool other hin with hp | ⟨heq, hc⟩
    · exact h.apart other hp hold
    · exact hne hc heq
  · rintro other (hin | hin)
    · rcases hpool other hin with hp | ⟨rfl, hc⟩
      · exact Or.inl hp
      · exact Or.inr hc
    · exact Or.inr (hjoining other hin).1
  · intro other _ sid _
    rw [hsessions, hmore]
    exact ⟨List.not_mem_nil, id, by simp, by simp⟩
  · intro other _ sid _ _
    rw [hsessions, hmore]
    exact ⟨List.not_mem_nil, Or.inl, by simp, by simp⟩

/-- A step of a task keeps the queue right. -/
theorem Converging.advance {s : Subscriptions} (h : Converging s) (i : ℕ) (saves : Bool) :
    Converging (subscriptionStep s (.advance i saves)) := by
  rcases hi : s.tasks[i]? with _ | task
  · rw [subscriptionStep, hi]
    exact h
  · rcases task with _ | ⟨op, rest⟩
    · rw [subscriptionStep, hi]
      exact h
    · cases op with
      | subscribe client sid => exact h.subscribe hi saves
      | unsubscribe client sid => exact h.unsubscribe hi saves
      | loadSessions client => exact h.loadSessions hi saves
      | unsubscribePool sid => exact h.unsubscribePool hi saves
      | enterPool client => exact h.enterPool hi saves

/-- Every event in turn keeps the queue right. -/
theorem converging_step (s : Subscriptions) (e : SubscriptionEvent) (h : Converging s)
    (hcond : InTurn s e) : Converging (subscriptionStep s e) := by
  cases e with
  | hello sid => exact h.hello hcond
  | create sid => exact h.create sid
  | startFails sid => exact h.startFails hcond
  | deleteLocal sid => exact h.deleteLocal hcond
  | deleteRelay sid => exact h.deleteRelay hcond
  | expire sid => exact h.expire hcond
  | forceStop sids => exact h.forceStop hcond
  | promote => exact h.promote
  | reconnectSaved => exact h.reconnectSaved
  | frontendJoined client => exact h.frontendJoined client
  | removeClient client => exact h.removeClient client
  | advance i saves => exact h.advance i saves

/-- Nothing is queued at first, and there are no clients. -/
theorem converging_initial : Converging .initial := by
  have hnone : ∀ op, ¬Pending .initial op := by
    rintro op ⟨task, htask, -⟩
    exact absurd htask List.not_mem_nil
  have hempty : ∀ client, ¬Member .initial client := by
    rintro client (hin | hin)
    · exact absurd hin List.not_mem_nil
    · exact absurd hin List.not_mem_nil
  refine ⟨⟨fun client hin => absurd hin List.not_mem_nil, fun op hop => absurd hop (hnone op),
    fun client _ => rfl⟩, fun client hin => absurd hin List.not_mem_nil, fun sid _ => hnone _,
    fun client hin => absurd hin (hempty client), fun client hin => absurd hin (hempty client)⟩

instance (s : Subscriptions) (sid : String) : Decidable (Wanted s sid) :=
  inferInstanceAs (Decidable (sid = metaChannel ∨ sid = controlChannel ∨ sid ∈ s.rows))

instance (s : Subscriptions) (op : TaskOp) : Decidable (Pending s op) :=
  inferInstanceAs (Decidable (∃ task ∈ s.tasks, op ∈ task))

instance (s : Subscriptions) (client : ClientId) (sid : String) : Decidable (Without s client sid) :=
  inferInstanceAs (Decidable (sid ∉ s.sessionsOf client ∧ ¬Pending s (.subscribe client sid)))

instance (s : Subscriptions) : Decidable (Quiescent s) :=
  inferInstanceAs (Decidable ((∀ task ∈ s.tasks, task = []) ∧ ∀ sid ∈ s.starting, Wanted s sid))

instance (s : Subscriptions) : (event : SubscriptionEvent) → Decidable (InTurn s event)
  | .hello sid => inferInstanceAs (Decidable (¬Wanted s sid → ¬Pending s (.unsubscribePool sid) ∧
      (∀ client ∈ s.pool ++ s.joining, ¬Pending s (.unsubscribe client sid)) ∧
        ∀ client ∈ s.joining, Pending s (.loadSessions client)))
  | .startFails sid => inferInstanceAs (Decidable (sid ∈ s.starting → Wanted s sid ∨
      sid ∈ s.starting.erase sid ∨ ∀ client ∈ s.pool ++ s.joining, Without s client sid))
  | .deleteLocal sid => inferInstanceAs (Decidable (sid ∈ s.rows → sid ≠ metaChannel ∧
      sid ≠ controlChannel ∧
      (∀ client ∈ s.pool ++ s.joining, ¬Pending s (.subscribe client sid)) ∧
        ∀ client ∈ s.joining, sid ∉ s.sessionsOf client))
  | .deleteRelay sid => inferInstanceAs (Decidable (sid ∈ s.rows → sid ≠ metaChannel ∧
      sid ≠ controlChannel ∧
      (∀ client ∈ s.pool ++ s.joining, ¬Pending s (.subscribe client sid)) ∧
        ∀ client ∈ s.joining, sid ∉ s.sessionsOf client))
  | .expire sid => inferInstanceAs (Decidable (sid ∈ s.rows → sid ≠ metaChannel ∧
      sid ≠ controlChannel ∧ ∀ client ∈ s.pool ++ s.joining, Without s client sid))
  | .forceStop sids => inferInstanceAs (Decidable (s.pool ≠ [] → ∀ sid ∈ sids, ¬Wanted s sid))
  | .create _ => isTrue trivial
  | .promote => isTrue trivial
  | .reconnectSaved => isTrue trivial
  | .frontendJoined _ => isTrue trivial
  | .removeClient _ => isTrue trivial
  | .advance .. => isTrue trivial

/-- A session that comes while a client is pooled, and is deleted after a
second client joined. -/
def sharedSession : List SubscriptionEvent :=
  [.promote, .advance 0 true, .advance 0 true, .advance 0 true, .create "s", .advance 1 true,
    .hello "s", .advance 2 true, .reconnectSaved, .advance 3 true, .advance 3 true,
    .advance 3 true, .advance 3 true, .advance 3 true, .frontendJoined 1, .advance 4 true,
    .advance 4 true, .deleteRelay "s", .advance 5 true, .advance 5 true, .advance 5 true]

/-- A session that is deleted at once; the task of the deletion runs before the
task of the hello. -/
def overtakenHello : List SubscriptionEvent :=
  [.promote, .advance 0 true, .advance 0 true, .advance 0 true, .hello "s", .deleteLocal "s",
    .advance 2 true, .advance 1 true]

end Teleprompter.SessionSubscriptions
