import Teleprompter.RelayDelivery
import Teleprompter.RelayIsolation
import Teleprompter.SpawnedTasks

/-!
# Pushes on their way to a frontend

A push that passes its gate samples the target frontend's connection and goes on
in a task of its own. The task asks the push service, looks again whether the
sampled connection is live when the service leaves the notification to the
socket, and delivers the reply. The relay's lock is free between any two of these
steps, and between the look-up of an outbox and the try to send into it. The log
keeps what became of each push.
-/

namespace Teleprompter.PushDelivery

open FiniteDictionary StepRuns RelayServer RelayConn RelayEffects PushService
open RelayDelivery (Delivery Outbox mapDeliveryResult)

section Model

/-- Where a push task stands. -/
inductive Stage where
  | started
  /-- The service answered that the socket takes the notification. -/
  | rechecking
  | guarding
  /-- The gateway was asked; the guards were checked at this time. -/
  | asking (now : ℕ)
  | committing (now : ℕ)
  | delivering (calls : List Delivery)
  /-- The sender of an outbox was cloned under the lock. -/
  | sending (target : ConnId) (msg : RelayServerMessage) (calls : List Delivery)
  deriving DecidableEq

/-- The spawned task of one push. Its notice repeats title, body and data of the request. -/
structure PushTask where
  req : PushRequest
  /-- The connection that was found for the frontend when the push came. -/
  targetFrontend : Option ConnId
  /-- The connection that the push came from. -/
  daemonConn : ConnId
  stage : Stage
  deriving DecidableEq

/-- The task goes on to deliver the reply for a result. -/
def PushTask.reply (task : PushTask) (result : DeliveryResult) : Stage :=
  .delivering [⟨mapDeliveryResult result task.targetFrontend task.daemonConn task.req.title
    task.req.body task.req.data task.req.frontendId, []⟩]

/-- What is observed of the pushes. -/
inductive Entry where
  /-- The gateway is asked for this push. -/
  | asked (task : ℕ)
  /-- A delivered push with this key is recorded. -/
  | recorded (key : String) (seenAt : ℕ)
  /-- The push is dropped as a duplicate. -/
  | suppressed (task : ℕ) (now : ℕ)
  /-- A message is put into an outbox; what the connection is authenticated as. -/
  | put (task : ℕ) (target : ConnId) (msg : RelayServerMessage) (auth : Option AuthState)

/-- A relay with a push service and the push tasks. -/
structure PushSystem where
  relay : RelayState
  inner : Inner
  tasks : List PushTask
  outbox : ConnId → Outbox
  log : List Entry

/-- Nothing happened yet. -/
def PushSystem.start (env : RelayEnv) : PushSystem :=
  ⟨RelayState.initial env, .new, [], fun _ => ⟨[], false⟩, []⟩

/-- The interruption level as the request carries it. -/
def levelToString : InterruptionLevel → String
  | .active => "active"
  | .timeSensitive => "time-sensitive"

/-- The sampled connection is registered and still the same frontend. -/
def frontendConnLive (core : RelayCore) (conn : Option ConnId) (frontendId : String) : Bool :=
  conn.any fun cid => (core.authedState cid).any fun auth =>
    auth.role = .frontend ∧ auth.frontendId = some frontendId

/-- The gate of a push: a push that passes spawns a task. -/
def PushSystem.push (env : RelayEnv) (s : PushSystem) (connId : ConnId)
    (frontendId blob title body : String) (level : Option InterruptionLevel)
    (data : Option PushData) : PushSystem :=
  match s.relay.core.authedState connId, resolvePushLocked env s.relay.core connId frontendId blob with
  | some client, .inr (target, token) =>
    { s with
      tasks := s.tasks ++ [⟨⟨frontendId, client.daemonId, token, title, body, target.isSome,
        level.map levelToString, data⟩, target, connId, .started⟩] }
  | _, _ => s

/-- A task goes on at another stage. -/
def PushSystem.goto (s : PushSystem) (i : ℕ) (task : PushTask) (stage : Stage) : PushSystem :=
  { s with tasks := s.tasks.set i { task with stage } }

/-- A message is tried on the outbox of a connection. A full outbox has its
connection closed at the end of the call. -/
def PushSystem.trySend (cap : ℕ) (s : PushSystem) (i : ℕ) (task : PushTask) (target : ConnId)
    (msg : RelayServerMessage) (calls : List Delivery) : PushSystem :=
  if (s.outbox target).closed then s.goto i task (.delivering calls)
  else if (s.outbox target).queue.length < cap then
    { s.goto i task (.delivering calls) with
      outbox := Function.update s.outbox target
        { s.outbox target with queue := (s.outbox target).queue ++ [msg] }
      log := s.log ++ [.put i target msg (s.relay.core.authedState target)] }
  else
    match calls with
    | [] => s.goto i task (.delivering [])
    | call :: calls =>
      s.goto i task (.delivering ({ call with backpressured := call.backpressured ++ [target] } :: calls))

/-- A forced close; the presence that follows is delivered first. -/
def PushSystem.closeConn (env : RelayEnv) (s : PushSystem) (i : ℕ) (task : PushTask)
    (target : ConnId) (now : ℕ) (calls : List Delivery) : PushSystem :=
  let stepped := relayStepActions env s.relay (.forceClose target now)
  { s.goto i task (.delivering (⟨stepped.2, []⟩ :: calls)) with relay := stepped.1 }

/-- The delivery of replies: each message is looked up first, connections that were
full are closed last. -/
def PushSystem.deliver (env : RelayEnv) (s : PushSystem) (i : ℕ) (task : PushTask) (now : ℕ) :
    List Delivery → PushSystem
  | [] => s
  | ⟨.send target msg :: actions, backpressured⟩ :: calls =>
    if target ∈ s.relay.core.conns then
      s.goto i task (.sending target msg (⟨actions, backpressured⟩ :: calls))
    else s.goto i task (.delivering (⟨actions, backpressured⟩ :: calls))
  | ⟨.close target _ _ :: actions, backpressured⟩ :: calls =>
    s.closeConn env i task target now (⟨actions, backpressured⟩ :: calls)
  | ⟨[], target :: backpressured⟩ :: calls =>
    s.closeConn env i task target now (⟨[], backpressured⟩ :: calls)
  | ⟨[], []⟩ :: calls => s.goto i task (.delivering calls)

/-- The guard phase of a task, at a time. -/
def PushSystem.guard (cfg : PushServiceConfig) (s : PushSystem) (i : ℕ) (task : PushTask) (now : ℕ) :
    PushSystem :=
  match guardPhase cfg s.inner task.req now with
  | (inner, none) =>
    { s.goto i task (.asking now) with inner := inner, log := s.log ++ [.asked i] }
  | (inner, some .deduped) =>
    { s.goto i task (task.reply .deduped) with inner := inner, log := s.log ++ [.suppressed i now] }
  | (inner, some result) => { s.goto i task (task.reply result) with inner := inner }

/-- The next step of a task, with the clock and the answer of the gateway. -/
def PushSystem.advance (env : RelayEnv) (cfg : PushServiceConfig) (cap : ℕ) (s : PushSystem) (i : ℕ)
    (task : PushTask) (now : ℕ) (answer : ApnsDeliveryResult) : PushSystem :=
  match task.stage with
  | .started => s.goto i task (if task.req.isFrontendConnected then .rechecking else .guarding)
  | .rechecking =>
    if frontendConnLive s.relay.core task.targetFrontend task.req.frontendId then
      s.goto i task (task.reply .ws)
    else s.goto i { task with req := { task.req with isFrontendConnected := false } } .guarding
  | .guarding => s.guard cfg i task now
  | .asking guarded =>
    match answer with
    | .ok => s.goto i task (.committing guarded)
    | .err true _ => s.goto i task (task.reply .deadToken)
    | .err false _ => s.goto i task (task.reply .error)
  | .committing guarded =>
    { s.goto i task (task.reply .push) with
      inner := commitPhase s.inner task.req guarded
      log := s.log ++ (dedupKey task.req).toList.map fun key => .recorded key guarded }
  | .delivering calls => s.deliver env i task now calls
  | .sending target msg calls => s.trySend cap i task target msg calls

/-- What can happen. -/
inductive PushEvent where
  /-- A critical section of another task. -/
  | relay (e : RelayEvent)
  /-- The read loop of a connection takes a push to its gate. -/
  | push (connId : ConnId) (frontendId blob title body : String) (level : Option InterruptionLevel)
      (data : Option PushData)
  /-- A push task goes on. -/
  | run (i : ℕ) (now : ℕ) (answer : ApnsDeliveryResult)
  /-- Another task puts a message into an outbox. -/
  | fill (connId : ConnId) (msg : RelayServerMessage)
  /-- A write task takes a message. -/
  | drain (connId : ConnId)
  | writerEnds (connId : ConnId)
  | cleanup (now : ℕ)

/-- One step. -/
def step (env : RelayEnv) (cfg : PushServiceConfig) (cap : ℕ) (s : PushSystem) :
    PushEvent → PushSystem
  | .relay e => { s with relay := relayStep env s.relay e }
  | .push connId frontendId blob title body level data =>
    if s.relay.sockets.lookup connId = some .reading then
      s.push env connId frontendId blob title body level data
    else s
  | .run i now answer =>
    match s.tasks[i]? with
    | some task => s.advance env cfg cap i task now answer
    | none => s
  | .fill connId msg =>
    if ¬(s.outbox connId).closed ∧ (s.outbox connId).queue.length < cap then
      { s with
        outbox := Function.update s.outbox connId
          { s.outbox connId with queue := (s.outbox connId).queue ++ [msg] } }
    else s
  | .drain connId =>
    { s with
      outbox := Function.update s.outbox connId
        { s.outbox connId with queue := (s.outbox connId).queue.tail } }
  | .writerEnds connId =>
    { s with outbox := Function.update s.outbox connId { s.outbox connId with closed := true } }
  | .cleanup now => { s with inner := runCleanup cfg s.inner now }

end Model

section Accounts

variable (cfg : PushServiceConfig)

/-- The identity that a push is meant for. -/
def IsTarget (req : PushRequest) (auth : AuthState) : Prop :=
  auth.role = .frontend ∧ auth.frontendId = some req.frontendId ∧ auth.daemonId = req.daemonId

instance (req : PushRequest) (auth : AuthState) : Decidable (IsTarget req auth) :=
  inferInstanceAs (Decidable (_ ∧ _ ∧ _))

/-- The notification was put into the outbox of a connection that was open and
authenticated as the frontend at that moment. -/
def Notified (s : PushSystem) (i : ℕ) (task : PushTask) : Prop :=
  ∃ target auth, .put i target (.notification task.req.title task.req.body task.req.data)
    (some auth) ∈ s.log ∧ IsTarget task.req auth

/-- An equal push was recorded before, within the dedup window. -/
def Duplicate (s : PushSystem) (i : ℕ) (task : PushTask) : Prop :=
  ∃ now key seenAt before after, s.log = before ++ .suppressed i now :: after ∧
    dedupKey task.req = some key ∧ .recorded key seenAt ∈ before ∧ seenWithin cfg now seenAt = true

/-- An error about the push was put into the outbox of the connection it came from. -/
def Reported (s : PushSystem) (i : ℕ) (task : PushTask) : Prop :=
  ∃ e m auth, .put i task.daemonConn (.err e m (some task.req.frontendId)) (some auth) ∈ s.log

/-- What became of a push can be told. -/
def Accounted (s : PushSystem) (i : ℕ) (task : PushTask) : Prop :=
  Notified s i task ∨ .asked i ∈ s.log ∨ Duplicate cfg s i task ∨ Reported s i task

/-- No push whose task is done was lost silently. -/
def NeverLost (s : PushSystem) : Prop :=
  ∀ i task, s.tasks[i]? = some task → task.stage = .delivering [] → Accounted cfg s i task

end Accounts

section Condition

/-- The message that a task delivers next, and to whom. -/
def Stage.addressed : Stage → Option (ConnId × RelayServerMessage)
  | .delivering (⟨.send target msg :: _, _⟩ :: _) => some (target, msg)
  | .sending target msg _ => some (target, msg)
  | _ => none

/-- The connection that a task closes next. -/
def Stage.closes : Stage → Option ConnId
  | .delivering (⟨.close target _ _ :: _, _⟩ :: _) => some target
  | .delivering (⟨[], target :: _⟩ :: _) => some target
  | _ => none

/-- The operation ends the connection, or makes another peer of it before a
notification reaches it. -/
def Disturbs (req : PushRequest) (target : ConnId) (msg : RelayServerMessage) : CoreOp → Prop
  | .close connId _ => connId = target
  | .join connId auth _ _ => connId = target ∧ ¬IsTarget req auth ∧
    msg = .notification req.title req.body req.data
  | _ => False

/-- No connection that a push is about to reach is disturbed; a push for which the
gateway was asked does not count. -/
def SparesAddressees (s : PushSystem) (op : CoreOp) : Prop :=
  ∀ i task target msg, s.tasks[i]? = some task → task.stage.addressed = some (target, msg) →
    .asked i ∉ s.log → ¬Disturbs task.req target msg op

/-- What the next step of a task asks for: a frontend that is found live is one of the
same daemon, a push is refused only while its daemon is connected, the outbox of an
addressee has room, and a forced close spares the other addressees. -/
def GoesOn (cfg : PushServiceConfig) (cap : ℕ) (s : PushSystem) (i now : ℕ) (task : PushTask) : Prop :=
  match task.stage with
  | .rechecking => ∀ conn, task.targetFrontend = some conn →
    frontendConnLive s.relay.core (some conn) task.req.frontendId →
    s.relay.core.authDaemon conn = some task.req.daemonId
  | .guarding => ∀ result, (guardPhase cfg s.inner task.req now).2 = some result →
    result = .deduped ∨ (s.relay.core.authedState task.daemonConn).isSome
  | .sending target _ _ => .asked i ∉ s.log →
    ¬(s.outbox target).closed ∧ (s.outbox target).queue.length < cap
  | stage => ∀ target, stage.closes = some target → SparesAddressees s (.close target now)

/-- Nothing comes between the last look at an addressee and the delivery. -/
def Undisturbed (env : RelayEnv) (cfg : PushServiceConfig) (cap : ℕ) (s : PushSystem) :
    PushEvent → Prop
  | .relay e => SparesAddressees s (effectOf env s.relay e)
  | .run i now _ => ∀ task, s.tasks[i]? = some task → GoesOn cfg cap s i now task
  | _ => True

end Condition

section Invariant

variable {env : RelayEnv} {cfg : PushServiceConfig} {cap : ℕ} {s s' : PushSystem} {i : ℕ}
  {task task' : PushTask} {target : ConnId} {msg : RelayServerMessage}

/-- A message that accounts for the push once it is put into the outbox now. -/
def Due (core : RelayCore) (task : PushTask) (target : ConnId) (msg : RelayServerMessage) : Prop :=
  (msg = .notification task.req.title task.req.body task.req.data ∧
    ∃ auth, core.authedState target = some auth ∧ IsTarget task.req auth) ∨
  (target = task.daemonConn ∧ (core.authedState target).isSome ∧
    ∃ e m, msg = .err e m (some task.req.frontendId))

/-- What is known about a push at each of its stages. -/
def Fine (cfg : PushServiceConfig) (s : PushSystem) (i : ℕ) (task : PushTask) : Prop :=
  match task.stage with
  | .asking _ => .asked i ∈ s.log
  | .committing _ => .asked i ∈ s.log
  | .delivering calls => Accounted cfg s i task ∨
    ∃ target msg, calls = [⟨[.send target msg], []⟩] ∧ Due s.relay.core task target msg
  | .sending target msg _ => Accounted cfg s i task ∨ Due s.relay.core task target msg
  | _ => True

/-- Every push is fine, and the service remembers only what was recorded. -/
structure Sound (cfg : PushServiceConfig) (s : PushSystem) : Prop where
  freshIds : FreshIds s.relay
  recorded : ∀ key seenAt, s.inner.dedupSeen.lookup key = some seenAt → .recorded key seenAt ∈ s.log
  fine : ∀ i task, s.tasks[i]? = some task → Fine cfg s i task

/-- A longer log still accounts for a push. -/
theorem Accounted.mono (h : Accounted cfg s i task) {extra : List Entry}
    (hlog : s'.log = s.log ++ extra) (hreq : task'.req = task.req)
    (hconn : task'.daemonConn = task.daemonConn) : Accounted cfg s' i task' := by
  rcases h with ⟨target, auth, hput, htarget⟩ | hasked | ⟨now, key, seenAt, before, after, hsplit, h⟩ |
    ⟨e, m, auth, hput⟩
  · refine .inl ⟨target, auth, ?_, hreq ▸ htarget⟩
    rw [hlog, hreq]
    exact List.mem_append_left _ hput
  · refine .inr (.inl ?_)
    rw [hlog]
    exact List.mem_append_left _ hasked
  · refine .inr (.inr (.inl ⟨now, key, seenAt, before, after ++ extra, ?_, hreq ▸ h⟩))
    rw [hlog, hsplit, List.append_assoc, List.cons_append]
  · refine .inr (.inr (.inr ⟨e, m, auth, ?_⟩))
    rw [hlog, hreq, hconn]
    exact List.mem_append_left _ hput

/-- A push stays fine under a longer log, as long as its addressee stays. -/
theorem Fine.mono (h : Fine cfg s i task) {extra : List Entry} (hlog : s'.log = s.log ++ extra)
    (hdue : ∀ target msg, task.stage.addressed = some (target, msg) → .asked i ∉ s.log →
      Due s.relay.core task target msg → Due s'.relay.core task target msg) :
    Fine cfg s' i task := by
  have haccounted : Accounted cfg s i task → Accounted cfg s' i task :=
    fun h => h.mono hlog rfl rfl
  have hasked : .asked i ∈ s.log → .asked i ∈ s'.log := by
    intro h
    rw [hlog]
    exact List.mem_append_left _ h
  unfold Fine at h ⊢
  split
  · next hstage =>
    rw [hstage] at h
    exact hasked h
  · next hstage =>
    rw [hstage] at h
    exact hasked h
  · next calls hstage =>
    rw [hstage] at h
    rcases h with h | ⟨target, msg, hcalls, h⟩
    · exact .inl (haccounted h)
    · by_cases hgateway : .asked i ∈ s.log
      · exact .inl (.inr (.inl (hasked hgateway)))
      · refine .inr ⟨target, msg, hcalls, hdue target msg ?_ hgateway h⟩
        rw [hstage, hcalls]
        rfl
  · next target msg calls hstage =>
    rw [hstage] at h
    rcases h with h | h
    · exact .inl (haccounted h)
    · by_cases hgateway : .asked i ∈ s.log
      · exact .inl (.inr (.inl (hasked hgateway)))
      · refine .inr (hdue target msg ?_ hgateway h)
        rw [hstage]
        rfl
  · trivial

/-- One task goes on, and the others stay fine. -/
theorem Sound.advanced (h : Sound cfg s) (hrelay : s'.relay = s.relay)
    (htasks : s'.tasks = s.tasks.set i task') {extra : List Entry} (hlog : s'.log = s.log ++ extra)
    (hrecorded : ∀ key seenAt, s'.inner.dedupSeen.lookup key = some seenAt →
      .recorded key seenAt ∈ s'.log)
    (hfine : Fine cfg s' i task') : Sound cfg s' := by
  refine ⟨hrelay ▸ h.freshIds, hrecorded, fun j other hother => ?_⟩
  rw [htasks] at hother
  rcases SpawnedTasks.getElem?_set_eq_some hother with ⟨rfl, rfl⟩ | ⟨-, hold⟩
  · exact hfine
  · exact (h.fine j other hold).mono hlog fun target msg _ _ hdue => hrelay ▸ hdue

/-- The service is left alone. -/
theorem Sound.recorded_of_eq (h : Sound cfg s) (hinner : s'.inner = s.inner) {extra : List Entry}
    (hlog : s'.log = s.log ++ extra) (key : String) (seenAt : ℕ)
    (hseen : s'.inner.dedupSeen.lookup key = some seenAt) : .recorded key seenAt ∈ s'.log := by
  rw [hlog]
  exact List.mem_append_left _ (h.recorded key seenAt (hinner ▸ hseen))

theorem Sound.goto (h : Sound cfg s) {stage : Stage}
    (hfine : Fine cfg (s.goto i task stage) i { task with stage }) :
    Sound cfg (s.goto i task stage) :=
  have hlog : (s.goto i task stage).log = s.log ++ [] := (List.append_nil s.log).symm
  h.advanced rfl rfl hlog (h.recorded_of_eq rfl hlog) hfine

/-- An identity survives every operation that neither closes nor authenticates its connection. -/
theorem authAfter_of_some {core : RelayCore} {op : CoreOp} {c : ConnId} {auth : AuthState}
    (hauth : core.authedState c = some auth) (hadmissible : op.Admissible core)
    (hclose : ∀ now, op ≠ .close c now) :
    ∃ auth', authAfter core op c = some auth' ∧
      ((∃ token now, op = .join c auth' token now) ∨
        auth'.role = auth.role ∧ auth'.frontendId = auth.frontendId ∧ auth'.daemonId = auth.daemonId) := by
  cases op with
  | accept connId =>
    rw [authAfter, if_neg]
    · exact ⟨auth, hauth, .inr ⟨rfl, rfl, rfl⟩⟩
    · intro heq
      have hdaemon : core.authDaemon c = some auth.daemonId := by
        rw [RelayCore.authDaemon, hauth, Option.map_some]
      exact hadmissible (heq ▸ RelayIsolation.mem_conns_of_authDaemon hdaemon)
  | join connId joined token now =>
    rw [authAfter]
    split
    · next heq =>
      obtain ⟨rfl, -⟩ := heq
      exact ⟨joined, rfl, .inl ⟨token, now, rfl⟩⟩
    · exact ⟨auth, hauth, .inr ⟨rfl, rfl, rfl⟩⟩
  | subscribe connId sid after =>
    rw [authAfter]
    split
    · rw [hauth, Option.map_some]
      refine ⟨_, rfl, .inr ?_⟩
      rw [AuthState.subscribed]
      split <;> exact ⟨rfl, rfl, rfl⟩
    · exact ⟨auth, hauth, .inr ⟨rfl, rfl, rfl⟩⟩
  | unsubscribe connId sid =>
    rw [authAfter]
    split
    · rw [hauth, Option.map_some]
      exact ⟨_, rfl, .inr ⟨rfl, rfl, rfl⟩⟩
    · exact ⟨auth, hauth, .inr ⟨rfl, rfl, rfl⟩⟩
  | close connId now =>
    rw [authAfter, if_neg]
    · exact ⟨auth, hauth, .inr ⟨rfl, rfl, rfl⟩⟩
    · rintro rfl
      exact hclose now rfl
  | skip | register | publish | ping | sweep => exact ⟨auth, hauth, .inr ⟨rfl, rfl, rfl⟩⟩

/-- A message stays due as long as its addressee is not disturbed. -/
theorem Due.relayStep {r : RelayState} (h : Due r.core task target msg) (hfresh : FreshIds r)
    {e : RelayEvent} (hspared : ¬Disturbs task.req target msg (effectOf env r e)) :
    Due (relayStep env r e).core task target msg := by
  have hbase := (baseOf_view r e).2.2.1
  have hafter : ∀ auth, r.core.authedState target = some auth → ∃ auth',
      (RelayConn.relayStep env r e).core.authedState target = some auth' ∧
        ((∃ token now, effectOf env r e = .join target auth' token now) ∨ auth'.role = auth.role ∧
          auth'.frontendId = auth.frontendId ∧ auth'.daemonId = auth.daemonId) := by
    intro auth hauth
    rw [relayStep_core, authedState_apply]
    refine authAfter_of_some ((hbase target).trans hauth) (effectOf_admissible hfresh env e) ?_
    intro now hclose
    rw [hclose] at hspared
    exact hspared rfl
  rcases h with ⟨hmsg, auth, hauth, htarget⟩ | ⟨hconn, hsome, herr⟩
  · obtain ⟨auth', hauth', hcase⟩ := hafter auth hauth
    refine .inl ⟨hmsg, auth', hauth', ?_⟩
    rcases hcase with ⟨token, now, hjoin⟩ | ⟨hrole, hfrontend, hdaemon⟩
    · by_contra hother
      rw [hjoin] at hspared
      exact hspared ⟨rfl, hother, hmsg⟩
    · exact ⟨hrole.trans htarget.1, hfrontend.trans htarget.2.1, hdaemon.trans htarget.2.2⟩
  · obtain ⟨auth, hauth⟩ := Option.isSome_iff_exists.mp hsome
    obtain ⟨auth', hauth', -⟩ := hafter auth hauth
    exact .inr ⟨hconn, hauth' ▸ rfl, herr⟩

/-- A critical section that spares the addressees keeps every push fine. -/
theorem Sound.relayStep (h : Sound cfg s) {e : RelayEvent}
    (hspares : SparesAddressees s (effectOf env s.relay e)) :
    Sound cfg { s with relay := relayStep env s.relay e } := by
  refine ⟨relayStep_freshIds env s.relay e h.freshIds, h.recorded, fun i task htask => ?_⟩
  refine (h.fine i task htask).mono (List.append_nil s.log).symm fun target msg haddressed hasked hdue => ?_
  exact hdue.relayStep h.freshIds (hspares i task target msg htask haddressed hasked)

/-- A push that is accounted for may reply anything. -/
theorem Accounted.fine_delivering (h : Accounted cfg s i task) (calls : List Delivery) :
    Fine cfg s i { task with stage := .delivering calls } :=
  .inl (h.mono (List.append_nil s.log).symm rfl rfl)

/-- The notification of a frontend that is live is due. -/
theorem fine_reply_ws {conn : ConnId} {auth : AuthState} (hconn : task.targetFrontend = some conn)
    (hauth : s.relay.core.authedState conn = some auth) (htarget : IsTarget task.req auth) :
    Fine cfg s i { task with stage := task.reply .ws } := by
  rw [PushTask.reply, mapDeliveryResult, hconn]
  exact .inr ⟨conn, _, rfl, .inl ⟨rfl, auth, hauth, htarget⟩⟩

/-- The refusal of a push whose daemon is connected is due. -/
theorem fine_reply_refused {result : DeliveryResult} (hrefused : result = .rateLimited ∨ result = .error)
    (hsome : (s.relay.core.authedState task.daemonConn).isSome) :
    Fine cfg s i { task with stage := task.reply result } := by
  rcases hrefused with rfl | rfl
  · exact .inr ⟨task.daemonConn, _, rfl, .inr ⟨rfl, hsome, _, _, rfl⟩⟩
  · exact .inr ⟨task.daemonConn, _, rfl, .inr ⟨rfl, hsome, _, _, rfl⟩⟩

/-- The guard phase asks the gateway, finds a duplicate, or refuses. -/
theorem guardPhase_cases (cfg : PushServiceConfig) (inner : Inner) (req : PushRequest) (now : ℕ) :
    ((guardPhase cfg inner req now).2 = none ∨
      ((guardPhase cfg inner req now).2 = some .deduped ∧ ∃ key seenAt, dedupKey req = some key ∧
        inner.dedupSeen.lookup key = some seenAt ∧ seenWithin cfg now seenAt = true) ∨
      ∃ result, (guardPhase cfg inner req now).2 = some result ∧
        (result = .rateLimited ∨ result = .error)) ∧
    (guardPhase cfg inner req now).1.dedupSeen = inner.dedupSeen := by
  rw [guardPhase]
  split
  · next hseen =>
    refine ⟨.inr (.inl ⟨rfl, ?_⟩), rfl⟩
    rw [Option.any_eq_true] at hseen
    obtain ⟨seenAt, hlookup, hwithin⟩ := hseen
    obtain ⟨key, hkey, hseenAt⟩ := Option.bind_eq_some_iff.mp hlookup
    exact ⟨key, seenAt, hkey, hseenAt, hwithin⟩
  · dsimp only
    split
    · exact ⟨.inr (.inr ⟨_, rfl, .inl rfl⟩), rfl⟩
    · split
      · exact ⟨.inl rfl, rfl⟩
      · exact ⟨.inr (.inr ⟨_, rfl, .inr rfl⟩), rfl⟩

/-- The guard phase of a push whose daemon hears of a refusal. -/
theorem Sound.guard (h : Sound cfg s) (now : ℕ)
    (hthere : ∀ result, (guardPhase cfg s.inner task.req now).2 = some result →
      result = .deduped ∨ (s.relay.core.authedState task.daemonConn).isSome) :
    Sound cfg (s.guard cfg i task now) := by
  obtain ⟨hcases, hseen⟩ := guardPhase_cases cfg s.inner task.req now
  have hrecorded : ∀ key seenAt, (guardPhase cfg s.inner task.req now).1.dedupSeen.lookup key =
      some seenAt → .recorded key seenAt ∈ s.log := by
    intro key seenAt hlookup
    exact h.recorded key seenAt (hseen ▸ hlookup)
  rw [PushSystem.guard]
  rcases hphase : guardPhase cfg s.inner task.req now with ⟨inner, result⟩
  rw [hphase] at hcases hrecorded hthere
  rcases hcases with rfl | ⟨rfl, key, seenAt, hkey, hlookup, hwithin⟩ | ⟨result, rfl, hrefused⟩
  · refine h.advanced rfl rfl rfl (fun key seenAt hlookup => ?_) ?_
    · exact List.mem_append_left _ (hrecorded key seenAt hlookup)
    · exact List.mem_append_right _ (List.mem_singleton_self _)
  · refine h.advanced rfl rfl rfl (fun key seenAt hlookup => ?_) (.inl (.inr (.inr (.inl ?_))))
    · exact List.mem_append_left _ (hrecorded key seenAt hlookup)
    · exact ⟨now, key, seenAt, s.log, [], rfl, hkey, h.recorded key seenAt hlookup, hwithin⟩
  · have hsome : (s.relay.core.authedState task.daemonConn).isSome := by
      rcases hthere result rfl with rfl | hsome
      · rcases hrefused with hrefused | hrefused
        · cases hrefused
        · cases hrefused
      · exact hsome
    have hlog : s.log = s.log ++ [] := (List.append_nil s.log).symm
    rcases hrefused with rfl | rfl
    · exact h.advanced rfl rfl hlog hrecorded (fine_reply_refused (.inl rfl) hsome)
    · exact h.advanced rfl rfl hlog hrecorded (fine_reply_refused (.inr rfl) hsome)

/-- A message is tried: either the push is accounted for, or the message is due and
there is room for it. -/
theorem Sound.trySend (h : Sound cfg s) (calls : List Delivery)
    (hfine : Accounted cfg s i task ∨ Due s.relay.core task target msg)
    (hroom : .asked i ∉ s.log →
      ¬(s.outbox target).closed ∧ (s.outbox target).queue.length < cap) :
    Sound cfg (s.trySend cap i task target msg calls) := by
  by_cases haccounted : Accounted cfg s i task
  · unfold PushSystem.trySend
    split
    · exact h.goto (haccounted.fine_delivering _)
    · split
      · refine h.advanced rfl rfl rfl (fun key seenAt hlookup => ?_) (.inl (haccounted.mono rfl rfl rfl))
        exact List.mem_append_left _ (h.recorded key seenAt hlookup)
      · split <;> exact h.goto (haccounted.fine_delivering _)
  · have hasked : .asked i ∉ s.log := fun hasked => haccounted (.inr (.inl hasked))
    obtain ⟨hopen, hlength⟩ := hroom hasked
    unfold PushSystem.trySend
    rw [if_neg hopen, if_pos hlength]
    refine h.advanced rfl rfl rfl (fun key seenAt hlookup => ?_) (.inl ?_)
    · exact List.mem_append_left _ (h.recorded key seenAt hlookup)
    · rcases hfine.resolve_left haccounted with ⟨rfl, auth, hauth, htarget⟩ | ⟨rfl, hsome, e, m, rfl⟩
      · refine .inl ⟨target, auth, ?_, htarget⟩
        rw [hauth]
        exact List.mem_append_right _ (List.mem_singleton_self _)
      · obtain ⟨auth, hauth⟩ := Option.isSome_iff_exists.mp hsome
        refine .inr (.inr (.inr ⟨e, m, auth, ?_⟩))
        rw [hauth]
        exact List.mem_append_right _ (List.mem_singleton_self _)

/-- A forced close by a task that spares the addressees. -/
theorem Sound.closeConn (h : Sound cfg s) (now : ℕ) (calls : List Delivery)
    (haccounted : Accounted cfg s i task) (hspares : SparesAddressees s (.close target now)) :
    Sound cfg (s.closeConn env i task target now calls) := by
  have hclosed : Sound cfg { s with relay := RelayConn.relayStep env s.relay (.forceClose target now) } :=
    h.relayStep hspares
  exact hclosed.goto (.inl (haccounted.mono (List.append_nil s.log).symm rfl rfl))

/-- A step of the delivery. A reply that is due finds its addressee registered. -/
theorem Sound.deliver (h : Sound cfg s) (now : ℕ) (calls : List Delivery)
    (hfine : Accounted cfg s i task ∨
      ∃ target msg, calls = [⟨[.send target msg], []⟩] ∧ Due s.relay.core task target msg)
    (hspares : ∀ target, (Stage.delivering calls).closes = some target →
      SparesAddressees s (.close target now)) :
    Sound cfg (s.deliver env i task now calls) := by
  rcases hfine with haccounted | ⟨target, msg, rfl, hdue⟩
  · unfold PushSystem.deliver
    split
    · exact h
    · split
      · exact h.goto (.inl (haccounted.mono (List.append_nil s.log).symm rfl rfl))
      · exact h.goto (haccounted.fine_delivering _)
    · exact h.closeConn now _ haccounted (hspares _ rfl)
    · exact h.closeConn now _ haccounted (hspares _ rfl)
    · exact h.goto (haccounted.fine_delivering _)
  · have hauth : ∃ auth, s.relay.core.authedState target = some auth := by
      rcases hdue with ⟨-, auth, hauth, -⟩ | ⟨-, hsome, -⟩
      · exact ⟨auth, hauth⟩
      · exact Option.isSome_iff_exists.mp hsome
    obtain ⟨auth, hauth⟩ := hauth
    have hmem : target ∈ s.relay.core.conns := by
      apply RelayIsolation.mem_conns_of_authDaemon
      rw [RelayCore.authDaemon, hauth, Option.map_some]
    rw [PushSystem.deliver, if_pos hmem]
    exact h.goto (.inr hdue)

/-- A task goes on undisturbed. -/
theorem Sound.advance (h : Sound cfg s) (htask : s.tasks[i]? = some task) (now : ℕ)
    (answer : ApnsDeliveryResult) (hcond : Undisturbed env cfg cap s (.run i now answer)) :
    Sound cfg (s.advance env cfg cap i task now answer) := by
  have hfine := h.fine i task htask
  have hcond := hcond task htask
  unfold Fine at hfine
  unfold GoesOn at hcond
  unfold PushSystem.advance
  cases hstage : task.stage with
  | started =>
    dsimp only
    split
    · exact h.goto trivial
    · exact h.goto trivial
  | rechecking =>
    rw [hstage] at hcond
    dsimp only at hcond ⊢
    split
    · next hlive =>
      cases hconn : task.targetFrontend with
      | none =>
        rw [hconn] at hlive
        cases hlive
      | some conn =>
        rw [hconn] at hlive
        have hdaemon := hcond conn hconn hlive
        rw [frontendConnLive, Option.any_some, Option.any_eq_true] at hlive
        obtain ⟨auth, hauth, hsame⟩ := hlive
        obtain ⟨hrole, hfrontend⟩ := of_decide_eq_true hsame
        rw [RelayCore.authDaemon, hauth, Option.map_some, Option.some_inj] at hdaemon
        exact h.goto (fine_reply_ws hconn hauth ⟨hrole, hfrontend, hdaemon⟩)
    · have hlog : s.log = s.log ++ [] := (List.append_nil s.log).symm
      exact h.advanced rfl rfl hlog (h.recorded_of_eq rfl hlog) trivial
  | guarding =>
    rw [hstage] at hcond
    exact h.guard now hcond
  | asking guarded =>
    rw [hstage] at hfine
    have haccounted : Accounted cfg s i task := .inr (.inl hfine)
    dsimp only
    split
    · exact h.goto hfine
    · exact h.goto (haccounted.fine_delivering _)
    · exact h.goto (haccounted.fine_delivering _)
  | committing guarded =>
    rw [hstage] at hfine
    have haccounted : Accounted cfg s i task := .inr (.inl hfine)
    refine h.advanced rfl rfl rfl (fun key seenAt hlookup => ?_) (.inl (haccounted.mono rfl rfl rfl))
    dsimp only at hlookup ⊢
    rw [commitPhase] at hlookup
    dsimp only at hlookup
    cases hkey : dedupKey task.req with
    | none =>
      rw [hkey] at hlookup
      exact List.mem_append_left _ (h.recorded key seenAt hlookup)
    | some own =>
      rw [hkey] at hlookup
      dsimp only at hlookup
      rw [lookup_insert_eq] at hlookup
      split at hlookup
      · next heq =>
        rw [heq, ← Option.some_inj.mp hlookup]
        exact List.mem_append_right _ (List.mem_singleton_self _)
      · exact List.mem_append_left _ (h.recorded key seenAt hlookup)
  | delivering calls =>
    rw [hstage] at hfine hcond
    exact h.deliver now calls hfine hcond
  | sending target msg calls =>
    rw [hstage] at hfine hcond
    exact h.trySend calls hfine hcond

/-- A push that passes its gate starts a task of which nothing is due. -/
theorem Sound.push (h : Sound cfg s) (connId : ConnId) (frontendId blob title body : String)
    (level : Option InterruptionLevel) (data : Option PushData) :
    Sound cfg (s.push env connId frontendId blob title body level data) := by
  rw [PushSystem.push]
  split
  · refine ⟨h.freshIds, h.recorded, fun j other hother => ?_⟩
    rcases lt_or_ge j s.tasks.length with hlt | hge
    · rw [List.getElem?_append_left hlt] at hother
      exact (h.fine j other hother).mono (List.append_nil s.log).symm fun _ _ _ _ hdue => hdue
    · rw [List.getElem?_append_right hge] at hother
      rw [List.mem_singleton.mp (List.mem_of_getElem? hother)]
      trivial
  · exact h

/-- Every undisturbed step keeps every push fine. -/
theorem sound_step (s : PushSystem) (e : PushEvent) (h : Sound cfg s)
    (hcond : Undisturbed env cfg cap s e) : Sound cfg (step env cfg cap s e) := by
  have hsame : ∀ s' : PushSystem, s'.relay = s.relay → s'.tasks = s.tasks → s'.log = s.log →
      (∀ key seenAt, s'.inner.dedupSeen.lookup key = some seenAt →
        s.inner.dedupSeen.lookup key = some seenAt) → Sound cfg s' := by
    intro s' hrelay htasks hlog hinner
    refine ⟨hrelay ▸ h.freshIds, fun key seenAt hlookup => ?_, fun j other hother => ?_⟩
    · exact hlog ▸ h.recorded key seenAt (hinner key seenAt hlookup)
    · refine (h.fine j other (htasks ▸ hother)).mono (hlog.trans (List.append_nil s.log).symm) ?_
      intro _ _ _ _ hdue
      exact hrelay ▸ hdue
  cases e with
  | relay e => exact h.relayStep hcond
  | push connId frontendId blob title body level data =>
    rw [step]
    split
    · exact h.push connId frontendId blob title body level data
    · exact h
  | run i now answer =>
    rw [step]
    split
    · next task htask => exact h.advance htask now answer hcond
    · exact h
  | fill connId msg =>
    rw [step]
    split
    · exact hsame _ rfl rfl rfl fun _ _ hlookup => hlookup
    · exact h
  | drain connId => exact hsame _ rfl rfl rfl fun _ _ hlookup => hlookup
  | writerEnds connId => exact hsame _ rfl rfl rfl fun _ _ hlookup => hlookup
  | cleanup now =>
    refine hsame _ rfl rfl rfl fun key seenAt hlookup => ?_
    rw [step, dedupSeen_runCleanup] at hlookup
    exact (Option.filter_eq_some_iff.mp hlookup).1

/-- Nothing is left to deliver only when the push is accounted for. -/
theorem Sound.neverLost (h : Sound cfg s) : NeverLost cfg s := by
  intro i task htask hdone
  have hfine := h.fine i task htask
  rw [Fine, hdone] at hfine
  rcases hfine with haccounted | ⟨target, msg, hcalls, -⟩
  · exact haccounted
  · cases hcalls

theorem sound_start (env : RelayEnv) (cfg : PushServiceConfig) :
    Sound cfg (PushSystem.start env) := by
  refine ⟨(RelayIsolation.initial_isolated env).1, fun key seenAt hlookup => ?_, fun i task htask => ?_⟩
  · cases hlookup
  · cases htask

end Invariant

/-- In every run that leaves the addressees of pushes alone between the last look at
them and the delivery, no push is lost silently. -/
theorem undisturbed_pushes_never_lost (env : RelayEnv) (cfg : PushServiceConfig) (cap : ℕ)
    (events : List PushEvent)
    (h : Meets (step env cfg cap) (Undisturbed env cfg cap) (PushSystem.start env) events) :
    NeverLost cfg (runFrom (step env cfg cap) (PushSystem.start env) events) :=
  (runFrom_induction_of_meets sound_step (sound_start env cfg) h).neverLost

section Sample

/-- A relay with push credentials. -/
def pushEnv : RelayEnv := { plainEnv with pushConfigured := true }

/-- A daemon and a frontend connect, and the daemon pushes to the frontend. -/
def connectedRun : List PushEvent :=
  [.relay .accept, .relay (say 1 (.register "d" "p" "t" 2) 0),
    .relay (say 1 (.auth .daemon "d" "t" 2 none) 1), .relay .accept,
    .relay (say 2 (.auth .frontend "d" "t" 2 (some "f")) 2),
    .push 1 "f" "token" "title" "body" none none]

/-- The task of that push at a stage. -/
def sampleTask (stage : Stage) : PushTask :=
  ⟨⟨"f", "d", "token", "title", "body", true, none, none⟩, some 2, 1, stage⟩

/-- The push is delivered in band. -/
def notifiedRun : List PushEvent :=
  connectedRun ++ [.run 0 3 .ok, .run 0 4 .ok, .run 0 5 .ok, .run 0 6 .ok, .run 0 7 .ok]

/-- The state after the first steps of that run. -/
def notifiedAt (n : ℕ) : PushSystem :=
  runFrom (step pushEnv .standard 8) (PushSystem.start pushEnv) (notifiedRun.take n)

/-- The frontend leaves when its connection was just found live. -/
def lostRun : List PushEvent :=
  connectedRun ++ [.run 0 3 .ok, .run 0 4 .ok, .relay (.teardown 2 5), .run 0 6 .ok, .run 0 7 .ok]

/-- Before the first push there is no addressee. -/
theorem sparesAddressees_of_no_tasks {s : PushSystem} (h : s.tasks = []) (op : CoreOp) :
    SparesAddressees s op := by
  intro i task target msg htask
  rw [h] at htask
  cases htask

theorem undisturbed_run {s : PushSystem} {i now : ℕ} {answer : ApnsDeliveryResult} {task : PushTask}
    (htask : s.tasks[i]? = some task) (h : GoesOn .standard 8 s i now task) :
    Undisturbed pushEnv .standard 8 s (.run i now answer) := by
  intro task' htask'
  rw [htask, Option.some_inj] at htask'
  exact htask' ▸ h

theorem undisturbed_pushes_never_lost_notifiedRun :
    NeverLost .standard
        (runFrom (step pushEnv .standard 8) (PushSystem.start pushEnv) notifiedRun) ∧
      (runFrom (step pushEnv .standard 8) (PushSystem.start pushEnv) notifiedRun).tasks =
        [sampleTask (.delivering [])] := by
  refine ⟨undisturbed_pushes_never_lost pushEnv .standard 8 notifiedRun ?_, by decide⟩
  have hstarted : (notifiedAt 6).tasks[0]? = some (sampleTask .started) := by decide
  have hrechecking : (notifiedAt 7).tasks[0]? = some (sampleTask .rechecking) := by decide
  have hreplying : (notifiedAt 8).tasks[0]? =
    some (sampleTask ((sampleTask .rechecking).reply .ws)) := by decide
  have hsending : (notifiedAt 9).tasks[0]? = some (sampleTask
    (.sending 2 (.notification "title" "body" none) [⟨[], []⟩])) := by decide
  have hsent : (notifiedAt 10).tasks[0]? = some (sampleTask (.delivering [⟨[], []⟩])) := by decide
  have hquiet : ∀ (events : List PushEvent) (e : RelayEvent),
      (runFrom (step pushEnv .standard 8) (PushSystem.start pushEnv) events).tasks = [] →
      Undisturbed pushEnv .standard 8
        (runFrom (step pushEnv .standard 8) (PushSystem.start pushEnv) events) (.relay e) :=
    fun _ _ hnone => sparesAddressees_of_no_tasks hnone _
  refine ⟨hquiet [] _ rfl, hquiet (connectedRun.take 1) _ rfl, hquiet (connectedRun.take 2) _ rfl,
    hquiet (connectedRun.take 3) _ rfl, hquiet (connectedRun.take 4) _ rfl, trivial, ?_, ?_, ?_, ?_, ?_,
    trivial⟩
  · exact undisturbed_run hstarted fun target h => by cases h
  · refine undisturbed_run hrechecking fun conn hconn _ => ?_
    cases hconn
    decide
  · exact undisturbed_run hreplying fun target h => by cases h
  · exact undisturbed_run hsending fun _ => by decide
  · exact undisturbed_run hsent fun target h => by cases h

/-- A frontend that leaves between the last look and the delivery loses the push. -/
theorem push_lost_after_recheck :
    ¬∀ env cfg cap events,
      NeverLost cfg (runFrom (step env cfg cap) (PushSystem.start env) events) := by
  intro h
  have hlost := h pushEnv .standard 8 lostRun 0 (sampleTask (.delivering [])) (by decide) rfl
  have hlog : (runFrom (step pushEnv .standard 8) (PushSystem.start pushEnv) lostRun).log = [] := by
    rfl
  rw [Accounted, Notified, Duplicate, Reported, hlog] at hlost
  rcases hlost with ⟨_, _, hput, _⟩ | hasked | ⟨_, _, _, _, _, hsplit, _⟩ | ⟨_, _, _, hput⟩
  · cases hput
  · cases hasked
  · simp at hsplit
  · cases hput

end Sample

end Teleprompter.PushDelivery
