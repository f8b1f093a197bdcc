import Teleprompter.RelayEffects
import Teleprompter.RingIsolation
import Teleprompter.PushService
import Mathlib.Logic.Function.Basic

/-!
# Delivery of the relay's actions

A critical section returns actions, and the task that ran it delivers them after
the lock is released, one try at a time. Other tasks run between any two tries. A
connection's task takes its next message only when everything was tried, and so
does the sweeper; a push has a task of its own. Outboxes are bounded and are
emptied by the write tasks. The log keeps what was routed and what was tried.
-/

namespace Teleprompter.RelayDelivery

open FiniteDictionary RelayServer RelayConn RelayEffects
open PushService (DeliveryResult)

section Model

/-- The answer of an outbox. -/
inductive TrySend where
  | ok
  | full
  | closed
  deriving DecidableEq

/-- The channel to a write task. -/
structure Outbox where
  queue : List RelayServerMessage
  /-- The write task is gone. -/
  closed : Bool

/-- A call that delivers actions: those left, and the connections that were full. -/
structure Delivery where
  actions : List Action
  backpressured : List ConnId
  deriving DecidableEq

/-- The tasks that deliver actions. -/
inductive TaskId where
  | conn (connId : ConnId)
  | sweeper
  | push (i : ℕ)
  deriving DecidableEq

/-- What is observed: routing decisions and tries. -/
inductive Entry where
  /-- A frame was routed while these connections listened to its session. -/
  | published (publisher : ConnId) (daemonId : String) (frame : Frame) (listeners : List ConnId)
  | subscribed (subscriber : ConnId) (daemonId sid : String)
  | tried (task : TaskId) (target : ConnId) (msg : RelayServerMessage) (result : TrySend)
  deriving DecidableEq

/-- A relay with its tasks. -/
structure System where
  relay : RelayState
  /-- Calls of each task, the innermost first. -/
  tasks : TaskId → List Delivery
  outbox : ConnId → Outbox
  log : List Entry

/-- Nothing happened yet. -/
def System.start (env : RelayEnv) : System :=
  ⟨RelayState.initial env, fun _ => [], fun _ => ⟨[], false⟩, []⟩

/-- The reply of a push to the frontend it found connected, or to the daemon. -/
def mapDeliveryResult (result : DeliveryResult) (targetFrontend : Option ConnId)
    (daemonConn : ConnId) (title body : String) (data : Option PushData) (fid : String) :
    List Action :=
  let reply := fun e m => [Action.send daemonConn (.err e (some (m ++ fid)) (some fid))]
  match result with
  | .ws => targetFrontend.toList.map fun conn => .send conn (.notification title body data)
  | .push => []
  | .deduped => []
  | .rateLimited => reply "PUSH_RATE_LIMITED" "Push rate limit exceeded for frontendId "
  | .error => reply "PUSH_DELIVERY_ERROR" "Push delivery failed for frontendId "
  | .deadToken => reply "PUSH_TOKEN_DEAD" "APNs device token is dead for frontendId "

/-- What can happen. -/
inductive Event where
  | accept
  | receive (connId : ConnId) (frame : InboundFrame) (clientOk groupOk : Bool) (now : ℕ)
  | leave (connId : ConnId) (now : ℕ)
  | sweep (now : ℕ)
  | pushed (i : ℕ) (result : DeliveryResult) (targetFrontend : Option ConnId) (daemonConn : ConnId)
      (title body : String) (data : Option PushData) (fid : String)
  /-- A task makes its next try or its next forced close. -/
  | poll (task : TaskId) (now : ℕ)
  /-- A write task takes a message. -/
  | drain (connId : ConnId)
  /-- A write task ends. -/
  | writerEnds (connId : ConnId)

/-- The connections other than the publisher that are authenticated for the daemon
and hold a subscription of the session. -/
def listeners (core : RelayCore) (publisher : ConnId) (daemonId sid : String) : List ConnId :=
  core.conns.keys.filter fun c => c ≠ publisher ∧
    (core.authedState c).any fun auth => auth.daemonId = daemonId ∧ sid ∈ auth.subscriptions

/-- What a critical section adds to the log. -/
def routed (env : RelayEnv) (s : RelayState) (e : RelayEvent) : List Entry :=
  match effectOf env s e with
  | .publish publisher client sid ct seq _ =>
    [.published publisher client.daemonId (framePayload (publishedFrame client sid ct seq))
      (listeners s.core publisher client.daemonId sid)]
  | .subscribe subscriber sid _ =>
    (s.core.authedState subscriber).toList.map fun auth => .subscribed subscriber auth.daemonId sid
  | _ => []

/-- A task runs a critical section when it has delivered all of the one before. -/
def System.lock (env : RelayEnv) (s : System) (task : TaskId) (e : RelayEvent) : System :=
  if s.tasks task = [] then
    let stepped := relayStepActions env s.relay e
    { s with
      relay := stepped.1
      tasks := Function.update s.tasks task [⟨stepped.2, []⟩]
      log := s.log ++ routed env s.relay e }
  else s

/-- What the outbox of a connection answers. -/
def System.trySend (cap : ℕ) (s : System) (target : ConnId) : TrySend :=
  if target ∈ s.relay.core.conns then
    if (s.outbox target).closed then .closed
    else if (s.outbox target).queue.length < cap then .ok else .full
  else .closed

/-- Try to send a message; a connection that is full is closed at the end of the call. -/
def System.try (cap : ℕ) (s : System) (task : TaskId) (target : ConnId) (msg : RelayServerMessage)
    (actions : List Action) (backpressured : List ConnId) (calls : List Delivery) : System :=
  let result := s.trySend cap target
  { s with
    tasks := Function.update s.tasks task
      (⟨actions, if result = .full then backpressured ++ [target] else backpressured⟩ :: calls)
    outbox := if result = .ok then
        Function.update s.outbox target
          { s.outbox target with queue := (s.outbox target).queue ++ [msg] }
      else s.outbox
    log := s.log ++ [.tried task target msg result] }

/-- Close a connection; the presence that follows is delivered first. -/
def System.closeConn (env : RelayEnv) (s : System) (task : TaskId) (target : ConnId) (now : ℕ)
    (calls : List Delivery) : System :=
  let stepped := relayStepActions env s.relay (.forceClose target now)
  { s with relay := stepped.1, tasks := Function.update s.tasks task (⟨stepped.2, []⟩ :: calls) }

/-- The next step of a task. -/
def System.poll (env : RelayEnv) (cap : ℕ) (s : System) (task : TaskId) (now : ℕ) : System :=
  match s.tasks task with
  | [] => s
  | ⟨.send target msg :: actions, backpressured⟩ :: calls =>
    s.try cap task target msg actions backpressured calls
  | ⟨.close target _ _ :: actions, backpressured⟩ :: calls =>
    s.closeConn env task target now (⟨actions, backpressured⟩ :: calls)
  | ⟨[], target :: backpressured⟩ :: calls =>
    s.closeConn env task target now (⟨[], backpressured⟩ :: calls)
  | ⟨[], []⟩ :: calls => { s with tasks := Function.update s.tasks task calls }

/-- One step. -/
def step (env : RelayEnv) (cap : ℕ) (s : System) : Event → System
  | .accept => { s with relay := relayStep env s.relay .accept }
  | .receive connId frame clientOk groupOk now =>
    s.lock env (.conn connId) (.inbound connId frame clientOk groupOk now)
  | .leave connId now => s.lock env (.conn connId) (.teardown connId now)
  | .sweep now => s.lock env .sweeper (.sweep now)
  | .pushed i result targetFrontend daemonConn title body data fid =>
    if s.tasks (.push i) = [] then
      { s with
        tasks := Function.update s.tasks (.push i)
          [⟨mapDeliveryResult result targetFrontend daemonConn title body data fid, []⟩] }
    else s
  | .poll task now => s.poll env cap task now
  | .drain connId =>
    { s with
      outbox := Function.update s.outbox connId
        { s.outbox connId with queue := (s.outbox connId).queue.tail } }
  | .writerEnds connId =>
    { s with outbox := Function.update s.outbox connId { s.outbox connId with closed := true } }

end Model

section Frames

variable {c : ConnId}

/-- The frame that an action sends to a connection. -/
def Action.frameTo (c : ConnId) : Action → Option Frame
  | .send target (.frame frame) => if target = c then some frame else none
  | _ => none

/-- The frames that actions send to a connection, in order. -/
def framesTo (c : ConnId) (actions : List Action) : List Frame :=
  actions.filterMap (Action.frameTo c)

/-- The message is a frame. -/
def IsFrame : RelayServerMessage → Prop
  | .frame _ => True
  | _ => False

theorem framesTo_cons (a : Action) (actions : List Action) :
    framesTo c (a :: actions) = (Action.frameTo c a).toList ++ framesTo c actions := by
  rw [framesTo, List.filterMap_cons]
  cases Action.frameTo c a with
  | none => rfl
  | some frame => rfl

/-- A message that is no frame sends none. -/
theorem frameTo_of_not_frame {msg : RelayServerMessage} (h : ¬IsFrame msg) (target : ConnId) :
    Action.frameTo c (.send target msg) = none := by
  cases msg with
  | frame frame => exact absurd trivial h
  | _ => rfl

/-- Sending one message that is no frame to several connections sends no frames. -/
theorem framesTo_map_of_not_frame {msg : RelayServerMessage} (h : ¬IsFrame msg)
    (targets : List ConnId) : framesTo c (targets.map fun peer => .send peer msg) = [] := by
  refine List.filterMap_eq_nil_iff.mpr fun a ha => ?_
  obtain ⟨peer, -, rfl⟩ := List.mem_map.mp ha
  exact frameTo_of_not_frame h peer

theorem framesTo_presenceActions (core : RelayCore) (daemonId : String) :
    framesTo c (presenceActions core daemonId) = [] := by
  unfold presenceActions
  split
  · rfl
  · exact framesTo_map_of_not_frame id _

/-- A frame sent to several connections. -/
theorem framesTo_fanOut (frame : Frame) (targets : List ConnId) :
    framesTo c (targets.map fun peer => .send peer (.frame frame)) =
      List.replicate (targets.count c) frame := by
  induction targets with
  | nil => rfl
  | cons target targets ih =>
    rw [List.map_cons, framesTo_cons, ih, Action.frameTo]
    by_cases hc : target = c
    · rw [if_pos hc, hc, List.count_cons_self, List.replicate_succ]
      rfl
    · rw [if_neg hc, List.count_cons_of_ne hc]
      rfl

/-- Frames sent to one connection. -/
theorem framesTo_replay (target : ConnId) (frames : List Frame) :
    framesTo c (frames.map fun frame => .send target (.frame (framePayload frame))) =
      if target = c then frames.map framePayload else [] := by
  induction frames with
  | nil =>
    rw [List.map_nil, List.map_nil, ite_self]
    rfl
  | cons frame frames ih =>
    rw [List.map_cons, framesTo_cons, ih, Action.frameTo]
    split
    · rw [List.map_cons]
      rfl
    · rfl

/-- The frames that an operation sends to a connection. -/
def routedTo (c : ConnId) (core : RelayCore) : CoreOp → List Frame
  | .publish publisher client sid ct seq now =>
    framesTo c (routePublish core publisher client sid ct seq now).2
  | .subscribe subscriber sid after => framesTo c (routeSubscribe core subscriber sid after).2
  | _ => []

/-- A finished auth sends no frames. -/
theorem framesTo_finishAuth (core : RelayCore) (connId : ConnId) {reply : RelayServerMessage}
    (h : ¬IsFrame reply) (role : Role) (daemonId : String) (frontendId : Option String) :
    framesTo c (finishAuth core connId reply role daemonId frontendId).2.actions = [] := by
  rw [finishAuth, DispatchOutcome.ofActions, framesTo_cons, frameTo_of_not_frame h,
    framesTo_presenceActions]
  rfl

/-- An auth routes nothing. -/
theorem routedTo_auth (env : RelayEnv) (core : RelayCore) (connId : ConnId) (now : ℕ) (role : Role)
    (daemonId token : String) (v : ℚ) (frontendId : Option String) :
    routedTo c core (messageOp env core connId now (.auth role daemonId token v frontendId)) = [] := by
  rw [messageOp]
  split
  · rfl
  · split
    · rfl
    · rfl

/-- A resume routes nothing. -/
theorem routedTo_authResume (env : RelayEnv) (core : RelayCore) (connId : ConnId) (now : ℕ)
    (token : String) (v : ℚ) :
    routedTo c core (messageOp env core connId now (.authResume token v)) = [] := by
  rw [messageOp]
  split
  · rfl
  · dsimp only
    split
    · rfl
    · rfl

/-- The reply to an auth is no frame. -/
theorem handleAuth_not_frame {env : RelayEnv} {registry registry' : RelayRegistry.Registry}
    {daemonId token : String} {isDaemon : Bool} {frontendId : Option String} {now : ℕ}
    {reply : RelayServerMessage}
    (h : RelayConn.handleAuth env registry daemonId token isDaemon frontendId now =
      (registry', .ok reply)) : ¬IsFrame reply := by
  rw [RelayConn.handleAuth] at h
  split at h
  · cases h
  · split at h
    · cases h
      exact id
    · cases h

/-- The reply to a resume is no frame. -/
theorem handleAuthResume_not_frame {env : RelayEnv} {registry registry' : RelayRegistry.Registry}
    {token : String} {now : ℕ} {reply : RelayServerMessage} {payload : ResumePayload}
    (h : RelayConn.handleAuthResume env registry token now = (registry', .ok (reply, payload))) :
    ¬IsFrame reply := by
  rw [RelayConn.handleAuthResume] at h
  split at h
  · cases h
  · dsimp only at h
    split at h
    · cases h
      exact id
    · cases h

/-- A push sends no frames. -/
theorem framesTo_handlePush (env : RelayEnv) (core : RelayCore) (connId : ConnId)
    (frontendId blob title body : String) (data : Option PushData) :
    framesTo c (handlePush env core connId frontendId blob title body data).actions = [] := by
  rw [handlePush]
  split
  · rename_i reply hreply
    rw [resolvePushLocked] at hreply
    split at hreply
    · cases hreply
      rfl
    · split at hreply
      · cases hreply
        rfl
      · dsimp only at hreply
        split at hreply
        · cases hreply
        · cases hreply
        · cases hreply
          rfl
        · cases hreply
          rfl
  · split
    · rfl
    · exact framesTo_map_of_not_frame id _

/-- A device token sends no frames. -/
theorem framesTo_routePushRegister (env : RelayEnv) (core : RelayCore) (connId : ConnId)
    (token : String) (platform : Platform) :
    framesTo c (routePushRegister env core connId token platform).actions = [] := by
  rw [routePushRegister]
  split
  · rfl
  · split
    · rfl
    · split
      · rfl
      · rfl

/-- A dispatched message sends the frames of its operation. -/
theorem framesTo_dispatchAdmitted (env : RelayEnv) (core : RelayCore) (connId : ConnId) (now : ℕ)
    (msg : RelayClientMessage) :
    framesTo c (dispatchAdmitted env core connId now msg).2.actions =
      routedTo c core (messageOp env core connId now msg) := by
  cases msg with
  | auth role daemonId token v frontendId =>
    rw [routedTo_auth, dispatchAdmitted]
    split
    · rename_i registry reply hauth
      refine framesTo_finishAuth _ connId ?_ role daemonId frontendId
      exact handleAuth_not_frame hauth
    · rw [rejectAuth, DispatchOutcome.ofActions, framesTo_cons]
      split
      · rfl
      · rfl
  | authResume token v =>
    rw [routedTo_authResume, dispatchAdmitted]
    split
    · rename_i registry reply payload hresume
      refine framesTo_finishAuth _ connId ?_ _ _ _
      exact handleAuthResume_not_frame hresume
    · rfl
  | register daemonId proof token v =>
    rw [dispatchAdmitted, handleRegister]
    split
    · rfl
    · rfl
  | publish sid ct seq =>
    rw [dispatchAdmitted, messageOp]
    cases core.authedState connId with
    | none => rfl
    | some client => rfl
  | keyExchange ct role =>
    rw [dispatchAdmitted]
    cases core.authedState connId with
    | none => rfl
    | some client => exact framesTo_map_of_not_frame id _
  | subscribe sid after =>
    rw [dispatchAdmitted, messageOp, routedTo, routeSubscribe]
    cases core.authedState connId with
    | none => rfl
    | some client => rfl
  | unsubscribe sid => rfl
  | ping ts =>
    rw [dispatchAdmitted, messageOp]
    cases core.authedState connId with
    | none => rfl
    | some client => rfl
  | push frontendId blob title body level data => exact framesTo_handlePush env core connId _ _ _ _ _
  | pushRegister frontendId token platform => exact framesTo_routePushRegister env core connId _ _

/-- An inbound frame sends the frames of its operation. -/
theorem framesTo_handleInbound (env : RelayEnv) (core : RelayCore) (connId : ConnId)
    (clientOk groupOk : Bool) (now : ℕ) (frame : InboundFrame) :
    framesTo c (handleInbound env core connId clientOk groupOk now frame).2.actions =
      routedTo c (countPreauth core connId)
        (inboundOp env (countPreauth core connId) connId clientOk groupOk now frame) := by
  generalize hcounted : countPreauth core connId = counted
  cases frame with
  | oversized size => rfl
  | invalidJson =>
    simp only [handleInbound, inboundOp, hcounted]
    split
    · rfl
    · rfl
  | unknownType t =>
    simp only [handleInbound, inboundOp, hcounted]
    split
    · rfl
    · rfl
  | message msg =>
    simp only [handleInbound, inboundOp, hcounted]
    by_cases hbudget : overPreauthBudget env counted connId = true
    · rw [if_pos hbudget, if_pos hbudget]
      rfl
    · rw [if_neg hbudget, if_neg hbudget, dispatchLocked]
      cases hchecked : rateChecked counted connId msg with
      | false => exact framesTo_dispatchAdmitted env counted connId now msg
      | true =>
        cases clientOk with
        | false => rfl
        | true =>
          cases groupOk with
          | false => rfl
          | true => exact framesTo_dispatchAdmitted env counted connId now msg

theorem framesTo_closeConn (core : RelayCore) (connId : ConnId) (now : ℕ) :
    framesTo c (RelayServer.closeConn core connId now).2 = [] := by
  rw [RelayServer.closeConn]
  split
  · rfl
  · exact framesTo_presenceActions _ _

theorem framesTo_staleSweep (env : RelayEnv) (core : RelayCore) (now : ℕ) :
    framesTo c (staleSweep env core now).2 = [] := by
  refine List.filterMap_eq_nil_iff.mpr fun a ha => ?_
  obtain ⟨daemonId, -, hmem⟩ := List.mem_flatMap.mp ha
  exact List.filterMap_eq_nil_iff.mp (framesTo_presenceActions _ daemonId) a hmem

/-- A critical section sends the frames of its operation. -/
theorem framesTo_event (env : RelayEnv) (s : RelayState) (e : RelayEvent) :
    framesTo c (relayStepActions env s e).2 = routedTo c (baseOf s e) (effectOf env s e) := by
  cases e with
  | accept => rfl
  | inbound connId frame clientOk groupOk now =>
    rw [relayStepActions, effectOf]
    by_cases hreading : s.sockets.lookup connId = some .reading
    · rw [if_pos hreading, if_pos hreading]
      dsimp only
      rw [framesTo_handleInbound]
      cases frame with
      | oversized size => rfl
      | invalidJson => rfl
      | unknownType t => rfl
      | message msg => simp only [baseOf, if_pos hreading]
    · rw [if_neg hreading, if_neg hreading]
      rfl
  | teardown connId now =>
    rw [relayStepActions, effectOf]
    split
    · exact framesTo_closeConn _ _ _
    · rfl
  | forceClose connId now => exact framesTo_closeConn _ _ _
  | sweep now => exact framesTo_staleSweep _ _ _

/-- Actions that all send frames, or none of which does. -/
def Uniform (actions : List Action) : Prop :=
  (∀ a ∈ actions, ∃ target frame, a = .send target (.frame frame)) ∨ ∀ c, framesTo c actions = []

/-- The same frame for several connections. -/
theorem uniform_fanOut (frame : Frame) (targets : List ConnId) :
    Uniform (targets.map fun peer => .send peer (.frame frame)) := by
  refine .inl fun a ha => ?_
  obtain ⟨peer, -, rfl⟩ := List.mem_map.mp ha
  exact ⟨peer, frame, rfl⟩

/-- Several frames for one connection. -/
theorem uniform_replay (target : ConnId) (frames : List Frame) :
    Uniform (frames.map fun frame => .send target (.frame (framePayload frame))) := by
  refine .inl fun a ha => ?_
  obtain ⟨frame, -, rfl⟩ := List.mem_map.mp ha
  exact ⟨target, framePayload frame, rfl⟩

/-- A message sends frames only or none. -/
theorem uniform_dispatchAdmitted (env : RelayEnv) (core : RelayCore) (connId : ConnId) (now : ℕ)
    (msg : RelayClientMessage) : Uniform (dispatchAdmitted env core connId now msg).2.actions := by
  have hnone : (∀ c, routedTo c core (messageOp env core connId now msg) = []) →
      Uniform (dispatchAdmitted env core connId now msg).2.actions := by
    intro h
    exact .inr fun c => (framesTo_dispatchAdmitted env core connId now msg).trans (h c)
  cases msg with
  | publish sid ct seq =>
    rw [dispatchAdmitted]
    cases core.authedState connId with
    | none => exact .inr fun c => rfl
    | some client => exact uniform_fanOut _ _
  | subscribe sid after =>
    rw [dispatchAdmitted]
    cases hauth : core.authedState connId with
    | none => exact .inr fun c => rfl
    | some client =>
      dsimp only
      rw [routeSubscribe, hauth]
      dsimp only
      split
      · exact .inr fun c => rfl
      · exact uniform_replay _ _
  | auth role daemonId token v frontendId =>
    exact hnone fun c => routedTo_auth env core connId now role daemonId token v frontendId
  | authResume token v => exact hnone fun c => routedTo_authResume env core connId now token v
  | ping ts =>
    refine hnone fun c => ?_
    rw [messageOp]
    split
    · rfl
    · rfl
  | register daemonId proof token v => exact hnone fun c => rfl
  | keyExchange ct role => exact hnone fun c => rfl
  | unsubscribe sid => exact hnone fun c => rfl
  | push frontendId blob title body level data => exact hnone fun c => rfl
  | pushRegister frontendId token platform => exact hnone fun c => rfl

/-- An inbound frame sends frames only or none. -/
theorem uniform_handleInbound (env : RelayEnv) (core : RelayCore) (connId : ConnId)
    (clientOk groupOk : Bool) (now : ℕ) (frame : InboundFrame) :
    Uniform (handleInbound env core connId clientOk groupOk now frame).2.actions := by
  cases frame with
  | message msg =>
    simp only [handleInbound]
    split
    · exact .inr fun c => rfl
    · rw [dispatchLocked]
      split
      · exact .inr fun c => rfl
      · split
        · exact .inr fun c => rfl
        · exact uniform_dispatchAdmitted env _ connId now msg
  | oversized size => exact .inr fun c => framesTo_handleInbound env core connId clientOk groupOk now _
  | invalidJson => exact .inr fun c => framesTo_handleInbound env core connId clientOk groupOk now _
  | unknownType t => exact .inr fun c => framesTo_handleInbound env core connId clientOk groupOk now _

/-- A critical section sends frames only or none. -/
theorem uniform_event (env : RelayEnv) (s : RelayState) (e : RelayEvent) :
    Uniform (relayStepActions env s e).2 := by
  cases e with
  | inbound connId frame clientOk groupOk now =>
    rw [relayStepActions]
    split
    · exact uniform_handleInbound env s.core connId clientOk groupOk now frame
    · exact .inr fun c => rfl
  | teardown connId now =>
    rw [relayStepActions]
    split
    · exact .inr fun c => framesTo_closeConn _ _ _
    · exact .inr fun c => rfl
  | accept => exact .inr fun c => rfl
  | forceClose connId now => exact .inr fun c => framesTo_closeConn _ _ _
  | sweep now => exact .inr fun c => framesTo_staleSweep _ _ _

end Frames

section Routing

variable {core : RelayCore} {c : ConnId}

/-- Every authenticated connection is in the group of its daemon. -/
def Grouped (core : RelayCore) : Prop :=
  ∀ c auth, core.authedState c = some auth → core.InGroup auth.daemonId c

theorem mem_listeners {publisher : ConnId} {daemonId sid : String} :
    c ∈ listeners core publisher daemonId sid ↔ c ≠ publisher ∧
      ∃ auth, core.authedState c = some auth ∧ auth.daemonId = daemonId ∧
        sid ∈ auth.subscriptions := by
  rw [listeners, List.mem_filter, decide_eq_true_eq, Option.any_eq_true]
  constructor
  · rintro ⟨-, hne, auth, hauth, hsid⟩
    exact ⟨hne, auth, hauth, of_decide_eq_true hsid⟩
  · rintro ⟨hne, auth, hauth, hsid⟩
    refine ⟨?_, hne, auth, hauth, decide_eq_true hsid⟩
    have hsome : (core.conns.lookup c).isSome := by
      rw [Option.isSome_iff_ne_none]
      intro hnone
      rw [RelayCore.authedState, hnone] at hauth
      cases hauth
    exact AList.mem_keys.mp (AList.lookup_isSome.mp hsome)

/-- The frame of a publish goes to every listener once, and to no connection twice. -/
theorem routedTo_publish (hgrouped : Grouped core) (publisher : ConnId) (client : AuthState)
    (sid ct : String) (seq now : ℕ) :
    let frames := routedTo c core (.publish publisher client sid ct seq now)
    let frame := framePayload (publishedFrame client sid ct seq)
    (frames = [] ∨ frames = [frame]) ∧
      (c ∈ listeners core publisher client.daemonId sid → frames = [frame]) ∧
        (c = publisher → frames = []) := by
  intro frames frame
  obtain ⟨core', hconns, hgroups, htargets⟩ : ∃ core' : RelayCore, core'.conns = core.conns ∧
      core'.groups = core.groups ∧ frames = List.replicate
        (((core'.peersWhere client.daemonId fun auth => sid ∈ auth.subscriptions).filter
          fun peer => peer ≠ publisher).count c) frame := by
    refine ⟨_, ?_, ?_, framesTo_fanOut frame _⟩
    · split
      · rfl
      · rfl
    · split
      · rfl
      · rfl
  have hview : ∀ c, core'.authedState c = core.authedState c := by
    intro c
    rw [RelayCore.authedState, hconns]
    rfl
  have hmembers : core'.groupMembers client.daemonId = core.groupMembers client.daemonId := by
    rw [RelayCore.groupMembers, hgroups]
    rfl
  generalize htargetList : (core'.peersWhere client.daemonId fun auth =>
    sid ∈ auth.subscriptions).filter (fun peer => peer ≠ publisher) = targets at htargets
  have hnodup : targets.Nodup := by
    rw [← htargetList]
    exact ((AList.keys_nodup _).filter _).filter _
  have hmem : c ∈ targets ↔ c ∈ core.groupMembers client.daemonId ∧
      (core.authedState c).any (fun auth => sid ∈ auth.subscriptions) ∧ c ≠ publisher := by
    rw [← htargetList, List.mem_filter, RelayCore.peersWhere, List.mem_filter, hview, hmembers,
      decide_eq_true_eq, and_assoc]
  have hone : c ∈ targets → frames = [frame] := by
    intro hc
    rw [htargets, List.count_eq_one_of_mem hnodup hc]
    rfl
  have hnone : c ∉ targets → frames = [] := by
    intro hc
    rw [htargets, List.count_eq_zero_of_not_mem hc]
    rfl
  refine ⟨?_, ?_, ?_⟩
  · by_cases hc : c ∈ targets
    · exact .inr (hone hc)
    · exact .inl (hnone hc)
  · intro hc
    obtain ⟨hne, auth, hauth, hdaemon, hsid⟩ := mem_listeners.mp hc
    refine hone (hmem.mpr ⟨?_, ?_, hne⟩)
    · have hin := hgrouped c auth hauth
      rw [hdaemon] at hin
      exact hin
    · rw [hauth, Option.any_some]
      exact decide_eq_true hsid
  · intro hc
    exact hnone fun hin => (hmem.mp hin).2.2 hc

/-- The frames that are cached under a key. -/
def ringOf (core : RelayCore) (key : String) : List Frame :=
  (core.recent.buffers.lookup key).getD []

/-- A subscription replays cached frames to the subscriber. -/
theorem routedTo_subscribe {subscriber : ConnId} {auth : AuthState}
    (hauth : core.authedState subscriber = some auth) (sid : String) (after : Option ℕ) :
    (routedTo subscriber core (.subscribe subscriber sid after)).Sublist
        ((ringOf core (ringKey auth.daemonId sid)).map framePayload) ∧
      (c ≠ subscriber → routedTo c core (.subscribe subscriber sid after) = []) := by
  rw [routedTo, routedTo, routeSubscribe, hauth]
  dsimp only
  split
  · exact ⟨List.nil_sublist _, fun _ => rfl⟩
  · have hrecent : ∀ core' : RelayCore, core'.recent = core.recent → ∀ seq,
        ((core'.recent.replayAfter auth.daemonId sid seq).map framePayload).Sublist
          ((ringOf core (ringKey auth.daemonId sid)).map framePayload) := by
      intro core' hsame seq
      rw [hsame]
      exact List.filter_sublist.map framePayload
    constructor
    · rw [framesTo_replay, if_pos rfl]
      cases after with
      | none => exact List.nil_sublist _
      | some seq =>
        refine hrecent _ ?_ seq
        split
        · rfl
        · rfl
    · intro hne
      rw [framesTo_replay, if_neg (Ne.symm hne)]

/-- The frame that an operation caches under a key. -/
def cachedBy (key : String) : CoreOp → List Frame
  | .publish _ client sid ct seq _ =>
    if ringKey client.daemonId sid = key then [publishedFrame client sid ct seq] else []
  | _ => []

/-- A pushed frame comes behind those that stay cached. -/
theorem ring_push (cache : RecentFrames) (daemonId key : String) (frame : Frame) :
    (((cache.push daemonId frame).buffers.lookup key).getD []).Sublist
      ((cache.buffers.lookup key).getD [] ++
        if ringKey daemonId frame.sid = key then [frame] else []) := by
  have hadmitted : (((cache.admitKey daemonId (ringKey daemonId frame.sid)).buffers.lookup
      key).getD []).Sublist ((cache.buffers.lookup key).getD []) := by
    rcases RingIsolation.lookup_admitKey daemonId (ringKey daemonId frame.sid) key cache with
      ⟨hnone, -⟩ | hsame
    · rw [hnone]
      exact List.nil_sublist _
    · rw [hsame]
  rw [RecentFrames.push]
  dsimp only
  rw [lookup_insert_eq]
  by_cases hkey : key = ringKey daemonId frame.sid
  · rw [if_pos hkey, if_pos hkey.symm, Option.getD_some, ← hkey]
    rw [← hkey] at hadmitted
    exact (List.drop_sublist _ _).trans (hadmitted.append_right [frame])
  · rw [if_neg hkey, if_neg (Ne.symm hkey), List.append_nil]
    exact hadmitted

/-- Forgetting evicted daemons loses rings only. -/
theorem ringOf_dropEvicted (daemonIds : List String) (core : RelayCore) (key : String) :
    (ringOf (daemonIds.foldl dropEvicted core) key).Sublist (ringOf core key) := by
  induction daemonIds generalizing core with
  | nil => exact List.Sublist.refl _
  | cons daemonId daemonIds ih =>
    refine (ih (dropEvicted core daemonId)).trans ?_
    rw [ringOf, dropEvicted]
    dsimp only
    rw [RingIsolation.lookup_purgeDaemon]
    split
    · exact List.nil_sublist _
    · exact List.Sublist.refl _

/-- Leaving a group keeps the cache. -/
theorem recent_removeFromGroup (core : RelayCore) (daemonId : String) (connId : ConnId) :
    (core.removeFromGroup daemonId connId).recent = core.recent := by
  rw [RelayCore.removeFromGroup]
  split
  · rfl
  · split
    · rfl
    · rfl

theorem recent_handleClose (core : RelayCore) (connId : ConnId) (now : ℕ) :
    (handleClose core connId now).1.recent = core.recent := by
  rw [handleClose]
  split
  · rfl
  · dsimp only
    split
    · rfl
    · split
      · exact (recent_removeFromGroup _ _ _).trans (by split <;> rfl)
      · exact (recent_removeFromGroup _ _ _).trans (by split <;> rfl)

/-- After an operation a ring holds what it held, or less, and then what the operation
cached. -/
theorem ringOf_apply (env : RelayEnv) (core : RelayCore) (op : CoreOp) (key : String) :
    (ringOf (op.apply env core) key).Sublist (ringOf core key ++ cachedBy key op) := by
  have hsame : ∀ core' : RelayCore, core'.recent = core.recent →
      (ringOf core' key).Sublist (ringOf core key ++ []) := by
    intro core' hrecent
    rw [ringOf, hrecent, List.append_nil]
    exact List.Sublist.refl _
  cases op with
  | skip => exact hsame _ rfl
  | accept connId => exact hsame _ rfl
  | register daemonId token proof now => exact hsame _ rfl
  | join connId auth token now =>
    refine hsame _ ?_
    rw [CoreOp.apply, registerAuthedConn, RelayCore.addToGroup, RelayCore.seedGroupLimiter]
    split
    · rfl
    · rfl
  | publish publisher client sid ct seq now =>
    have hpush := ring_push core.recent client.daemonId key (publishedFrame client sid ct seq)
    rw [ringOf, CoreOp.apply, routePublish]
    split
    · exact hpush
    · exact hpush
  | subscribe connId sid after =>
    refine hsame _ ?_
    rw [CoreOp.apply, routeSubscribe]
    split
    · rfl
    · split
      · rfl
      · dsimp only
        split
        · rfl
        · rfl
  | unsubscribe connId sid =>
    refine hsame _ ?_
    rw [CoreOp.apply, routeUnsubscribe]
    split
    · rfl
    · dsimp only
      split
      · rfl
      · rfl
  | ping connId client now =>
    refine hsame _ ?_
    rw [CoreOp.apply, routePing]
    split
    · rfl
    · rfl
  | close connId now => exact hsame _ (recent_handleClose core connId now)
  | sweep now =>
    show (ringOf _ key).Sublist (ringOf core key ++ [])
    rw [List.append_nil]
    exact ringOf_dropEvicted _ _ _

/-- The state that an event starts from holds the same cache. -/
theorem ringOf_baseOf (s : RelayState) (e : RelayEvent) (key : String) :
    ringOf (baseOf s e) key = ringOf s.core key := by
  unfold baseOf
  split
  · rfl
  · split
    · rfl
    · rfl
  · rfl

end Routing

end Teleprompter.RelayDelivery
