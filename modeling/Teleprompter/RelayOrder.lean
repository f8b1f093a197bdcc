import Teleprompter.GrowingLogs
import Teleprompter.RelayDelivery
import Teleprompter.RelayPresence
import Teleprompter.StepRuns

/-!
# The order in which frames reach an outbox

A publisher's task tries its live frames one publish after the other, and the task of
a subscriber tries the frames of one replay before it takes its next message. Each of
the two is in publish order. The two tasks are not ordered with each other: a replay is
computed under the lock and delivered after it, so a live frame can be enqueued in
front of an older frame that is replayed.
-/

namespace Teleprompter.RelayOrder

open FiniteDictionary StepRuns RelayServer RelayConn RelayEffects
open RelayDelivery GrowingLogs

section Statement

/-- The frame of a try. -/
def triedFrame (task : TaskId) (c : ConnId) : Entry → Option Frame
  | .tried task' target (.frame frame) _ => if task' = task ∧ target = c then some frame else none
  | _ => none

/-- The frames that a task tried to put into an outbox, whatever the outbox answered. -/
def triedFrames (task : TaskId) (c : ConnId) (log : List Entry) : List Frame :=
  log.filterMap (triedFrame task c)

/-- The frame that a try put into an outbox. -/
def enqueuedFrame (c : ConnId) : Entry → Option Frame
  | .tried _ target (.frame frame) .ok => if target = c then some frame else none
  | _ => none

/-- The frames that an outbox took. -/
def enqueuedFrames (c : ConnId) (log : List Entry) : List Frame := log.filterMap (enqueuedFrame c)

/-- The frame that a publisher had routed. -/
def publishedFrameBy (publisher : ConnId) : Entry → Option Frame
  | .published publisher' _ frame _ => if publisher' = publisher then some frame else none
  | _ => none

/-- The frames of a publisher in publish order. -/
def publishedBy (publisher : ConnId) (log : List Entry) : List Frame :=
  log.filterMap (publishedFrameBy publisher)

/-- The frame that was routed under a key of the cache. -/
def publishedFrameUnder (key : String) : Entry → Option Frame
  | .published _ daemonId frame _ => if ringKey daemonId frame.sid = key then some frame else none
  | _ => none

/-- The frames of a key in publish order. -/
def publishedUnder (key : String) (log : List Entry) : List Frame :=
  log.filterMap (publishedFrameUnder key)

/-- The connection had a publish or a subscription routed. -/
def routedFor (c : ConnId) : Entry → Bool
  | .published publisher _ _ _ => publisher = c
  | .subscribed subscriber _ _ => subscriber = c
  | .tried _ _ _ _ => false

/-- The frames that a connection's task still has to try. -/
def pendingTo (s : System) (publisher c : ConnId) : List Frame :=
  (s.tasks (.conn publisher)).flatMap fun call => framesTo c call.actions

/-- No frame of a publisher is enqueued behind one that was published after it. -/
def InPublishOrder (log : List Entry) (publisher c : ConnId) : Prop :=
  (enqueuedFrames c log).Pairwise fun first second =>
    ¬([second, first].Sublist (publishedBy publisher log) ∧
      ¬[first, second].Sublist (publishedBy publisher log))

instance (log : List Entry) (publisher c : ConnId) : Decidable (InPublishOrder log publisher c) :=
  inferInstanceAs (Decidable (List.Pairwise _ _))

/-- Live frames and the frames of one replay are each in publish order, and a listener
misses no frame that its outbox takes. -/
structure Delivers (s : System) : Prop where
  live : ∀ publisher c, publisher ≠ c →
    (triedFrames (.conn publisher) c s.log).Sublist (publishedBy publisher s.log)
  /-- A replay has frames that were published before the subscription. -/
  replayed : ∀ before subscriber daemonId sid after,
    s.log = before ++ .subscribed subscriber daemonId sid :: after →
      (triedFrames (.conn subscriber) subscriber (block (routedFor subscriber) after)).Sublist
        (publishedUnder (ringKey daemonId sid) before)
  /-- A frame is tried on every listener before its publisher has something routed again. -/
  reached : ∀ before publisher daemonId frame listeners after,
    s.log = before ++ .published publisher daemonId frame listeners :: after →
      ∀ c ∈ listeners,
        (∃ result,
            .tried (.conn publisher) c (.frame frame) result ∈ block (routedFor publisher) after) ∨
          Open (routedFor publisher) after ∧ frame ∈ pendingTo s publisher c

/-- A task that has frames to try tries the first of them with its next step. -/
def KeepsTrying (env : RelayEnv) (cap : ℕ) (s : System) : Prop :=
  ∀ publisher now, (∃ c, pendingTo s publisher c ≠ []) →
    ∃ target frame,
      (step env cap s (.poll (.conn publisher) now)).log =
          s.log ++ [.tried (.conn publisher) target (.frame frame) (s.trySend cap target)] ∧
        ∀ c, pendingTo s publisher c = (if target = c then [frame] else []) ++
          pendingTo (step env cap s (.poll (.conn publisher) now)) publisher c

end Statement

section Soundness

variable {env : RelayEnv} {cap : ℕ} {s s' : System}

/-- What holds in every state. -/
structure Sound (s : System) : Prop where
  grouped : Grouped s.relay.core
  /-- A ring holds frames of its key in publish order. -/
  cached : ∀ key,
    ((ringOf s.relay.core key).map framePayload).Sublist (publishedUnder key s.log)
  /-- What was tried and what is pending of a publisher is in publish order. -/
  live : ∀ publisher c, publisher ≠ c →
    (triedFrames (.conn publisher) c s.log ++ pendingTo s publisher c).Sublist
      (publishedBy publisher s.log)
  /-- So is what was tried and what is pending of a replay. -/
  replayed : ∀ before subscriber daemonId sid after,
    s.log = before ++ .subscribed subscriber daemonId sid :: after →
      (triedFrames (.conn subscriber) subscriber (block (routedFor subscriber) after)).Sublist
          (publishedUnder (ringKey daemonId sid) before) ∧
        (Open (routedFor subscriber) after →
          (triedFrames (.conn subscriber) subscriber after ++
              pendingTo s subscriber subscriber).Sublist
            (publishedUnder (ringKey daemonId sid) before))
  reached : ∀ before publisher daemonId frame listeners after,
    s.log = before ++ .published publisher daemonId frame listeners :: after →
      ∀ c ∈ listeners,
        (∃ result,
            .tried (.conn publisher) c (.frame frame) result ∈ block (routedFor publisher) after) ∨
          Open (routedFor publisher) after ∧ frame ∈ pendingTo s publisher c
  /-- A task with pending frames is in a call that only sends frames. -/
  calls : ∀ publisher, (∀ c, pendingTo s publisher c = []) ∨ ∃ actions backpressured,
    s.tasks (.conn publisher) = [⟨actions, backpressured⟩] ∧
      ∀ a ∈ actions, ∃ target frame, a = .send target (.frame frame)

theorem sound_start (env : RelayEnv) : Sound (System.start env) where
  grouped := fun c auth h => by cases h
  cached := fun key => List.nil_sublist _
  live := fun publisher c hne => List.nil_sublist _
  replayed := fun before subscriber daemonId sid after h => absurd h (by simp [System.start])
  reached := fun before publisher daemonId frame listeners after h =>
    absurd h (by simp [System.start])
  calls := fun publisher => .inl fun c => rfl

/-- A step that neither routes nor tries a frame. -/
theorem Sound.quiet (h : Sound s) (hlog : s'.log = s.log)
    (hpending : ∀ publisher c, pendingTo s' publisher c = pendingTo s publisher c)
    (hgrouped : Grouped s'.relay.core)
    (hrings : ∀ key, (ringOf s'.relay.core key).Sublist (ringOf s.relay.core key))
    (hcalls : ∀ publisher, s'.tasks (.conn publisher) = s.tasks (.conn publisher) ∨
      ∀ c, pendingTo s publisher c = []) : Sound s' where
  grouped := hgrouped
  cached := fun key => by
    rw [hlog]
    exact ((hrings key).map framePayload).trans (h.cached key)
  live := fun publisher c hne => by
    rw [hlog, hpending]
    exact h.live publisher c hne
  replayed := fun before subscriber daemonId sid after hsplit => by
    rw [hpending]
    exact h.replayed before subscriber daemonId sid after (hlog ▸ hsplit)
  reached := fun before publisher daemonId frame listeners after hsplit c hc => by
    rw [hpending]
    exact h.reached before publisher daemonId frame listeners after (hlog ▸ hsplit) c hc
  calls := fun publisher => by
    rcases hcalls publisher with hsame | hnone
    · rcases h.calls publisher with hidle | hframes
      · exact .inl fun c => (hpending publisher c).trans (hidle c)
      · exact .inr (by rw [hsame]; exact hframes)
    · exact .inl fun c => (hpending publisher c).trans (hnone c)

/-- Something is routed for a connection whose task has no frames to try. -/
structure Routes (s s' : System) (connId : ConnId) (e : Entry) : Prop where
  idle : ∀ c, pendingTo s connId c = []
  log : s'.log = s.log ++ [e]
  routed : ∀ c, routedFor c e = decide (connId = c)
  /-- Other tasks keep what they have to try. -/
  others : ∀ publisher c, publisher ≠ connId →
    pendingTo s' publisher c = pendingTo s publisher c
  published : ∀ publisher, publisher ≠ connId → publishedFrameBy publisher e = none
  /-- A live frame is the one that was published. -/
  live : ∀ c, connId ≠ c → (pendingTo s' connId c).Sublist (publishedFrameBy connId e).toList
  /-- Frames for the connection itself are a replay. -/
  replay : ∀ daemonId sid, e = .subscribed connId daemonId sid →
    (pendingTo s' connId connId).Sublist (publishedUnder (ringKey daemonId sid) s.log)
  listeners : ∀ daemonId frame listeners, e = .published connId daemonId frame listeners →
    ∀ c ∈ listeners, frame ∈ pendingTo s' connId c
  grouped : Grouped s'.relay.core
  cached : ∀ key, ((ringOf s'.relay.core key).map framePayload).Sublist
    (publishedUnder key s.log ++ (publishedFrameUnder key e).toList)
  calls : ∀ publisher, publisher ≠ connId →
    s'.tasks (.conn publisher) = s.tasks (.conn publisher)
  call : (∀ c, pendingTo s' connId c = []) ∨ ∃ actions backpressured,
    s'.tasks (.conn connId) = [⟨actions, backpressured⟩] ∧
      ∀ a ∈ actions, ∃ target frame, a = .send target (.frame frame)

section Routes

variable {connId : ConnId} {e : Entry}

/-- Routing tries nothing. -/
theorem Routes.triedFrames_concat (hr : Routes s s' connId e) (task : TaskId) (c : ConnId)
    (log : List Entry) : triedFrames task c (log ++ [e]) = triedFrames task c log := by
  have htried : triedFrame task c e = none := by
    cases e with
    | published publisher daemonId frame listeners => rfl
    | subscribed subscriber daemonId sid => rfl
    | tried task' target msg result =>
      have hself := hr.routed connId
      rw [routedFor, decide_eq_true rfl] at hself
      cases hself
  rw [triedFrames, filterMap_concat, htried]
  exact List.append_nil _

/-- The entry is one of the connection. -/
theorem Routes.eq_of_routedFor (hr : Routes s s' connId e) {c : ConnId}
    (h : routedFor c e = true) : c = connId := by
  rw [hr.routed] at h
  exact (of_decide_eq_true h).symm

theorem Routes.not_routedFor (hr : Routes s s' connId e) {c : ConnId} (hne : c ≠ connId) :
    routedFor c e = false := by
  rw [hr.routed, decide_eq_false (Ne.symm hne)]

/-- Routing ends the block of the connection. -/
theorem Routes.stop (hr : Routes s s' connId e) : routedFor connId e = true := by
  rw [hr.routed, decide_eq_true rfl]

/-- Live frames stay in publish order. -/
theorem Routes.next_live (hr : Routes s s' connId e) (h : Sound s) {publisher c : ConnId}
    (hne : publisher ≠ c) :
    (triedFrames (.conn publisher) c s'.log ++ pendingTo s' publisher c).Sublist
      (publishedBy publisher s'.log) := by
  rw [hr.log, hr.triedFrames_concat, publishedBy, filterMap_concat]
  by_cases hpublisher : publisher = connId
  · subst hpublisher
    have hbefore := h.live publisher c hne
    rw [hr.idle, List.append_nil] at hbefore
    exact hbefore.append (hr.live c hne)
  · rw [hr.others publisher c hpublisher, hr.published publisher hpublisher, Option.toList_none,
      List.append_nil]
    exact h.live publisher c hne

/-- Replays stay in publish order, and a new one is. -/
theorem Routes.next_replayed (hr : Routes s s' connId e) (h : Sound s) {before after : List Entry}
    {subscriber : ConnId} {daemonId sid : String}
    (hsplit : s'.log = before ++ .subscribed subscriber daemonId sid :: after) :
    (triedFrames (.conn subscriber) subscriber (block (routedFor subscriber) after)).Sublist
        (publishedUnder (ringKey daemonId sid) before) ∧
      (Open (routedFor subscriber) after →
        (triedFrames (.conn subscriber) subscriber after ++
            pendingTo s' subscriber subscriber).Sublist
          (publishedUnder (ringKey daemonId sid) before)) := by
  rw [hr.log] at hsplit
  rcases split_concat hsplit with ⟨hbefore, hentry, hafter⟩ | ⟨after', hafter, hold⟩
  · rw [hafter, hbefore]
    have hconn : subscriber = connId := by
      refine hr.eq_of_routedFor ?_
      rw [← hentry, routedFor, decide_eq_true rfl]
    rw [hconn] at hentry ⊢
    exact ⟨List.nil_sublist _, fun _ => hr.replay daemonId sid hentry.symm⟩
  · obtain ⟨hblock, hopen⟩ := h.replayed before subscriber daemonId sid after' hold
    rw [hafter]
    by_cases hconn : subscriber = connId
    · rw [hconn] at hblock ⊢
      rw [block_concat_of_stop hr.stop]
      refine ⟨hblock, fun hstill => ?_⟩
      have hgo := (open_concat.mp hstill).2
      rw [hr.stop] at hgo
      cases hgo
    · rw [hr.triedFrames_concat, hr.others subscriber subscriber hconn]
      refine ⟨?_, fun hstill => hopen (open_concat.mp hstill).1⟩
      by_cases hwas : Open (routedFor subscriber) after'
      · rw [hwas.block_concat (hr.not_routedFor hconn), hr.triedFrames_concat]
        rw [hwas.block_eq] at hblock
        exact hblock
      · rw [block_concat_of_not_open hwas]
        exact hblock

/-- Listeners stay reached, and those of a new frame have it pending. -/
theorem Routes.next_reached (hr : Routes s s' connId e) (h : Sound s) {before after : List Entry}
    {publisher c : ConnId} {daemonId : String} {frame : Frame} {listeners : List ConnId}
    (hsplit : s'.log = before ++ .published publisher daemonId frame listeners :: after)
    (hc : c ∈ listeners) :
    (∃ result,
        .tried (.conn publisher) c (.frame frame) result ∈ block (routedFor publisher) after) ∨
      Open (routedFor publisher) after ∧ frame ∈ pendingTo s' publisher c := by
  rw [hr.log] at hsplit
  rcases split_concat hsplit with ⟨hbefore, hentry, hafter⟩ | ⟨after', hafter, hold⟩
  · rw [hafter]
    have hconn : publisher = connId := by
      refine hr.eq_of_routedFor ?_
      rw [← hentry, routedFor, decide_eq_true rfl]
    rw [hconn] at hentry ⊢
    exact .inr ⟨open_nil, hr.listeners daemonId frame listeners hentry.symm c hc⟩
  · rw [hafter]
    rcases h.reached before publisher daemonId frame listeners after' hold c hc with
      ⟨result, htry⟩ | ⟨hopen, hmem⟩
    · exact .inl ⟨result, mem_block_concat htry⟩
    · by_cases hconn : publisher = connId
      · rw [hconn, hr.idle] at hmem
        cases hmem
      · rw [hr.others publisher c hconn]
        exact .inr ⟨open_concat.mpr ⟨hopen, hr.not_routedFor hconn⟩, hmem⟩

/-- Routing keeps the state sound. -/
theorem Routes.sound (hr : Routes s s' connId e) (h : Sound s) : Sound s' where
  grouped := hr.grouped
  cached := fun key => by
    rw [hr.log, publishedUnder, filterMap_concat]
    exact hr.cached key
  live := fun publisher c hne => hr.next_live h hne
  replayed := fun before subscriber daemonId sid after hsplit => hr.next_replayed h hsplit
  reached := fun before publisher daemonId frame listeners after hsplit c hc =>
    hr.next_reached h hsplit hc
  calls := fun publisher => by
    by_cases hconn : publisher = connId
    · rw [hconn]
      exact hr.call
    · rcases h.calls publisher with hnone | hframes
      · exact .inl fun c => (hr.others publisher c hconn).trans (hnone c)
      · rw [hr.calls publisher hconn]
        exact .inr hframes

end Routes

/-- A try with a frame is of that task, connection and frame. -/
theorem tried_of_triedFrame {task task' : TaskId} {c target : ConnId} {msg : RelayServerMessage}
    {result : TrySend} {frame : Frame}
    (h : triedFrame task c (.tried task' target msg result) = some frame) :
    Entry.tried task c (.frame frame) result = .tried task' target msg result := by
  cases msg with
  | frame frame' =>
    rw [triedFrame] at h
    split at h
    · rename_i hsame
      rw [hsame.1, hsame.2, Option.some.inj h]
    · cases h
  | _ => cases h

/-- The frames that other tasks have pending do not change with a task's calls. -/
theorem pendingTo_of_calls (s' : System) {task : TaskId} {calls calls' : List Delivery}
    (htask : s.tasks task = calls) (htasks : s'.tasks = Function.update s.tasks task calls')
    (publisher c : ConnId) :
    (task = .conn publisher ∧
      pendingTo s publisher c = calls.flatMap (fun call => framesTo c call.actions) ∧
        pendingTo s' publisher c = calls'.flatMap fun call => framesTo c call.actions) ∨
      task ≠ .conn publisher ∧ pendingTo s' publisher c = pendingTo s publisher c := by
  by_cases hpublisher : task = .conn publisher
  · refine .inl ⟨hpublisher, ?_, ?_⟩
    · rw [pendingTo, ← hpublisher, htask]
    · rw [pendingTo, htasks, ← hpublisher, Function.update_self]
  · refine .inr ⟨hpublisher, ?_⟩
    rw [pendingTo, htasks, Function.update_of_ne (Ne.symm hpublisher)]
    rfl

/-- A try takes the frame it tries from what is pending. -/
theorem pendingTo_try (cap : ℕ) {task : TaskId} {target : ConnId} {msg : RelayServerMessage}
    {actions : List Action} {backpressured : List ConnId} {calls : List Delivery}
    (htask : s.tasks task = ⟨.send target msg :: actions, backpressured⟩ :: calls)
    (publisher c : ConnId) :
    pendingTo s publisher c =
      (triedFrame (.conn publisher) c (.tried task target msg (s.trySend cap target))).toList ++
        pendingTo (s.try cap task target msg actions backpressured calls) publisher c := by
  rcases pendingTo_of_calls (s.try cap task target msg actions backpressured calls) htask rfl
    publisher c with ⟨hpublisher, hbefore, hafter⟩ | ⟨hpublisher, hsame⟩
  · rw [hbefore, hafter, List.flatMap_cons, List.flatMap_cons, framesTo_cons, List.append_assoc]
    cases msg with
    | frame frame => simp only [Action.frameTo, triedFrame, hpublisher, true_and]
    | _ => rfl
  · rw [hsame]
    cases msg with
    | frame frame => rw [triedFrame, if_neg fun hsame => hpublisher hsame.1]; rfl
    | _ => rfl

/-- A frame that is tried is pending before and logged afterwards. -/
theorem Sound.tried (h : Sound s) {task : TaskId} {target : ConnId} {msg : RelayServerMessage}
    {result : TrySend} (hlog : s'.log = s.log ++ [.tried task target msg result])
    (hcore : s'.relay = s.relay)
    (hpending : ∀ publisher c, pendingTo s publisher c =
      (triedFrame (.conn publisher) c (.tried task target msg result)).toList ++
        pendingTo s' publisher c)
    (hcalls : ∀ publisher, (∀ c, pendingTo s' publisher c = []) ∨ ∃ actions backpressured,
      s'.tasks (.conn publisher) = [⟨actions, backpressured⟩] ∧
        ∀ a ∈ actions, ∃ target frame, a = .send target (.frame frame)) : Sound s' := by
  have hmoved : ∀ publisher c (log : List Entry),
      triedFrames (.conn publisher) c (log ++ [.tried task target msg result]) ++
          pendingTo s' publisher c =
        triedFrames (.conn publisher) c log ++ pendingTo s publisher c := by
    intro publisher c log
    rw [triedFrames, filterMap_concat, List.append_assoc, ← hpending]
    rfl
  refine ⟨?_, ?_, ?_, ?_, ?_, hcalls⟩
  · rw [hcore]
    exact h.grouped
  · intro key
    have hnone : publishedFrameUnder key (.tried task target msg result) = none := rfl
    rw [hcore, hlog, publishedUnder, filterMap_concat, hnone, Option.toList_none, List.append_nil]
    exact h.cached key
  · intro publisher c hne
    have hnone : publishedFrameBy publisher (.tried task target msg result) = none := rfl
    rw [hlog, hmoved, publishedBy, filterMap_concat, hnone, Option.toList_none, List.append_nil]
    exact h.live publisher c hne
  · intro before subscriber daemonId sid after hsplit
    rw [hlog] at hsplit
    rcases split_concat hsplit with ⟨-, hentry, -⟩ | ⟨after', hafter, hold⟩
    · cases hentry
    · obtain ⟨hblock, hopen⟩ := h.replayed before subscriber daemonId sid after' hold
      rw [hafter, hmoved]
      refine ⟨?_, fun hstill => hopen (open_concat.mp hstill).1⟩
      by_cases hwas : Open (routedFor subscriber) after'
      · rw [hwas.block_concat rfl]
        refine List.Sublist.trans ?_ (hopen hwas)
        rw [← hmoved]
        exact List.sublist_append_left _ _
      · rw [block_concat_of_not_open hwas]
        exact hblock
  · intro before publisher daemonId frame listeners after hsplit c hc
    rw [hlog] at hsplit
    rcases split_concat hsplit with ⟨-, hentry, -⟩ | ⟨after', hafter, hold⟩
    · cases hentry
    · rw [hafter]
      rcases h.reached before publisher daemonId frame listeners after' hold c hc with
        ⟨result', htry⟩ | ⟨hopen, hmem⟩
      · exact .inl ⟨result', mem_block_concat htry⟩
      · rw [hpending] at hmem
        rcases List.mem_append.mp hmem with hnow | hlater
        · refine .inl ⟨result, ?_⟩
          rw [hopen.block_concat rfl]
          have hentry := tried_of_triedFrame (Option.mem_toList.mp hnow)
          rw [hentry]
          exact List.mem_append_right after' (List.mem_singleton_self _)
        · exact .inr ⟨open_concat.mpr ⟨hopen, rfl⟩, hlater⟩

/-- The next try of a task keeps the state sound. -/
theorem Sound.try (h : Sound s) {task : TaskId} {target : ConnId} {msg : RelayServerMessage}
    {actions : List Action} {backpressured : List ConnId} {calls : List Delivery}
    (htask : s.tasks task = ⟨.send target msg :: actions, backpressured⟩ :: calls) :
    Sound (s.try cap task target msg actions backpressured calls) := by
  refine h.tried rfl rfl (fun publisher c => pendingTo_try cap htask publisher c) fun publisher => ?_
  by_cases hpublisher : task = .conn publisher
  · rcases h.calls publisher with hnone | ⟨actions', backpressured', hcall, hframes⟩
    · refine .inl fun c => ?_
      have hpending := hnone c
      rw [pendingTo_try cap htask] at hpending
      exact (List.append_eq_nil_iff.mp hpending).2
    · rw [← hpublisher, htask, List.cons.injEq, Delivery.mk.injEq] at hcall
      obtain ⟨⟨hactions, -⟩, hcalls⟩ := hcall
      refine .inr ⟨actions,
        if s.trySend cap target = .full then backpressured ++ [target] else backpressured, ?_,
        fun a ha => hframes a ?_⟩
      · rw [System.try, hpublisher]
        dsimp only
        rw [Function.update_self, hcalls]
      · rw [← hactions]
        exact List.mem_cons_of_mem _ ha
  · rcases h.calls publisher with hnone | hcall
    · refine .inl fun c => ?_
      have hpending := hnone c
      rw [pendingTo_try cap htask] at hpending
      exact (List.append_eq_nil_iff.mp hpending).2
    · refine .inr ?_
      rw [System.try]
      dsimp only
      rw [Function.update_of_ne (Ne.symm hpublisher)]
      exact hcall

/-- The state that an event starts from has the same groups and auth states. -/
theorem grouped_baseOf {r : RelayState} (h : Grouped r.core) (e : RelayEvent) :
    Grouped (baseOf r e) := by
  obtain ⟨-, hgroups, hauth, -⟩ := baseOf_view r e
  intro c auth hc
  rw [hauth] at hc
  have hin := h c auth hc
  rw [RelayCore.InGroup, RelayCore.groupMembers] at hin ⊢
  rw [hgroups]
  exact hin

/-- Critical sections keep every authenticated connection in its group. -/
theorem grouped_relayStep (env : RelayEnv) {r : RelayState} (h : Grouped r.core) (e : RelayEvent) :
    Grouped (relayStepActions env r e).1.core := by
  have hcore : (relayStepActions env r e).1.core = (effectOf env r e).apply env (baseOf r e) :=
    relayStep_core env r e
  rw [hcore]
  exact RelayPresence.inGroup_step (grouped_baseOf h e) env _

/-- A ring after a critical section. -/
theorem ringOf_relayStep (env : RelayEnv) (r : RelayState) (e : RelayEvent) (key : String) :
    (ringOf (relayStepActions env r e).1.core key).Sublist
      (ringOf r.core key ++ cachedBy key (effectOf env r e)) := by
  have hcore : (relayStepActions env r e).1.core = (effectOf env r e).apply env (baseOf r e) :=
    relayStep_core env r e
  rw [hcore, ← ringOf_baseOf r e key]
  exact ringOf_apply env (baseOf r e) (effectOf env r e) key

/-- A call that does not begin with a frame belongs to a task without pending frames. -/
theorem Sound.pending_eq_nil (h : Sound s) {publisher : ConnId} {call : Delivery}
    {calls : List Delivery} (htask : s.tasks (.conn publisher) = call :: calls)
    (hcall : ∀ target frame actions, call.actions ≠ .send target (.frame frame) :: actions)
    (c : ConnId) : pendingTo s publisher c = [] := by
  rcases h.calls publisher with hnone | ⟨actions, backpressured, htask', hframes⟩
  · exact hnone c
  · rw [htask, List.cons.injEq] at htask'
    obtain ⟨hcall', hcalls⟩ := htask'
    rw [hcall'] at hcall
    rw [pendingTo, htask, hcall', hcalls, List.flatMap_singleton]
    cases actions with
    | nil => rfl
    | cons a actions =>
      obtain ⟨target, frame, rfl⟩ := hframes a List.mem_cons_self
      exact absurd rfl (hcall target frame actions)

/-- A task goes on with calls that have the same frames. -/
theorem Sound.next_calls (h : Sound s) {task : TaskId} {call : Delivery}
    {calls calls' : List Delivery} (htask : s.tasks task = call :: calls)
    (hcall : ∀ target frame actions, call.actions ≠ .send target (.frame frame) :: actions)
    (hsame : ∀ c, calls'.flatMap (fun call => framesTo c call.actions) =
      (call :: calls).flatMap fun call => framesTo c call.actions)
    (hlog : s'.log = s.log) (htasks : s'.tasks = Function.update s.tasks task calls')
    (hgrouped : Grouped s'.relay.core)
    (hrings : ∀ key, (ringOf s'.relay.core key).Sublist (ringOf s.relay.core key)) : Sound s' := by
  refine h.quiet hlog (fun publisher c => ?_) hgrouped hrings fun publisher => ?_
  · rcases pendingTo_of_calls s' htask htasks publisher c with ⟨-, hbefore, hafter⟩ | ⟨-, hkept⟩
    · rw [hbefore, hafter, hsame]
    · exact hkept
  · by_cases hpublisher : task = .conn publisher
    · rw [hpublisher] at htask
      exact .inr (h.pending_eq_nil htask hcall)
    · rw [htasks, Function.update_of_ne (Ne.symm hpublisher)]
      exact .inl rfl

/-- A forced close routes nothing. -/
theorem Sound.closeConn (h : Sound s) {task : TaskId} {call : Delivery}
    {calls calls' : List Delivery} (htask : s.tasks task = call :: calls)
    (hcall : ∀ target frame actions, call.actions ≠ .send target (.frame frame) :: actions)
    (hsame : ∀ c, calls'.flatMap (fun call => framesTo c call.actions) =
      (call :: calls).flatMap fun call => framesTo c call.actions)
    (target : ConnId) (now : ℕ) : Sound (s.closeConn env task target now calls') := by
  refine h.next_calls htask hcall (fun c => ?_) rfl rfl (grouped_relayStep env h.grouped _) fun key => ?_
  · rw [List.flatMap_cons]
    dsimp only
    rw [framesTo_event, hsame]
    rfl
  · have hring := ringOf_relayStep env s.relay (.forceClose target now) key
    rwa [show cachedBy key (effectOf env s.relay (.forceClose target now)) = [] from rfl,
      List.append_nil] at hring

/-- The next step of a task keeps the state sound. -/
theorem Sound.poll (h : Sound s) (task : TaskId) (now : ℕ) : Sound (s.poll env cap task now) := by
  rw [System.poll]
  split
  · exact h
  · rename_i target msg actions backpressured calls htask
    exact h.try htask
  · rename_i target code reason actions backpressured calls htask
    refine h.closeConn htask (fun target' frame actions' hne => ?_) (fun c => ?_) target now
    · cases hne
    · rfl
  · rename_i target backpressured calls htask
    refine h.closeConn htask (fun target' frame actions' hne => ?_) (fun c => ?_) target now
    · cases hne
    · rfl
  · rename_i calls htask
    refine h.next_calls htask (fun target' frame actions' hne => ?_) (fun c => ?_) rfl rfl h.grouped
      fun key => List.Sublist.refl _
    · cases hne
    · rfl

/-- The connection for which an operation routes. -/
def router : CoreOp → Option ConnId
  | .publish connId _ _ _ _ _ => some connId
  | .subscribe connId _ _ => some connId
  | _ => none

/-- A message is routed for its own connection, if at all. -/
theorem router_messageOp (env : RelayEnv) (core : RelayCore) (connId : ConnId) (now : ℕ) (msg : RelayClientMessage) :
    router (messageOp env core connId now msg) = none ∨
      router (messageOp env core connId now msg) = some connId := by
  unfold messageOp
  split
  · split
    · exact .inl rfl
    · split
      · exact .inl rfl
      · exact .inl rfl
  · split
    · exact .inl rfl
    · dsimp only
      split
      · exact .inl rfl
      · exact .inl rfl
  · exact .inl rfl
  · split
    · exact .inl rfl
    · exact .inr rfl
  · exact .inr rfl
  · exact .inl rfl
  · split
    · exact .inl rfl
    · exact .inl rfl
  · exact .inl rfl

/-- Critical sections that route are those of inbound messages. -/
theorem inbound_of_router {r : RelayState} {e : RelayEvent} {connId : ConnId}
    (h : router (effectOf env r e) = some connId) :
    ∃ frame clientOk groupOk now, e = .inbound connId frame clientOk groupOk now := by
  cases e with
  | inbound connId' frame clientOk groupOk now =>
    rcases effectOf_inbound_cases env r connId' frame clientOk groupOk now with hskip | ⟨msg, hmsg⟩
    · rw [hskip] at h
      cases h
    · rw [hmsg] at h
      rcases router_messageOp env _ connId' now msg with hnone | hsome
      · rw [hnone] at h
        cases h
      · rw [hsome] at h
        exact ⟨frame, clientOk, groupOk, now, by rw [Option.some.inj h]⟩
  | teardown connId' now =>
    rw [effectOf] at h
    split at h
    · cases h
    · cases h
  | accept => cases h
  | forceClose connId' now => cases h
  | sweep now => cases h

/-- The frames that are pending after a critical section. -/
theorem pendingTo_lock {task : TaskId} {e : RelayEvent} (hidle : s.tasks task = [])
    (publisher c : ConnId) :
    (task = .conn publisher ∧ pendingTo s publisher c = [] ∧
      pendingTo (s.lock env task e) publisher c =
        routedTo c (baseOf s.relay e) (effectOf env s.relay e)) ∨
      task ≠ .conn publisher ∧
        pendingTo (s.lock env task e) publisher c = pendingTo s publisher c := by
  have htasks : (s.lock env task e).tasks =
      Function.update s.tasks task [⟨(relayStepActions env s.relay e).2, []⟩] := by
    rw [System.lock, if_pos hidle]
  rcases pendingTo_of_calls (s.lock env task e) hidle htasks publisher c with ⟨htask, hbefore, hafter⟩ | hother
  · refine .inl ⟨htask, hbefore, ?_⟩
    rw [hafter, List.flatMap_singleton, framesTo_event]
  · exact .inr hother

/-- A task in a call with uniform actions. -/
theorem calls_of_uniform {publisher : ConnId} {actions : List Action}
    (htask : s.tasks (.conn publisher) = [⟨actions, []⟩]) (h : Uniform actions) :
    (∀ c, pendingTo s publisher c = []) ∨ ∃ actions backpressured,
      s.tasks (.conn publisher) = [⟨actions, backpressured⟩] ∧
        ∀ a ∈ actions, ∃ target frame, a = .send target (.frame frame) := by
  rcases h with hframes | hnone
  · exact .inr ⟨actions, [], htask, hframes⟩
  · refine .inl fun c => ?_
    rw [pendingTo, htask, List.flatMap_singleton]
    exact hnone c

/-- The calls of a task after a critical section. -/
theorem tasks_lock {task : TaskId} {e : RelayEvent} (hidle : s.tasks task = []) (publisher : ConnId) :
    (task = .conn publisher → (s.lock env task e).tasks (.conn publisher) =
        [⟨(relayStepActions env s.relay e).2, []⟩]) ∧
      (task ≠ .conn publisher →
        (s.lock env task e).tasks (.conn publisher) = s.tasks (.conn publisher)) := by
  rw [System.lock, if_pos hidle]
  constructor
  · intro htask
    dsimp only
    rw [htask, Function.update_self]
  · intro htask
    dsimp only
    rw [Function.update_of_ne (Ne.symm htask)]

/-- A critical section that routes nothing. -/
theorem Sound.lock_unrouted (h : Sound s) {task : TaskId} {e : RelayEvent}
    (hidle : s.tasks task = []) (hrouted : routed env s.relay e = [])
    (hframes : ∀ c, routedTo c (baseOf s.relay e) (effectOf env s.relay e) = [])
    (hcached : ∀ key, cachedBy key (effectOf env s.relay e) = []) :
    Sound (s.lock env task e) := by
  refine h.quiet ?_ (fun publisher c => ?_) ?_ (fun key => ?_) fun publisher => ?_
  · rw [System.lock, if_pos hidle]
    dsimp only
    rw [hrouted, List.append_nil]
  · rcases pendingTo_lock hidle publisher c with ⟨-, hbefore, hafter⟩ | ⟨-, hkept⟩
    · rw [hbefore, hafter, hframes]
    · exact hkept
  · rw [System.lock, if_pos hidle]
    exact grouped_relayStep env h.grouped e
  · have hring := ringOf_relayStep env s.relay e key
    rw [hcached, List.append_nil] at hring
    rw [System.lock, if_pos hidle]
    exact hring
  · by_cases htask : task = .conn publisher
    · refine .inr fun c => ?_
      rw [pendingTo, ← htask, hidle]
      rfl
    · exact .inl ((tasks_lock hidle publisher).2 htask)

/-- A critical section that routes something for its task's connection. -/
theorem Sound.lock_routed (h : Sound s) {connId : ConnId} {e : RelayEvent} {entry : Entry}
    (hidle : s.tasks (.conn connId) = []) (hentry : routed env s.relay e = [entry])
    (hrouted : ∀ c, routedFor c entry = decide (connId = c))
    (hpublished : ∀ publisher, publisher ≠ connId → publishedFrameBy publisher entry = none)
    (hlive : ∀ c, connId ≠ c → (routedTo c (baseOf s.relay e) (effectOf env s.relay e)).Sublist
      (publishedFrameBy connId entry).toList)
    (hreplay : ∀ daemonId sid, entry = .subscribed connId daemonId sid →
      (routedTo connId (baseOf s.relay e) (effectOf env s.relay e)).Sublist
        (publishedUnder (ringKey daemonId sid) s.log))
    (hlisteners : ∀ daemonId frame listeners, entry = .published connId daemonId frame listeners →
      ∀ c ∈ listeners, frame ∈ routedTo c (baseOf s.relay e) (effectOf env s.relay e))
    (hcached : ∀ key, ((cachedBy key (effectOf env s.relay e)).map framePayload).Sublist
      (publishedFrameUnder key entry).toList) : Sound (s.lock env (.conn connId) e) := by
  have hpending : ∀ c, pendingTo (s.lock env (.conn connId) e) connId c =
      routedTo c (baseOf s.relay e) (effectOf env s.relay e) := by
    intro c
    rcases pendingTo_lock hidle connId c with ⟨-, -, hafter⟩ | ⟨hne, -⟩
    · exact hafter
    · exact absurd rfl hne
  have hne : ∀ publisher, publisher ≠ connId → TaskId.conn connId ≠ .conn publisher :=
    fun publisher hpublisher hsame => hpublisher (TaskId.conn.inj hsame).symm
  have hr : Routes s (s.lock env (.conn connId) e) connId entry :=
    { idle := fun c => by
        rw [pendingTo, hidle]
        rfl
      log := by rw [System.lock, if_pos hidle, ← hentry]
      routed := hrouted
      others := fun publisher c hpublisher => by
        rcases pendingTo_lock hidle publisher c with ⟨hsame, -, -⟩ | ⟨-, hkept⟩
        · exact absurd hsame (hne publisher hpublisher)
        · exact hkept
      published := hpublished
      live := fun c hc => by
        rw [hpending]
        exact hlive c hc
      replay := fun daemonId sid hsub => by
        rw [hpending]
        exact hreplay daemonId sid hsub
      listeners := fun daemonId frame listeners hpub c hc => by
        rw [hpending]
        exact hlisteners daemonId frame listeners hpub c hc
      grouped := by
        rw [System.lock, if_pos hidle]
        exact grouped_relayStep env h.grouped e
      cached := fun key => by
        have hring := (ringOf_relayStep env s.relay e key).map framePayload
        rw [List.map_append] at hring
        rw [System.lock, if_pos hidle]
        exact hring.trans ((h.cached key).append (hcached key))
      calls := fun publisher hpublisher => (tasks_lock hidle publisher).2 (hne publisher hpublisher)
      call := calls_of_uniform ((tasks_lock hidle connId).1 rfl) (uniform_event env s.relay e) }
  exact hr.sound h

/-- A publish reaches its listeners with the published frame. -/
theorem Sound.lock_publish (h : Sound s) {e : RelayEvent} {publisher : ConnId} {client : AuthState}
    {sid ct : String} {seq now : ℕ}
    (hop : effectOf env s.relay e = .publish publisher client sid ct seq now)
    (hidle : s.tasks (.conn publisher) = []) : Sound (s.lock env (.conn publisher) e) := by
  obtain ⟨-, -, hauths, -⟩ := baseOf_view s.relay e
  have hroute := fun c => routedTo_publish (c := c) (grouped_baseOf h.grouped e) publisher client
    sid ct seq now
  have hentry : routed env s.relay e = [.published publisher client.daemonId
      (framePayload (publishedFrame client sid ct seq))
      (listeners s.relay.core publisher client.daemonId sid)] := by
    rw [routed, hop]
  refine h.lock_routed hidle hentry (fun c => rfl)
    (fun publisher' hne => if_neg (Ne.symm hne)) (fun c hc => ?_) (fun daemonId sid' hsub => ?_)
    (fun daemonId frame listeners' hpub c hc => ?_) fun key => ?_
  · rw [hop, publishedFrameBy, if_pos rfl, Option.toList_some]
    rcases (hroute c).1 with hnone | hone
    · rw [hnone]
      exact List.nil_sublist _
    · rw [hone]
  · cases hsub
  · cases hpub
    have hlistens : c ∈ listeners (baseOf s.relay e) publisher client.daemonId sid := by
      rw [mem_listeners] at hc ⊢
      rw [hauths]
      exact hc
    rw [hop, (hroute c).2.1 hlistens]
    exact List.mem_singleton_self _
  · rw [hop, cachedBy, publishedFrameUnder]
    split
    · rename_i hkey
      have hwire : ringKey client.daemonId (framePayload (publishedFrame client sid ct seq)).sid =
          key := hkey
      rw [if_pos hwire]
      exact List.Sublist.refl _
    · exact List.nil_sublist _

/-- A subscription replays cached frames. -/
theorem Sound.lock_subscribe (h : Sound s) {e : RelayEvent} {subscriber : ConnId} {sid : String}
    {after : Option ℕ} (hop : effectOf env s.relay e = .subscribe subscriber sid after)
    (hidle : s.tasks (.conn subscriber) = []) : Sound (s.lock env (.conn subscriber) e) := by
  obtain ⟨-, -, hauths, -⟩ := baseOf_view s.relay e
  cases hauth : s.relay.core.authedState subscriber with
  | none =>
    refine h.lock_unrouted hidle ?_ (fun c => ?_) fun key => ?_
    · rw [routed, hop]
      dsimp only
      rw [hauth]
      rfl
    · rw [hop, routedTo, routeSubscribe, hauths, hauth]
      rfl
    · rw [hop]
      rfl
  | some auth =>
    have hbase : (baseOf s.relay e).authedState subscriber = some auth := by rw [hauths, hauth]
    have hroute := fun c => routedTo_subscribe (c := c) hbase sid after
    have hentry : routed env s.relay e = [.subscribed subscriber auth.daemonId sid] := by
      rw [routed, hop]
      dsimp only
      rw [hauth]
      rfl
    refine h.lock_routed hidle hentry (fun c => rfl) (fun publisher hne => rfl) (fun c hc => ?_)
      (fun daemonId sid' hsub => ?_) (fun daemonId frame listeners' hpub c hc => ?_) fun key => ?_
    · rw [hop, (hroute c).2 (Ne.symm hc)]
      exact List.nil_sublist _
    · cases hsub
      rw [hop]
      have hreplay := (hroute subscriber).1
      rw [ringOf_baseOf] at hreplay
      exact hreplay.trans (h.cached _)
    · cases hpub
    · rw [hop]
      exact List.nil_sublist _

/-- A critical section keeps the state sound. -/
theorem Sound.lock (h : Sound s) {task : TaskId} {e : RelayEvent}
    (htask : ∀ connId, router (effectOf env s.relay e) = some connId → task = .conn connId) :
    Sound (s.lock env task e) := by
  by_cases hidle : s.tasks task = []
  swap
  · rw [System.lock, if_neg hidle]
    exact h
  cases hop : effectOf env s.relay e with
  | publish publisher client sid ct seq now =>
    rw [htask publisher (by rw [hop]; rfl)] at hidle ⊢
    exact h.lock_publish hop hidle
  | subscribe subscriber sid after =>
    rw [htask subscriber (by rw [hop]; rfl)] at hidle ⊢
    exact h.lock_subscribe hop hidle
  | _ =>
    refine h.lock_unrouted hidle ?_ (fun c => ?_) fun key => ?_
    · rw [routed, hop]
    · rw [hop]
      rfl
    · rw [hop]
      rfl

/-- A push starts with no frames. -/
theorem Sound.pushed (h : Sound s) {i : ℕ} {call : Delivery}
    (hlog : s'.log = s.log) (hrelay : s'.relay = s.relay)
    (htasks : s'.tasks = Function.update s.tasks (.push i) [call]) : Sound s' := by
  have hconn : ∀ publisher, s'.tasks (.conn publisher) = s.tasks (.conn publisher) := by
    intro publisher
    rw [htasks, Function.update_of_ne (by exact TaskId.noConfusion)]
  refine h.quiet hlog (fun publisher c => ?_) (hrelay ▸ h.grouped) (fun key => ?_)
    fun publisher => .inl (hconn publisher)
  · rw [pendingTo, hconn]
    rfl
  · rw [hrelay]

/-- Every step keeps the state sound. -/
theorem Sound.next (h : Sound s) (e : Event) : Sound (step env cap s e) := by
  cases e with
  | accept =>
    refine h.quiet rfl (fun publisher c => rfl) (grouped_relayStep env h.grouped .accept) (fun key => ?_)
      fun publisher => .inl rfl
    have hring := ringOf_relayStep env s.relay .accept key
    rwa [show cachedBy key (effectOf env s.relay .accept) = [] from rfl, List.append_nil] at hring
  | receive connId frame clientOk groupOk now =>
    refine h.lock fun connId' hrouter => ?_
    obtain ⟨frame', clientOk', groupOk', now', he⟩ := inbound_of_router hrouter
    cases he
    rfl
  | leave connId now =>
    refine h.lock fun connId' hrouter => ?_
    obtain ⟨frame, clientOk, groupOk, now', he⟩ := inbound_of_router hrouter
    cases he
  | sweep now =>
    refine h.lock fun connId' hrouter => ?_
    obtain ⟨frame, clientOk, groupOk, now', he⟩ := inbound_of_router hrouter
    cases he
  | pushed i result targetFrontend daemonConn title body data fid =>
    rw [step]
    split
    · exact h.pushed rfl rfl rfl
    · exact h
  | poll task now => exact h.poll task now
  | drain connId =>
    exact h.quiet rfl (fun publisher c => rfl) h.grouped (fun key => List.Sublist.refl _)
      fun publisher => .inl rfl
  | writerEnds connId =>
    exact h.quiet rfl (fun publisher c => rfl) h.grouped (fun key => List.Sublist.refl _)
      fun publisher => .inl rfl

end Soundness

section Results

variable {env : RelayEnv} {cap : ℕ} {s : System}

/-- A sound state delivers live frames and replays in publish order. -/
theorem Sound.delivers (h : Sound s) : Delivers s where
  live := fun publisher c hne => (List.sublist_append_left _ _).trans (h.live publisher c hne)
  replayed := fun before subscriber daemonId sid after hsplit =>
    (h.replayed before subscriber daemonId sid after hsplit).1
  reached := h.reached

/-- A sound state tries pending frames. -/
theorem Sound.keepsTrying (h : Sound s) : KeepsTrying env cap s := by
  intro publisher now ⟨c, hc⟩
  rcases h.calls publisher with hnone | ⟨actions, backpressured, htask, hframes⟩
  · exact absurd (hnone c) hc
  · cases actions with
    | nil =>
      rw [pendingTo, htask] at hc
      exact absurd rfl hc
    | cons a actions =>
      obtain ⟨target, frame, rfl⟩ := hframes a List.mem_cons_self
      have hpoll : step env cap s (.poll (.conn publisher) now) =
          s.try cap (.conn publisher) target (.frame frame) actions backpressured [] := by
        rw [step, System.poll, htask]
      refine ⟨target, frame, by rw [hpoll]; rfl, fun c => ?_⟩
      rw [hpoll, pendingTo_try cap htask publisher c, triedFrame]
      by_cases htarget : target = c
      · rw [if_pos ⟨rfl, htarget⟩, if_pos htarget, Option.toList_some]
      · rw [if_neg fun hboth => htarget hboth.2, if_neg htarget, Option.toList_none]

/-- In every run of a relay, live frames of a publisher are tried in publish order, the
frames of a replay are tried in publish order and were published before the
subscription, and a published frame is tried on every listener, whose outbox takes it
unless it is full or closed, before its publisher has something routed again. -/
theorem live_and_replayed_in_order (env : RelayEnv) (cap : ℕ) (events : List Event) :
    Delivers (runFrom (step env cap) (System.start env) events) ∧
      KeepsTrying env cap (runFrom (step env cap) (System.start env) events) := by
  have hsound : Sound (runFrom (step env cap) (System.start env) events) :=
    runFrom_induction (fun s e h => h.next e) (sound_start env) events
  exact ⟨hsound.delivers, hsound.keepsTrying⟩

/-- A message that both rate limiters admit. -/
def hears (connId : ConnId) (msg : RelayClientMessage) : Event :=
  .receive connId (.message msg) true true 0

/-- A task's next steps. -/
def polls (connId : ConnId) (n : ℕ) : List Event := List.replicate n (.poll (.conn connId) 0)

/-- A daemon and a frontend of it are authenticated. -/
def pairedRun : List Event :=
  [.accept, hears 1 (.register "d" "p" "t" 2)] ++ polls 1 2 ++
    [hears 1 (.auth .daemon "d" "t" 2 none)] ++ polls 1 2 ++
    [.accept, hears 2 (.auth .frontend "d" "t" 2 (some "f"))] ++ polls 2 3

/-- A frame is cached and subscribed to; before it is replayed, a second frame is published
and delivered. -/
def overtakenRun : List Event :=
  pairedRun ++ [hears 1 (.publish "s" "x" 1)] ++ polls 1 1 ++
    [hears 2 (.subscribe "s" (some 0)), hears 1 (.publish "s" "y" 2)] ++ polls 1 1 ++ polls 2 1

/-- Two frames are delivered to a subscriber that then subscribes from the first one on. -/
def resubscribedRun : List Event :=
  pairedRun ++ [hears 2 (.subscribe "s" none)] ++ polls 2 1 ++ [hears 1 (.publish "s" "x" 1)] ++
    polls 1 2 ++ [hears 1 (.publish "s" "y" 2)] ++ polls 1 2 ++
    [hears 2 (.subscribe "s" (some 0))] ++ polls 2 1

/-- A live frame overtakes a replay that was computed before, and a second subscription
replays a frame behind a newer one. -/
theorem replay_behind_live :
    ¬InPublishOrder (runFrom (step plainEnv 512) (System.start plainEnv) overtakenRun).log 1 2 ∧
      ¬InPublishOrder
        (runFrom (step plainEnv 512) (System.start plainEnv) resubscribedRun).log 1 2 := by
  constructor
  · decide +kernel
  · decide +kernel

end Results

end Teleprompter.RelayOrder
