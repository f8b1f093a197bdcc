import Teleprompter.RunnerOutput

/-!
# How a runner notices that its daemon is gone

The reader and the writer of the daemon's socket wake the waiters of the moment when
they end. The loop waits for that in each of its rounds anew, beside its other
branches. A wake-up that meets no waiter, or a waiter whose round ends in another
branch, is lost.
-/

namespace Teleprompter.RunnerClose

open StepRuns
open SessionRecords (Octets)
open RunnerOutput (ByeReason Frame HookEvent ioRecord eventRecord ptyCapacity outboundCapacity)

section Model

/-- What the daemon sends to a runner. -/
inductive Inbound where
  | ack (seq : ℕ)
  | input (data : String)
  | resize (cols rows : ℕ)

/-- The task that reads from the socket. -/
inductive Reader where
  | reading
  /-- It woke the waiters. -/
  | notified
  /-- The sender of the inbound channel is dropped. -/
  | ended
  deriving DecidableEq

/-- The task that writes to the socket. -/
inductive Writer where
  | idle
  | writing (frame : Frame)
  /-- A write failed, and the socket is shut down. -/
  | failed
  | notified
  /-- The receiver of the outbound channel is dropped. -/
  | ended
  deriving DecidableEq

/-- Where the loop is. -/
inductive Phase where
  /-- Between two rounds, or before the first. -/
  | top
  /-- It waits in a round; its waiter may have been woken. -/
  | parked (woken : Bool)
  /-- The child ended and the loop sends what is queued. -/
  | draining (code : ℤ)
  | left (code : ℤ) (reason : ByeReason)
  deriving DecidableEq

/-- The loop may take another round. -/
def Phase.inLoop : Phase → Bool
  | .top => true
  | .parked _ => true
  | .draining _ => false
  | .left _ _ => false

/-- The loop, the tasks of its socket and the channels between them. -/
structure System where
  /-- Where the reading task of the socket stands. -/
  reader : Reader
  /-- Where the writing task of the socket stands. -/
  writer : Writer
  /-- Where the loop stands. -/
  phase : Phase
  /-- What came from the daemon. -/
  inbound : List Inbound
  /-- Hook events that wait. -/
  hooks : List HookEvent
  /-- Terminal output that waits. -/
  ptyData : List Octets
  /-- The exit code of the terminal that waits. -/
  ptyExit : Option ℤ
  /-- The signal that asks the runner to stop, as an exit code. -/
  shutdown : Option ℤ
  /-- Frames that wait for the writing task. -/
  outbound : List Frame

/-- The hello was sent before the loop. -/
def System.start (hello : Frame) : System :=
  ⟨.reading, .idle, .top, [], [], [], none, none, [hello]⟩

/-- Inbound messages that wait for the loop. -/
def inboundCapacity : ℕ := 4096

/-- The branches of a round. -/
inductive Branch where
  | inbound
  | hook (ts : ℚ)
  | data (ts : ℚ)
  | exit
  | closed
  | shutdown

/-- The outbound channel takes a frame. -/
def System.canSend (s : System) : Prop :=
  s.writer ≠ .ended ∧ s.outbound.length < outboundCapacity

instance (s : System) : Decidable s.canSend := inferInstanceAs (Decidable (_ ∧ _))

/-- A frame that cannot be sent makes the loop leave. -/
def System.sendOrLeave (s : System) (frame : Frame) : System :=
  if s.canSend then { s with outbound := s.outbound ++ [frame], phase := .top }
  else { s with phase := .left (-1) .signal }

/-- A round that ends in a branch. The waiters of the round are dropped; a branch
that is not ready changes nothing. What came in goes to the terminal; the closed
inbound channel is ready for ever, and the loop does nothing about it. -/
def System.take (sid : String) (s : System) : Branch → System
  | .inbound =>
    match s.inbound with
    | _ :: inbound => { s with inbound, phase := .top }
    | [] => if s.reader = .ended then { s with phase := .top } else s
  | .hook ts =>
    match s.hooks with
    | [] => s
    | event :: hooks =>
      match eventRecord sid event ts with
      | some frame => { s with hooks }.sendOrLeave frame
      | none => { s with hooks, phase := .top }
  | .data ts =>
    match s.ptyData with
    | [] => s
    | chunk :: ptyData => { s with ptyData }.sendOrLeave (ioRecord sid chunk ts)
  | .exit =>
    match s.ptyExit with
    | some code => { s with ptyExit := none, phase := .draining code }
    | none => s
  | .closed =>
    if s.phase = .parked true then { s with phase := .left (-1) .signal } else s
  | .shutdown =>
    match s.shutdown with
    | some code => { s with phase := .left code .signal }
    | none => s

/-- Everyone who waits now is woken. -/
def Phase.notifyWaiters : Phase → Phase
  | .parked _ => .parked true
  | phase => phase

/-- One step of a party. A step whose party is elsewhere changes nothing. -/
inductive Event where
  | receive (msg : Inbound)
  /-- End of file, an error or a frame that cannot be decoded. -/
  | readerNotifies
  | readerDrops
  /-- The writer takes a frame from its channel. -/
  | takeFrame
  | write
  | writeFails
  | writerNotifies
  | writerDrops
  | hookArrives (event : HookEvent)
  | chunkArrives (chunk : Octets)
  | exitArrives (code : ℤ)
  | signalArrives (code : ℤ)
  /-- The round finds nothing and waits; so it does when its budget is used up. -/
  | park
  | select (branch : Branch)
  /-- One turn of the drain. -/
  | drain (ts : ℚ)

/-- One step. -/
def step (sid : String) (s : System) : Event → System
  | .receive msg =>
    if s.reader = .reading ∧ s.inbound.length < inboundCapacity then
      { s with inbound := s.inbound ++ [msg] }
    else s
  | .readerNotifies =>
    if s.reader = .reading then { s with reader := .notified, phase := s.phase.notifyWaiters } else s
  | .readerDrops => if s.reader = .notified then { s with reader := .ended } else s
  | .takeFrame =>
    match s.writer, s.outbound with
    | .idle, frame :: outbound => { s with writer := .writing frame, outbound }
    | _, _ => s
  | .write =>
    match s.writer with
    | .writing _ => { s with writer := .idle }
    | _ => s
  | .writeFails =>
    match s.writer with
    | .writing _ => { s with writer := .failed }
    | _ => s
  | .writerNotifies =>
    if s.writer = .failed then { s with writer := .notified, phase := s.phase.notifyWaiters } else s
  | .writerDrops => if s.writer = .notified then { s with writer := .ended, outbound := [] } else s
  | .hookArrives event => { s with hooks := s.hooks ++ [event] }
  | .chunkArrives chunk =>
    if s.ptyData.length < ptyCapacity then { s with ptyData := s.ptyData ++ [chunk] } else s
  | .exitArrives code => { s with ptyExit := s.ptyExit.or (some code) }
  | .signalArrives code => { s with shutdown := s.shutdown.or (some code) }
  | .park => if s.phase = .top then { s with phase := .parked false } else s
  | .select branch => if s.phase.inLoop then s.take sid branch else s
  | .drain ts =>
    match s.phase with
    | .draining code =>
      match s.ptyData with
      | [] => { s with phase := .left code .exit }
      | chunk :: ptyData =>
        if s.canSend then { s with ptyData, outbound := s.outbound ++ [ioRecord sid chunk ts] }
        else { s with ptyData, phase := .left code .exit }
    | _ => s

end Model

section Statement

/-- The reader or the writer has ended because the connection is gone. -/
def Gone (s : System) : Prop :=
  s.reader ≠ .reading ∨ s.writer = .notified ∨ s.writer = .ended

/-- A branch that leaves the loop is ready. -/
def LeaveReady (sid : String) (s : System) : Prop :=
  ∃ branch, (s.take sid branch).phase.inLoop = false

/-- When the connection is gone and the loop has not left, a branch that leaves it is
ready, or a wake-up of the loop is pending. -/
def Noticed (sid : String) (s : System) : Prop :=
  Gone s → s.phase.inLoop → LeaveReady sid s ∨ s.phase = .parked true

/-- The first hook event that waits has a name, so a record is sent for it. -/
def Named (hooks : List HookEvent) : Prop := hooks.head?.bind HookEvent.hookEventName ≠ none

/-- The loop is told to leave by the child's exit or by a signal, or finds no room for
what waits, when it sent some more frames and these queues are left. -/
def StillLeaves (s : System) (sent : ℕ) (hooks : List HookEvent) (ptyData : List Octets) : Prop :=
  s.ptyExit ≠ none ∨ s.shutdown ≠ none ∨
    (s.writer = .ended ∨ outboundCapacity ≤ s.outbound.length + sent) ∧
      (ptyData ≠ [] ∨ Named hooks)

/-- A step that does not lose the wake-up: a task that ends meets a waiting loop, and
a round that ends in another branch once the connection is gone leaves the loop
another way out; so does a writer that makes room. -/
def Heard (s : System) : Event → Prop
  | .readerNotifies => s.reader = .reading → s.phase = .top → StillLeaves s 0 s.hooks s.ptyData
  | .writerNotifies => s.writer = .failed → s.phase = .top → StillLeaves s 0 s.hooks s.ptyData
  | .takeFrame => s.writer = .idle → s.outbound ≠ [] → Gone s → s.phase.inLoop →
      s.phase = .parked true ∨ s.ptyExit ≠ none ∨ s.shutdown ≠ none
  | .select .inbound => Gone s → s.phase.inLoop → s.inbound ≠ [] ∨ s.reader = .ended →
      StillLeaves s 0 s.hooks s.ptyData
  | .select (.hook _) => Gone s → s.phase.inLoop → ∀ event hooks, s.hooks = event :: hooks →
      if event.hookEventName = none then StillLeaves s 0 hooks s.ptyData
      else s.canSend → StillLeaves s 1 hooks s.ptyData
  | .select (.data _) => Gone s → s.phase.inLoop → ∀ chunk ptyData, s.ptyData = chunk :: ptyData →
      s.canSend → StillLeaves s 1 s.hooks ptyData
  | _ => True

end Statement

section Rounds

variable {sid : String} {s s' : System}

theorem not_canSend_iff :
    ¬s.canSend ↔ s.writer = .ended ∨ outboundCapacity ≤ s.outbound.length := by
  rw [System.canSend, not_and_or, not_not, not_lt]

/-- A frame is sent and the loop goes on, or the loop leaves. -/
theorem inLoop_sendOrLeave (s : System) (frame : Frame) :
    (s.sendOrLeave frame).phase.inLoop = decide s.canSend := by
  rw [System.sendOrLeave]
  split
  · rename_i hsend
    rw [decide_eq_true hsend]
    rfl
  · rename_i hsend
    rw [decide_eq_false hsend]
    rfl

theorem leaves_inbound (hin : s.phase.inLoop) : (s.take sid .inbound).phase.inLoop = true := by
  rw [System.take]
  split
  · rfl
  · split
    · rfl
    · exact hin

theorem leaves_hook_iff (hin : s.phase.inLoop) (ts : ℚ) :
    (s.take sid (.hook ts)).phase.inLoop = false ↔ Named s.hooks ∧ ¬s.canSend := by
  rw [System.take, Named]
  rcases hhooks : s.hooks with _ | ⟨event, hooks⟩
  · simp [hin]
  · rcases hname : event.hookEventName with _ | name
    · have hrecord : eventRecord sid event ts = none := by rw [eventRecord, hname, Option.map_none]
      simp [hrecord, hname, Phase.inLoop]
    · have hrecord : ∃ frame, eventRecord sid event ts = some frame := by
        rw [eventRecord, hname]
        exact ⟨_, rfl⟩
      obtain ⟨frame, hframe⟩ := hrecord
      dsimp only
      rw [hframe]
      dsimp only
      rw [inLoop_sendOrLeave, decide_eq_false_iff_not, List.head?_cons, Option.bind_some, hname]
      exact ⟨fun h => ⟨Option.some_ne_none name, h⟩, And.right⟩

theorem leaves_data_iff (hin : s.phase.inLoop) (ts : ℚ) :
    (s.take sid (.data ts)).phase.inLoop = false ↔ s.ptyData ≠ [] ∧ ¬s.canSend := by
  rw [System.take]
  rcases hdata : s.ptyData with _ | ⟨chunk, ptyData⟩
  · simp [hin]
  · dsimp only
    rw [inLoop_sendOrLeave, decide_eq_false_iff_not]
    exact ⟨fun h => ⟨List.cons_ne_nil chunk ptyData, h⟩, And.right⟩

theorem leaves_exit_iff (hin : s.phase.inLoop) :
    (s.take sid .exit).phase.inLoop = false ↔ s.ptyExit ≠ none := by
  rw [System.take]
  rcases hexit : s.ptyExit with _ | code
  · simp [hin]
  · simp [Phase.inLoop]

theorem leaves_closed_iff (hin : s.phase.inLoop) :
    (s.take sid .closed).phase.inLoop = false ↔ s.phase = .parked true := by
  rw [System.take]
  split
  · rename_i hwoken
    exact ⟨fun _ => hwoken, fun _ => rfl⟩
  · rename_i hasleep
    rw [hin]
    exact ⟨fun h => Bool.noConfusion h, fun h => absurd h hasleep⟩

theorem leaves_shutdown_iff (hin : s.phase.inLoop) :
    (s.take sid .shutdown).phase.inLoop = false ↔ s.shutdown ≠ none := by
  rw [System.take]
  rcases hsignal : s.shutdown with _ | code
  · simp [hin]
  · simp [Phase.inLoop]

/-- Which branches leave the loop. -/
theorem leaveReady_iff (hin : s.phase.inLoop) :
    LeaveReady sid s ↔ s.phase = .parked true ∨ StillLeaves s 0 s.hooks s.ptyData := by
  rw [StillLeaves, Nat.add_zero, ← not_canSend_iff]
  constructor
  · rintro ⟨branch, hleaves⟩
    cases branch with
    | inbound =>
      rw [leaves_inbound hin] at hleaves
      cases hleaves
    | hook ts =>
      obtain ⟨hnamed, hfull⟩ := (leaves_hook_iff hin ts).mp hleaves
      exact .inr (.inr (.inr ⟨hfull, .inr hnamed⟩))
    | data ts =>
      obtain ⟨hdata, hfull⟩ := (leaves_data_iff hin ts).mp hleaves
      exact .inr (.inr (.inr ⟨hfull, .inl hdata⟩))
    | exit => exact .inr (.inl ((leaves_exit_iff hin).mp hleaves))
    | closed => exact .inl ((leaves_closed_iff hin).mp hleaves)
    | shutdown => exact .inr (.inr (.inl ((leaves_shutdown_iff hin).mp hleaves)))
  · rintro (hwoken | hexit | hsignal | ⟨hfull, hdata | hnamed⟩)
    · exact ⟨.closed, (leaves_closed_iff hin).mpr hwoken⟩
    · exact ⟨.exit, (leaves_exit_iff hin).mpr hexit⟩
    · exact ⟨.shutdown, (leaves_shutdown_iff hin).mpr hsignal⟩
    · exact ⟨.data 0, (leaves_data_iff hin 0).mpr ⟨hdata, hfull⟩⟩
    · exact ⟨.hook 0, (leaves_hook_iff hin 0).mpr ⟨hnamed, hfull⟩⟩

/-- The end of the connection is noticed when the loop is woken or has another way out. -/
theorem noticed_iff : Noticed sid s ↔
    (Gone s → s.phase.inLoop → s.phase = .parked true ∨ StillLeaves s 0 s.hooks s.ptyData) := by
  refine forall₂_congr fun _ hin => ?_
  rw [leaveReady_iff hin]
  exact ⟨fun h => h.elim id .inl, .inl⟩

end Rounds

section Steps

variable {sid : String} {s s' : System}

/-- The outbound channel holds what it may. -/
def Bounded (s : System) : Prop := s.outbound.length ≤ outboundCapacity

/-- A way out stays one when nothing is taken away from it. -/
theorem StillLeaves.mono {sent sent' : ℕ} {hooks hooks' : List HookEvent}
    {ptyData ptyData' : List Octets} (h : StillLeaves s sent hooks ptyData)
    (hexit : s.ptyExit ≠ none → s'.ptyExit ≠ none)
    (hsignal : s.shutdown ≠ none → s'.shutdown ≠ none)
    (hfull : s.writer = .ended ∨ outboundCapacity ≤ s.outbound.length + sent →
      s'.writer = .ended ∨ outboundCapacity ≤ s'.outbound.length + sent')
    (hdata : ptyData ≠ [] → ptyData' ≠ []) (hhooks : Named hooks → Named hooks') :
    StillLeaves s' sent' hooks' ptyData' := by
  rcases h with hout | hout | ⟨hroom, hqueued⟩
  · exact .inl (hexit hout)
  · exact .inr (.inl (hsignal hout))
  · exact .inr (.inr ⟨hfull hroom, hqueued.imp hdata hhooks⟩)

theorem named_append {hooks : List HookEvent} (h : Named hooks) (event : HookEvent) :
    Named (hooks ++ [event]) := by
  cases hooks with
  | nil => exact absurd rfl h
  | cons first hooks => exact h

/-- A step that brings no end and takes no way out keeps the notice. -/
theorem Noticed.keep (h : Noticed sid s) (hgone : Gone s' → Gone s)
    (hphase : s'.phase.inLoop → s.phase.inLoop ∧ (s.phase = .parked true → s'.phase = .parked true))
    (hleaves : StillLeaves s 0 s.hooks s.ptyData → StillLeaves s' 0 s'.hooks s'.ptyData) :
    Noticed sid s' := by
  rw [noticed_iff] at h ⊢
  intro hgone' hin
  obtain ⟨hin', hwoken⟩ := hphase hin
  exact (h (hgone hgone') hin').imp hwoken hleaves

/-- The waiters of a loop that waits are woken. -/
theorem notifyWaiters_inLoop (phase : Phase) :
    phase.notifyWaiters.inLoop = phase.inLoop ∧
      (phase.inLoop → (phase.notifyWaiters = .parked true ↔ phase ≠ .top)) := by
  cases phase <;> simp [Phase.notifyWaiters, Phase.inLoop]

/-- A task that ends is noticed when it meets a waiting loop, or the loop leaves anyway. -/
theorem noticed_notify (hgone : Gone s')
    (hphase : s'.phase = s.phase.notifyWaiters)
    (hleaves : StillLeaves s' 0 s'.hooks s'.ptyData ↔ StillLeaves s 0 s.hooks s.ptyData) :
    Noticed sid s' ↔ (s.phase = .top → StillLeaves s 0 s.hooks s.ptyData) := by
  rw [noticed_iff, hphase, hleaves, (notifyWaiters_inLoop s.phase).1]
  constructor
  · intro h htop
    have hin : s.phase.inLoop = true := by rw [htop]; rfl
    rcases h hgone hin with hwoken | hstill
    · exact absurd htop (((notifyWaiters_inLoop s.phase).2 hin).mp hwoken)
    · exact hstill
  · intro h _ hin
    by_cases htop : s.phase = .top
    · exact .inr (h htop)
    · exact .inl (((notifyWaiters_inLoop s.phase).2 hin).mpr htop)

/-- A round that goes on with another one drops its waiter. -/
theorem noticed_round {P : Prop} (hgone : Gone s' ↔ Gone s) (hphase : s'.phase = .top)
    (hleaves : StillLeaves s' 0 s'.hooks s'.ptyData ↔ P) : Noticed sid s' ↔ (Gone s → P) := by
  rw [noticed_iff, hphase, hleaves, hgone]
  refine forall_congr' fun _ => ⟨fun h => ?_, fun h _ => .inr h⟩
  exact (h rfl).elim Phase.noConfusion id

/-- A loop that has left notices nothing more. -/
theorem noticed_of_left (hleft : s.phase.inLoop = false) : Noticed sid s := by
  intro _ hin
  rw [hleft] at hin
  cases hin

/-- A frame that is sent leaves less room to the frames behind it. -/
theorem noticed_sendOrLeave (s : System) (frame : Frame) :
    Noticed sid (s.sendOrLeave frame) ↔
      (Gone s → s.canSend → StillLeaves s 1 s.hooks s.ptyData) := by
  rw [System.sendOrLeave]
  split
  · rename_i hsend
    have hleaves : StillLeaves { s with outbound := s.outbound ++ [frame], phase := .top } 0
        s.hooks s.ptyData ↔ StillLeaves s 1 s.hooks s.ptyData := by
      rw [StillLeaves, StillLeaves, List.length_append, Nat.add_zero]
      rfl
    refine Iff.trans (noticed_round (s := s) Iff.rfl rfl hleaves) ?_
    exact forall_congr' fun _ => ⟨fun h _ => h, fun h => h hsend⟩
  · rename_i hfull
    exact ⟨fun _ _ hsend => absurd hsend hfull, fun _ => noticed_of_left rfl⟩

/-- What a round that ends in a branch does to the notice. -/
theorem noticed_take_iff (h : Noticed sid s) (hin : s.phase.inLoop) (branch : Branch) :
    Noticed sid (s.take sid branch) ↔ Heard s (.select branch) := by
  cases branch with
  | inbound =>
    rw [System.take, Heard]
    rcases hinbound : s.inbound with _ | ⟨msg, inbound⟩
    · by_cases hended : s.reader = .ended
      · dsimp only
        rw [if_pos hended]
        refine Iff.trans (noticed_round (s := s) Iff.rfl rfl Iff.rfl) ?_
        exact forall_congr' fun _ => ⟨fun h' _ _ => h', fun h' => h' hin (.inr hended)⟩
      · dsimp only
        rw [if_neg hended]
        refine ⟨fun _ _ _ hready => ?_, fun _ => h⟩
        exact hready.elim (absurd rfl) fun hended' => absurd hended' hended
    · dsimp only
      refine Iff.trans (noticed_round (s := s) Iff.rfl rfl Iff.rfl) ?_
      refine forall_congr' fun _ => ⟨fun h' _ _ => h', fun h' => ?_⟩
      exact h' hin (.inl (List.cons_ne_nil msg inbound))
  | hook ts =>
    rw [System.take, Heard]
    rcases hhooks : s.hooks with _ | ⟨event, hooks⟩
    · exact ⟨fun _ _ _ event hooks hcons => (by cases hcons), fun _ => h⟩
    · have hheard : (Gone s → s.phase.inLoop → ∀ event' hooks', event :: hooks = event' :: hooks' →
          if event'.hookEventName = none then StillLeaves s 0 hooks' s.ptyData
          else s.canSend → StillLeaves s 1 hooks' s.ptyData) ↔
          (Gone s → if event.hookEventName = none then StillLeaves s 0 hooks s.ptyData
            else s.canSend → StillLeaves s 1 hooks s.ptyData) := by
        refine forall_congr' fun _ => ⟨fun h' => h' hin event hooks rfl, fun h' _ => ?_⟩
        rintro event' hooks' ⟨⟩
        exact h'
      rw [hheard]
      dsimp only
      rcases hname : event.hookEventName with _ | name
      · rw [eventRecord, hname, Option.map_none, if_pos rfl]
        exact noticed_round Iff.rfl rfl Iff.rfl
      · rw [eventRecord, hname, Option.map_some, if_neg (Option.some_ne_none name)]
        exact noticed_sendOrLeave { s with hooks } _
  | data ts =>
    rw [System.take, Heard]
    rcases hdata : s.ptyData with _ | ⟨chunk, ptyData⟩
    · exact ⟨fun _ _ _ chunk ptyData hcons => (by cases hcons), fun _ => h⟩
    · dsimp only
      rw [noticed_sendOrLeave]
      refine forall_congr' fun _ => ⟨fun h' _ => ?_, fun h' => h' hin chunk ptyData rfl⟩
      rintro chunk' ptyData' ⟨⟩
      exact h'
  | exit =>
    rw [System.take]
    refine ⟨fun _ => trivial, fun _ => ?_⟩
    split
    · exact noticed_of_left rfl
    · exact h
  | closed =>
    rw [System.take]
    refine ⟨fun _ => trivial, fun _ => ?_⟩
    split
    · exact noticed_of_left rfl
    · exact h
  | shutdown =>
    rw [System.take]
    refine ⟨fun _ => trivial, fun _ => ?_⟩
    split
    · exact noticed_of_left rfl
    · exact h

theorem bounded_sendOrLeave (h : Bounded s) (frame : Frame) : Bounded (s.sendOrLeave frame) := by
  rw [System.sendOrLeave]
  split
  · rename_i hsend
    rw [Bounded, List.length_append]
    exact hsend.2
  · exact h

theorem bounded_take (h : Bounded s) (branch : Branch) : Bounded (s.take sid branch) := by
  cases branch with
  | hook ts =>
    rw [System.take]
    split
    · exact h
    · split
      · refine bounded_sendOrLeave ?_ _
        exact h
      · exact h
  | data ts =>
    rw [System.take]
    split
    · exact h
    · refine bounded_sendOrLeave ?_ _
      exact h
  | inbound =>
    rw [System.take]
    split
    · exact h
    · split <;> exact h
  | exit =>
    rw [System.take]
    split <;> exact h
  | closed =>
    rw [System.take]
    split <;> exact h
  | shutdown =>
    rw [System.take]
    split <;> exact h

/-- Only a branch, the drain and the writer touch the outbound channel. -/
theorem bounded_step (s : System) (e : Event) (h : Bounded s) : Bounded (step sid s e) := by
  cases e with
  | select branch =>
    rw [step]
    split
    · exact bounded_take h branch
    · exact h
  | drain ts =>
    rw [step]
    split
    · split
      · exact h
      · split
        · rename_i hsend
          rw [Bounded, List.length_append]
          exact hsend.2
        · exact h
    · exact h
  | takeFrame =>
    rw [step]
    split
    · rename_i houtbound
      rw [Bounded, houtbound, List.length_cons] at h
      exact Nat.le_of_succ_le h
    · exact h
  | writerDrops =>
    rw [step]
    split
    · exact Nat.zero_le _
    · exact h
  | write =>
    rw [step]
    split <;> exact h
  | writeFails =>
    rw [step]
    split <;> exact h
  | hookArrives event => exact h
  | exitArrives code => exact h
  | signalArrives code => exact h
  | _ =>
    rw [step]
    split <;> exact h

/-- The writer makes room, so only a wake-up or an order to leave is left. -/
theorem noticed_takeFrame_iff (hbounded : Bounded s) (h : Noticed sid s) :
    Noticed sid (step sid s .takeFrame) ↔ Heard s .takeFrame := by
  rw [step, Heard]
  split
  · rename_i frame outbound hidle houtbound
    have hroom : ¬(Writer.writing frame = .ended ∨ outboundCapacity ≤ outbound.length + 0) := by
      rw [Bounded, houtbound, List.length_cons] at hbounded
      rintro (hended | hfull)
      · cases hended
      · omega
    have hgone : Gone { s with writer := .writing frame, outbound } ↔ Gone s := by
      rw [Gone, Gone, hidle]
      exact or_congr_right (or_congr ⟨nofun, nofun⟩ ⟨nofun, nofun⟩)
    have hleaves : StillLeaves { s with writer := .writing frame, outbound } 0 s.hooks s.ptyData ↔
        s.ptyExit ≠ none ∨ s.shutdown ≠ none := by
      rw [StillLeaves]
      exact or_congr_right ⟨fun hout => hout.elim id fun hfull => absurd hfull.1 hroom, .inl⟩
    rw [noticed_iff, hgone, hleaves, houtbound]
    exact ⟨fun h' _ _ => h', fun h' => h' hidle (List.cons_ne_nil frame outbound)⟩
  · rename_i hother
    refine ⟨fun _ hidle houtbound => ?_, fun _ => h⟩
    obtain ⟨frame, outbound, hcons⟩ := List.exists_cons_of_ne_nil houtbound
    exact absurd hcons (hother frame outbound hidle)

/-- A writer that is done with a frame is not gone by that. -/
theorem Noticed.finishes (h : Noticed sid s) {frame : Frame} (hwriting : s.writer = .writing frame)
    {writer : Writer} (hwriter : writer = .idle ∨ writer = .failed) :
    Noticed sid { s with writer } := by
  refine h.keep (fun hgone => hgone.imp id fun hended => ?_) (fun hin => ⟨hin, id⟩) fun hout => ?_
  · rcases hwriter with rfl | rfl
    · exact hended.elim nofun nofun
    · exact hended.elim nofun nofun
  · refine hout.mono id id (fun hroom => ?_) id id
    rw [hwriting] at hroom
    exact .inr (hroom.resolve_left nofun)

/-- What arrives for the loop takes no way out. -/
theorem Noticed.arrives (h : Noticed sid s) {e : Event}
    (he : (∃ event, e = .hookArrives event) ∨ (∃ chunk, e = .chunkArrives chunk) ∨
      (∃ code, e = .exitArrives code) ∨ ∃ code, e = .signalArrives code) :
    Noticed sid (step sid s e) := by
  rcases he with ⟨event, rfl⟩ | ⟨chunk, rfl⟩ | ⟨code, rfl⟩ | ⟨code, rfl⟩
  · refine h.keep id (fun hin => ⟨hin, id⟩) fun hout => ?_
    exact hout.mono id id id id fun hnamed => named_append hnamed event
  · rw [step]
    split
    · refine h.keep id (fun hin => ⟨hin, id⟩) fun hout => ?_
      exact hout.mono id id id (fun _ => List.append_ne_nil_of_right_ne_nil _ nofun) id
    · exact h
  · refine h.keep id (fun hin => ⟨hin, id⟩) fun hout => hout.mono (fun hexit => ?_) id id id id
    rw [step, Option.or_of_isSome (Option.isSome_iff_ne_none.mpr hexit)]
    exact hexit
  · refine h.keep id (fun hin => ⟨hin, id⟩) fun hout => hout.mono id (fun hsignal => ?_) id id id
    rw [step, Option.or_of_isSome (Option.isSome_iff_ne_none.mpr hsignal)]
    exact hsignal

/-- A step keeps the end of the connection noticed exactly when it does not lose the
wake-up. -/
theorem noticed_step_iff (s : System) (e : Event) (hbounded : Bounded s) (h : Noticed sid s) :
    Noticed sid (step sid s e) ↔ Heard s e := by
  cases e with
  | readerNotifies =>
    rw [step, Heard]
    split
    · rename_i hreading
      refine Iff.trans (noticed_notify (s := s) (.inl ?_) rfl Iff.rfl) ?_
      · exact Reader.noConfusion
      · exact ⟨fun h' _ => h', fun h' => h' hreading⟩
    · rename_i hother
      exact ⟨fun _ hreading => absurd hreading hother, fun _ => h⟩
  | writerNotifies =>
    rw [step, Heard]
    split
    · rename_i hfailed
      have hleaves : StillLeaves { s with writer := .notified, phase := s.phase.notifyWaiters } 0
          s.hooks s.ptyData ↔ StillLeaves s 0 s.hooks s.ptyData := by
        rw [StillLeaves, StillLeaves, hfailed]
        simp only [reduceCtorEq, false_or]
      refine Iff.trans (noticed_notify (s := s) (.inr (.inl rfl)) rfl hleaves) ?_
      exact ⟨fun h' _ => h', fun h' => h' hfailed⟩
    · rename_i hother
      exact ⟨fun _ hfailed => absurd hfailed hother, fun _ => h⟩
  | takeFrame => exact noticed_takeFrame_iff hbounded h
  | select branch =>
    rw [step]
    split
    · rename_i hin
      exact noticed_take_iff h hin branch
    · rename_i hleft
      refine ⟨fun _ => ?_, fun _ => h⟩
      cases branch with
      | inbound => exact fun _ hin => absurd hin hleft
      | hook ts => exact fun _ hin => absurd hin hleft
      | data ts => exact fun _ hin => absurd hin hleft
      | exit => trivial
      | closed => trivial
      | shutdown => trivial
  | receive msg =>
    refine ⟨fun _ => trivial, fun _ => ?_⟩
    rw [step]
    split
    · exact h.keep id (fun hin => ⟨hin, id⟩) id
    · exact h
  | readerDrops =>
    refine ⟨fun _ => trivial, fun _ => ?_⟩
    rw [step]
    split
    · rename_i hnotified
      refine h.keep (fun _ => .inl ?_) (fun hin => ⟨hin, id⟩) id
      rw [hnotified]
      nofun
    · exact h
  | write =>
    refine ⟨fun _ => trivial, fun _ => ?_⟩
    rw [step]
    split
    · rename_i frame hwriting
      exact h.finishes hwriting (.inl rfl)
    · exact h
  | writeFails =>
    refine ⟨fun _ => trivial, fun _ => ?_⟩
    rw [step]
    split
    · rename_i frame hwriting
      exact h.finishes hwriting (.inr rfl)
    · exact h
  | writerDrops =>
    refine ⟨fun _ => trivial, fun _ => ?_⟩
    rw [step]
    split
    · rename_i hnotified
      refine h.keep (fun _ => .inr (.inl hnotified)) (fun hin => ⟨hin, id⟩) fun hout => ?_
      exact hout.mono id id (fun _ => .inl rfl) id id
    · exact h
  | hookArrives event => exact ⟨fun _ => trivial, fun _ => h.arrives (.inl ⟨event, rfl⟩)⟩
  | chunkArrives chunk => exact ⟨fun _ => trivial, fun _ => h.arrives (.inr (.inl ⟨chunk, rfl⟩))⟩
  | exitArrives code =>
    exact ⟨fun _ => trivial, fun _ => h.arrives (.inr (.inr (.inl ⟨code, rfl⟩)))⟩
  | signalArrives code =>
    exact ⟨fun _ => trivial, fun _ => h.arrives (.inr (.inr (.inr ⟨code, rfl⟩)))⟩
  | park =>
    refine ⟨fun _ => trivial, fun _ => ?_⟩
    rw [step]
    split
    · rename_i htop
      refine h.keep id (fun _ => ?_) id
      rw [htop]
      exact ⟨rfl, nofun⟩
    · exact h
  | drain ts =>
    refine ⟨fun _ => trivial, fun _ => ?_⟩
    rw [step]
    split
    · rename_i code hdraining
      split
      · exact noticed_of_left rfl
      · split
        · exact noticed_of_left (by rw [hdraining]; rfl)
        · exact noticed_of_left rfl
    · exact h

end Steps

section Results

/-- At every moment of a run in which the connection is gone, a loop that has not left
has a branch ready that leaves it or a wake-up pending, exactly when no step of the run
loses the wake-up. -/
theorem close_noticed_iff_heard (sid : String) (hello : Frame) (events : List Event) :
    (∀ before, before <+: events → Noticed sid (runFrom (step sid) (System.start hello) before)) ↔
      Meets (step sid) Heard (System.start hello) events := by
  have hbounded : Bounded (System.start hello) := by
    rw [Bounded, System.start, outboundCapacity]
    exact Nat.succ_le_succ (Nat.zero_le 4095)
  have hnoticed : Noticed sid (System.start hello) := by
    rintro (hreader | hwriter | hwriter)
    · exact absurd rfl hreader
    · cases hwriter
    · cases hwriter
  exact forall_prefix_iff_meets bounded_step noticed_step_iff hbounded hnoticed events

/-- The reader meets the end of the connection while the loop waits, and the loop looks
at the closed inbound channel before it looks at its wake-up. -/
def spinningRun : List Event := [.park, .readerNotifies, .readerDrops, .select .inbound]

/-- The wake-up is lost. -/
theorem close_not_noticed :
    ¬∀ sid hello events, Noticed sid (runFrom (step sid) (System.start hello) events) := by
  intro h
  have hnoticed := h "s1" (.hello "s1" "/work" none 7) spinningRun
  rw [noticed_iff] at hnoticed
  rcases hnoticed (.inl (by decide)) rfl with hwoken | hexit | hsignal | ⟨hended | hfull, -⟩
  · cases hwoken
  · exact hexit rfl
  · exact hsignal rfl
  · cases hended
  · exact absurd hfull (by decide)

end Results

end Teleprompter.RunnerClose
