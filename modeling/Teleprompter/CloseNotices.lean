import Teleprompter.BiasedWriter
import Teleprompter.RelayConn

/-!
# The notice before a close

A connection that is rejected gets an error through its outbox and then a close
directive through a channel of its own. The write task looks at the directives
first. The read loop, the write task and the tasks that deliver other messages or
force a close run side by side.
-/

namespace Teleprompter.CloseNotices

open FiniteDictionary StepRuns RelayServer RelayConn BiasedWriter

section Model

/-- Code and reason of a close directive. -/
abbrev Directive := ℕ × String

/-- Why the relay closes a connection after it sent an error. -/
inductive Reject where
  | frameTooLarge (size : ℕ)
  | missingFrontendId
  deriving DecidableEq

/-- What the dispatch of the rejected frame asks for. -/
def Reject.outcome (env : RelayEnv) (connId : ConnId) : Reject → DispatchOutcome
  | .frameTooLarge size =>
    ⟨[.send connId (.err "FRAME_TOO_LARGE" (some ("Frame size " ++ toString size ++
      " exceeds limit of " ++ toString env.maxFrameSize ++ " bytes")) none)],
      some (1009, "Frame too large")⟩
  | .missingFrontendId =>
    rejectAuth connId "frontendId is required for role=frontend" .frontend none

/-- Steps of the read loop. -/
inductive LoopStep where
  | trySend (msg : RelayServerMessage)
  /-- A forced close takes the handle out of the table, with its close sender. -/
  | takeHandle (directive : Directive)
  /-- Connections whose outbox was full are closed at the end of a delivery. -/
  | closeFull
  | direct (directive : Directive)
  | dropCloseSender
  | removeHandle
  deriving DecidableEq

/-- A delivery of actions to the own connection. -/
def deliverySteps (actions : List Action) : List LoopStep :=
  actions.map (fun action => match action with
    | .send _ msg => .trySend msg
    | .close _ code reason => .takeHandle (code, reason)) ++ [.closeFull]

/-- What the read loop does about the outcome of a dispatch: it delivers the actions,
and a close makes it leave. -/
def loopSteps (outcome : DispatchOutcome) : List LoopStep :=
  deliverySteps outcome.actions ++
    match outcome.close with
    | some directive => [.direct directive, .dropCloseSender, .removeHandle]
    | none => []

/-- A moment at which a directive is queued after a notice. -/
structure Moment where
  /-- The write task before the directive. -/
  writer : BiasedWriter.Writer RelayServerMessage Directive
  directive : Directive

/-- One connection with its tasks. -/
structure Conn where
  /-- What the read loop does before it reads again. -/
  loop : List LoopStep
  /-- The error of the current frame was put into the outbox. -/
  noticed : Bool
  /-- The outbox was full during the current delivery. -/
  full : Bool
  /-- The handle is in the table. -/
  registered : Bool
  /-- The read loop holds its close sender. -/
  loopHolds : Bool
  /-- Directives that other tasks are about to queue. -/
  forced : List Directive
  writer : BiasedWriter.Writer RelayServerMessage Directive
  /-- The last moment at which the read loop queued a directive after a notice. -/
  moment : Option Moment

/-- A connection that was just accepted. -/
def Conn.new : Conn := ⟨[], false, false, true, true, [], .new, none⟩

/-- Room of the channel for close directives. -/
def closeCapacity : ℕ := 4

/-- Someone can still queue a directive. -/
def Conn.closeOpen (s : Conn) : Bool := s.registered || s.loopHolds || !s.forced.isEmpty

/-- The outbox can be found and its receiver is alive. -/
def Conn.reachable (s : Conn) : Bool := s.registered && s.writer.phase != .ended

/-- A message is put into the outbox. -/
def Conn.enqueue (s : Conn) (msg : RelayServerMessage) : Conn :=
  { s with writer := { s.writer with queue := s.writer.queue ++ [msg] } }

/-- A directive is queued. -/
def Conn.queueDirective (s : Conn) (directive : Directive) : Conn :=
  { s with writer := { s.writer with control := s.writer.control ++ [directive] } }

/-- The directive channel takes no more. -/
def Conn.blocked (s : Conn) : Prop := closeCapacity ≤ s.writer.control.length

instance (s : Conn) : Decidable s.blocked := inferInstanceAs (Decidable (_ ≤ _))

/-- The next step of the read loop. -/
def Conn.loopNext (cap : ℕ) (s : Conn) : Conn :=
  match s.loop with
  | [] => s
  | .trySend msg :: loop =>
    if s.reachable then
      if s.writer.queue.length < cap then { s.enqueue msg with loop, noticed := true }
      else { s with loop, full := true }
    else { s with loop }
  | .takeHandle directive :: loop =>
    if s.registered then { s with loop := .direct directive :: loop, registered := false }
    else { s with loop }
  | .closeFull :: loop =>
    { s with loop := if s.full then .takeHandle (1013, "Backpressure") :: loop else loop }
  | .direct directive :: loop =>
    if s.writer.phase = .ended then { s with loop }
    else if s.blocked then s
    else { s.queueDirective directive with
      loop
      moment := if s.noticed then some ⟨s.writer, directive⟩ else s.moment }
  | .dropCloseSender :: loop => { s with loop, loopHolds := false }
  | .removeHandle :: loop => { s with loop, registered := false }

/-- What can happen to a connection. -/
inductive ConnEvent where
  /-- The read loop meets a frame that it rejects. -/
  | reject (r : Reject)
  /-- The read loop ends by itself. -/
  | leave
  | loop
  /-- Another task puts a message into the outbox. -/
  | send (msg : RelayServerMessage)
  /-- Another task forces a close: it takes the handle out, and queues its directive. -/
  | force (directive : Directive)
  | queueForced
  | writer (e : WriterStep)

/-- One step. -/
def step (env : RelayEnv) (connId : ConnId) (cap : ℕ) (s : Conn) : ConnEvent → Conn
  | .reject r =>
    if s.loop = [] ∧ s.loopHolds then
      { s with loop := loopSteps (r.outcome env connId), noticed := false, full := false }
    else s
  | .leave =>
    if s.loop = [] ∧ s.loopHolds then { s with loop := [.dropCloseSender, .removeHandle] } else s
  | .loop => s.loopNext cap
  | .send msg =>
    if s.reachable ∧ s.writer.queue.length < cap then s.enqueue msg else s
  | .force directive =>
    if s.registered then { s with registered := false, forced := s.forced ++ [directive] } else s
  | .queueForced =>
    match s.forced with
    | [] => s
    | directive :: forced =>
      if s.writer.phase = .ended then { s with forced }
      else if s.blocked then s
      else { s.queueDirective directive with forced }
  | .writer e => { s with writer := s.writer.next s.closeOpen s.registered e }

end Model

section Promise

/-- The write task writes what was unwritten when the directive was queued, and then
closes with the code and reason of that directive. -/
def NoticeFirst (s : Conn) : Prop :=
  ∀ m, s.moment = some m → StopsAfter m.writer m.directive s.writer

/-- The read loop queues its directive when the outbox is empty, and no other directive
is under way. -/
def Drained (s : Conn) : ConnEvent → Prop
  | .loop => ∀ directive loop, s.loop = .direct directive :: loop → s.noticed → ¬s.blocked →
    s.writer.phase ≠ .ended → s.writer.queue = [] ∧
      (s.writer.nextStop = none ∨ s.writer.nextStop = some directive)
  | _ => True

/-- The write task was told to stop since the moment. -/
def Told (s : Conn) : Prop := ∀ m, s.moment = some m → ToldSince m.writer s.writer

/-- The write task keeps the promise of the moment. -/
def Kept (s : Conn) : Prop := ∀ m, s.moment = some m → Keeps m.writer m.directive s.writer

variable {env : RelayEnv} {connId : ConnId} {cap : ℕ} {s s' : Conn}

/-- A step that leaves the write task alone, or puts something behind what is in its channels. -/
structure Behind (s s' : Conn) : Prop where
  moment : s'.moment = s.moment
  written : s'.writer.written = s.writer.written
  phase : s'.writer.phase = s.writer.phase
  nextStop : ∀ c, s.writer.nextStop = some c → s'.writer.nextStop = some c

theorem behind_of_eq (hmoment : s'.moment = s.moment) (hwriter : s'.writer = s.writer) :
    Behind s s' :=
  ⟨hmoment, hwriter ▸ rfl, hwriter ▸ rfl, fun _ hnext => hwriter ▸ hnext⟩

theorem behind_enqueue {msg : RelayServerMessage} (hmoment : s'.moment = s.moment)
    (hwriter : s'.writer = (s.enqueue msg).writer) : Behind s s' := by
  refine ⟨hmoment, hwriter ▸ rfl, hwriter ▸ rfl, fun c hnext => ?_⟩
  rw [hwriter, Conn.enqueue, nextStop_queue]
  exact hnext

theorem behind_queueDirective {directive : Directive} (hmoment : s'.moment = s.moment)
    (hwriter : s'.writer = (s.queueDirective directive).writer) : Behind s s' := by
  refine ⟨hmoment, hwriter ▸ rfl, hwriter ▸ rfl, fun c hnext => ?_⟩
  rw [hwriter, Conn.queueDirective]
  exact nextStop_control s.writer directive c hnext

theorem Told.behind (h : Told s) (hbehind : Behind s s') : Told s' := fun m hm =>
  (h m (hbehind.moment ▸ hm)).of_same hbehind.written hbehind.phase hbehind.nextStop

theorem Kept.behind (h : Kept s) (hbehind : Behind s s') : Kept s' := fun m hm =>
  (h m (hbehind.moment ▸ hm)).of_same hbehind.written hbehind.phase hbehind.nextStop

/-- A step of the read loop puts things behind, or queues the directive of a notice. -/
theorem loopNext_cases (cap : ℕ) (s : Conn) :
    (Behind s (s.loopNext cap) ∧ ∀ directive loop, s.loop = .direct directive :: loop →
      s.noticed → ¬s.blocked → s.writer.phase = .ended) ∨
    ∃ directive loop, s.loop = .direct directive :: loop ∧ s.noticed ∧ ¬s.blocked ∧
      s.writer.phase ≠ .ended ∧ (s.loopNext cap).moment = some ⟨s.writer, directive⟩ ∧
      (s.loopNext cap).writer = { s.writer with control := s.writer.control ++ [directive] } := by
  rcases hloop : s.loop with _ | ⟨first, loop⟩
  · refine .inl ⟨behind_of_eq ?_ ?_, fun _ _ h => by cases h⟩
    · rw [Conn.loopNext, hloop]
    · rw [Conn.loopNext, hloop]
  · rw [Conn.loopNext, hloop]
    cases first with
    | direct directive =>
      dsimp only
      by_cases hended : s.writer.phase = .ended
      · rw [if_pos hended]
        exact .inl ⟨behind_of_eq rfl rfl, fun _ _ _ _ _ => hended⟩
      · rw [if_neg hended]
        by_cases hblocked : s.blocked
        · rw [if_pos hblocked]
          exact .inl ⟨behind_of_eq rfl rfl, fun _ _ _ _ hfree => absurd hblocked hfree⟩
        · rw [if_neg hblocked]
          cases hnoticed : s.noticed with
          | true => exact .inr ⟨directive, loop, rfl, rfl, hblocked, hended, rfl, rfl⟩
          | false => exact .inl ⟨behind_queueDirective rfl rfl, fun _ _ _ h => by cases h⟩
    | trySend msg =>
      refine .inl ⟨?_, fun _ _ h => by cases h⟩
      dsimp only
      split
      · split
        · exact behind_enqueue rfl rfl
        · exact behind_of_eq rfl rfl
      · exact behind_of_eq rfl rfl
    | takeHandle directive =>
      refine .inl ⟨?_, fun _ _ h => by cases h⟩
      dsimp only
      split <;> exact behind_of_eq rfl rfl
    | closeFull => exact .inl ⟨behind_of_eq rfl rfl, fun _ _ h => by cases h⟩
    | dropCloseSender => exact .inl ⟨behind_of_eq rfl rfl, fun _ _ h => by cases h⟩
    | removeHandle => exact .inl ⟨behind_of_eq rfl rfl, fun _ _ h => by cases h⟩

/-- Every step but those of the read loop and of the write task puts things behind. -/
theorem behind_step (env : RelayEnv) (connId : ConnId) (cap : ℕ) (s : Conn) {e : ConnEvent}
    (hloop : e ≠ .loop) (hwriter : ∀ w, e ≠ .writer w) : Behind s (step env connId cap s e) := by
  cases e with
  | loop => exact absurd rfl hloop
  | writer w => exact absurd rfl (hwriter w)
  | reject r =>
    rw [step]
    split <;> exact behind_of_eq rfl rfl
  | leave =>
    rw [step]
    split <;> exact behind_of_eq rfl rfl
  | send msg =>
    rw [step]
    split
    · exact behind_enqueue rfl rfl
    · exact behind_of_eq rfl rfl
  | force directive =>
    rw [step]
    split <;> exact behind_of_eq rfl rfl
  | queueForced =>
    rw [step]
    split
    · exact behind_of_eq rfl rfl
    · split
      · exact behind_of_eq rfl rfl
      · split
        · exact behind_of_eq rfl rfl
        · exact behind_queueDirective rfl rfl

theorem told_step (s : Conn) (e : ConnEvent) (h : Told s) : Told (step env connId cap s e) := by
  by_cases hloop : e = .loop
  · subst hloop
    rcases loopNext_cases cap s with ⟨hbehind, -⟩ | ⟨directive, loop, -, -, -, -, hmoment, hwriter⟩
    · exact h.behind hbehind
    · intro m hm
      rw [step, hmoment, Option.some_inj] at hm
      rw [← hm, step, hwriter]
      exact toldSince_control s.writer directive
  · by_cases hwriter : ∃ w, e = .writer w
    · obtain ⟨w, rfl⟩ := hwriter
      intro m hm
      exact (h m hm).next s.closeOpen s.registered w
    · exact h.behind (behind_step env connId cap s hloop fun w he => hwriter ⟨w, he⟩)

/-- A step keeps the promises exactly when a directive behind a notice meets an empty outbox. -/
theorem kept_step_iff (s : Conn) (e : ConnEvent) (htold : Told s) (h : Kept s) :
    Kept (step env connId cap s e) ↔ Drained s e := by
  by_cases hloop : e = .loop
  · subst hloop
    rcases loopNext_cases cap s with ⟨hbehind, hquiet⟩ |
      ⟨directive, loop, hdirect, hnoticed, hfree, hended, hmoment, hwriter⟩
    · refine ⟨fun _ directive loop hdirect hnoticed hfree hended => ?_, fun _ => h.behind hbehind⟩
      exact absurd (hquiet directive loop hdirect hnoticed hfree) hended
    · have hkeeps := keeps_control_iff s.writer directive
      constructor
      · intro hkept directive' loop' hdirect' _ _ _
        rw [hdirect, List.cons.injEq, LoopStep.direct.injEq] at hdirect'
        have hnow := hkept ⟨s.writer, directive⟩ hmoment
        rw [step, hwriter, hkeeps] at hnow
        exact hdirect'.1 ▸ hnow hended
      · intro hdrained m hm
        rw [step, hmoment, Option.some_inj] at hm
        rw [← hm, step, hwriter, hkeeps]
        exact fun _ => hdrained directive loop hdirect hnoticed hfree hended
  · by_cases hwriter : ∃ w, e = .writer w
    · obtain ⟨w, rfl⟩ := hwriter
      refine ⟨fun _ => trivial, fun _ m hm => ?_⟩
      exact (h m hm).next (htold m hm) s.closeOpen s.registered w
    · have hkept := h.behind (behind_step env connId cap s hloop fun w he => hwriter ⟨w, he⟩)
      cases e with
      | loop => exact absurd rfl hloop
      | _ => exact ⟨fun _ => trivial, fun _ => hkept⟩

/-- The write task's own steps change nothing around it. -/
theorem runFrom_writer (steps : List WriterStep) (s : Conn) :
    runFrom (step env connId cap) s (steps.map .writer) =
      { s with writer := runFrom (BiasedWriter.Writer.next s.closeOpen s.registered) s.writer steps } := by
  induction steps generalizing s with
  | nil => rfl
  | cons e steps ih => exact ih _

/-- Every schedule of the write task puts the notice first, exactly when the promises are kept. -/
theorem noticeFirst_iff_kept (htold : Told s) :
    (∀ steps : List WriterStep,
      NoticeFirst (runFrom (step env connId cap) s (steps.map .writer))) ↔ Kept s := by
  simp only [runFrom_writer]
  constructor
  · intro h m hm
    exact (keeps_iff_schedules (htold m hm) s.closeOpen s.registered).mp fun steps => h steps m hm
  · intro h steps m hm
    exact (keeps_iff_schedules (htold m hm) s.closeOpen s.registered).mpr (h m hm) steps

/-- At every moment of a run and under every schedule of the write task from there, what
was unwritten when a directive was queued behind a notice is written before a close with
the intended code, exactly when every such directive of the run meets an empty outbox. -/
theorem notice_first_iff_drained (env : RelayEnv) (connId : ConnId) (cap : ℕ)
    (events : List ConnEvent) :
    (∀ before, before <+: events → ∀ steps : List WriterStep,
      NoticeFirst (runFrom (step env connId cap) Conn.new (before ++ steps.map .writer))) ↔
      Meets (step env connId cap) Drained Conn.new events := by
  have htold : Told Conn.new := fun m hm => by cases hm
  have hkept : Kept Conn.new := fun m hm => by cases hm
  rw [← forall_prefix_iff_meets told_step kept_step_iff htold hkept events]
  refine forall₂_congr fun before _ => ?_
  have hbefore : Told (runFrom (step env connId cap) Conn.new before) :=
    runFrom_induction told_step htold before
  simp only [runFrom_append]
  exact noticeFirst_iff_kept hbefore

/-- The write task is polled for the first time when error and directive are both queued. -/
def overtakenRun : List ConnEvent :=
  [.reject (.frameTooLarge 2000000), .loop, .loop, .loop, .writer .poll, .writer (.stopped true)]

/-- The close overtakes the error: only the close is written. -/
theorem close_overtakes_notice :
    ¬∀ env connId cap events,
      NoticeFirst (runFrom (step env connId cap) Conn.new events) := by
  intro h
  have hfirst := h plainEnv 1 64 overtakenRun _ rfl [] (1009, "Frame too large") [] rfl
  have hlength := hfirst.2.length_le
  exact absurd hlength (by decide)

end Promise

end Teleprompter.CloseNotices
