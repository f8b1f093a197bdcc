import Teleprompter.SessionRecords
import Teleprompter.StepRuns
import Mathlib.Data.List.Infix
import Mathlib.Data.Rat.Defs

/-!
# The last output of a runner

A reader thread takes chunks from the terminal and queues them, a waiter thread
waits for the child and passes its exit code on, and the runner's loop sends what
it finds to the daemon. The waiter meets the reader before it passes the code on,
and the loop empties the queue when it finds the code. Together they put every chunk
in front of the goodbye.
-/

namespace Teleprompter.RunnerOutput

open StepRuns
open SessionRecords (Octets)

section Model

/-- What the runner is started with. -/
structure Runner where
  sid : String
  cwd : String
  worktreePath : Option String
  pid : ℕ

/-- Why a session stopped. -/
inductive ByeReason where
  | exit
  | signal
  deriving DecidableEq

/-- A record of the session. -/
structure RecMsg where
  sid : String
  kind : String
  ts : ℚ
  ns : Option String
  name : Option String
  payload : String
  deriving DecidableEq

/-- What the runner sends to the daemon. -/
inductive Frame where
  | hello (sid cwd : String) (worktreePath : Option String) (pid : ℕ)
  | record (msg : RecMsg) (binary : Option Octets)
  | bye (sid : String) (exitCode : ℤ) (pid : ℕ) (reason : ByeReason)
  deriving DecidableEq

/-- A hook event: its name, if it has one, and its JSON text in base64. -/
structure HookEvent where
  hookEventName : Option String
  encoded : String
  deriving DecidableEq

/-- Terminal output travels beside an empty payload. -/
def ioRecord (sid : String) (data : Octets) (ts : ℚ) : Frame :=
  .record ⟨sid, "io", ts, none, none, ""⟩ (some data)

/-- A hook event without a name has no record. -/
def eventRecord (sid : String) (event : HookEvent) (ts : ℚ) : Option Frame :=
  event.hookEventName.map fun name =>
    .record ⟨sid, "event", ts, some "claude", some name, event.encoded⟩ none

/-- The exit code of a child; a child that cannot be waited for has minus one. -/
def exitCode : Option ℕ → ℤ
  | some status => (BitVec.ofNat 32 status).toInt
  | none => -1

/-- The reader thread. -/
inductive Reader where
  | reading
  | holding (chunk : Octets)
  /-- Everything was read and the waiter is to be told. -/
  | signalling
  | ended
  deriving DecidableEq

/-- The waiter thread. -/
inductive Waiter where
  | waiting
  | reaped (code : ℤ)
  /-- The child is marked as gone and the reader gets time to finish. -/
  | grace (code : ℤ)
  | notifying (code : ℤ)
  | ended (code : ℤ)
  deriving DecidableEq

/-- The loop of the runner. -/
inductive Phase where
  | running
  | draining (code : ℤ)
  | stopped (code : ℤ) (reason : ByeReason)
  /-- The goodbye was sent. -/
  | done
  deriving DecidableEq

/-- The threads, the loop and what they share. -/
structure System where
  reader : Reader
  waiter : Waiter
  phase : Phase
  /-- The child is known to be gone. -/
  exited : Bool
  ptyData : List Octets
  ptyExit : Option ℤ
  hooks : List HookEvent
  outbound : List Frame
  /-- What the socket took. -/
  written : List Frame
  /-- Every chunk that was read. -/
  read : List Octets
  /-- Every frame that was taken for the daemon. -/
  sent : List Frame

/-- Chunks that wait for the loop. -/
def ptyCapacity : ℕ := 1024

/-- Frames that wait for the socket. -/
def outboundCapacity : ℕ := 4096

/-- The hello is sent before the threads start. -/
def System.start (runner : Runner) : System :=
  let hello := Frame.hello runner.sid runner.cwd runner.worktreePath runner.pid
  ⟨.reading, .waiting, .running, false, [], none, [], [hello], [], [], [hello]⟩

/-- One step of a party. A step whose party is elsewhere changes nothing. -/
inductive Event where
  | readChunk (chunk : Octets)
  /-- End of file or an error. -/
  | readEnd
  | onData
  | childExits (status : Option ℕ)
  | markExited
  | rendezvous
  | graceTimeout
  /-- The waiter is gone and takes no signal. -/
  | signalFails
  | onExit
  | inbound
  | hookArrives (event : HookEvent)
  | hook (ts : ℚ)
  | data (ts : ℚ)
  | exit
  | drain (ts : ℚ)
  | closed
  | shutdown (code : ℤ)
  | bye
  | write
  /-- The runtime ends and drops what was not written. -/
  | unwind

/-- Queue a frame for the socket, unless the queue is full. -/
def System.send (s : System) (frame : Frame) : System × Bool :=
  if s.outbound.length < outboundCapacity then
    ({ s with outbound := s.outbound ++ [frame], sent := s.sent ++ [frame] }, true)
  else (s, false)

/-- Send a record in the loop; the loop stops when the queue is full. -/
def System.sendRecord (s : System) (frame : Frame) : System :=
  if (s.send frame).2 then (s.send frame).1 else { s with phase := .stopped (-1) .signal }

/-- One step. -/
def step (runner : Runner) (s : System) : Event → System
  | .readChunk chunk =>
    if s.reader = .reading then { s with reader := .holding chunk, read := s.read ++ [chunk] } else s
  | .readEnd => if s.reader = .reading then { s with reader := .signalling } else s
  | .onData =>
    match s.reader with
    | .holding chunk =>
      if s.ptyData.length < ptyCapacity then
        { s with reader := .reading, ptyData := s.ptyData ++ [chunk] }
      else { s with reader := .reading }
    | _ => s
  | .childExits status =>
    if s.waiter = .waiting then { s with waiter := .reaped (exitCode status) } else s
  | .markExited =>
    match s.waiter with
    | .reaped code => { s with waiter := .grace code, exited := true }
    | _ => s
  | .rendezvous =>
    match s.waiter, s.reader with
    | .grace code, .signalling => { s with waiter := .notifying code, reader := .ended }
    | _, _ => s
  | .graceTimeout =>
    match s.waiter with
    | .grace code => { s with waiter := .notifying code }
    | _ => s
  | .signalFails =>
    match s.waiter, s.reader with
    | .ended _, .signalling => { s with reader := .ended }
    | _, _ => s
  | .onExit =>
    match s.waiter with
    | .notifying code => { s with waiter := .ended code, ptyExit := s.ptyExit.or (some code) }
    | _ => s
  | .inbound => s
  | .hookArrives event => { s with hooks := s.hooks ++ [event] }
  | .hook ts =>
    if s.phase = .running then
      match s.hooks with
      | [] => s
      | event :: hooks =>
        match eventRecord runner.sid event ts with
        | some frame => { s with hooks }.sendRecord frame
        | none => { s with hooks }
    else s
  | .data ts =>
    if s.phase = .running then
      match s.ptyData with
      | [] => s
      | chunk :: ptyData => { s with ptyData }.sendRecord (ioRecord runner.sid chunk ts)
    else s
  | .exit =>
    if s.phase = .running then
      match s.ptyExit with
      | some code => { s with phase := .draining code, ptyExit := none }
      | none => s
    else s
  | .drain ts =>
    match s.phase with
    | .draining code =>
      match s.ptyData with
      | [] => { s with phase := .stopped code .exit }
      | chunk :: ptyData =>
        let sending := { s with ptyData }.send (ioRecord runner.sid chunk ts)
        if sending.2 then sending.1 else { sending.1 with phase := .stopped code .exit }
    | _ => s
  | .closed => if s.phase = .running then { s with phase := .stopped (-1) .signal } else s
  | .shutdown code => if s.phase = .running then { s with phase := .stopped code .signal } else s
  | .bye =>
    match s.phase with
    | .stopped code reason =>
      { (s.send (.bye runner.sid code runner.pid reason)).1 with phase := .done }
    | _ => s
  | .write =>
    match s.outbound with
    | [] => s
    | frame :: outbound => { s with outbound, written := s.written ++ [frame] }
  | .unwind => if s.phase = .done then { s with outbound := [] } else s

end Model

section Statement

/-- The chunk that a frame carries. -/
def Frame.chunk : Frame → Option Octets
  | .record msg binary => if msg.kind = "io" then binary else none
  | _ => none

/-- The chunks that frames carry, in order. -/
def chunks (frames : List Frame) : List Octets := frames.filterMap Frame.chunk

/-- There is room for a frame. -/
def Room (s : System) : Prop := s.outbound.length < outboundCapacity

instance (s : System) : Decidable (Room s) := inferInstanceAs (Decidable (_ < _))

/-- A step of a session that ends with its child: no signal arrives and the
connection stays, the reader ends within the grace, and what is queued finds room. -/
def Calm (s : System) : Event → Prop
  | .onData =>
    match s.reader with
    | .holding _ => s.ptyData.length < ptyCapacity
    | _ => True
  | .graceTimeout =>
    match s.waiter with
    | .grace _ => False
    | _ => True
  | .hook _ => s.phase = .running → s.hooks.head?.bind HookEvent.hookEventName ≠ none → Room s
  | .data _ => s.phase = .running → s.ptyData ≠ [] → Room s
  | .drain _ =>
    match s.phase with
    | .draining _ => s.ptyData ≠ [] → Room s
    | _ => True
  | .closed => s.phase ≠ .running
  | .shutdown _ => s.phase ≠ .running
  | .bye =>
    match s.phase with
    | .stopped _ _ => Room s
    | _ => True
  | _ => True

/-- The frames sent so far carry the chunks read so far in their order, up to some
that are on the way; a goodbye is the last frame, carries the child's exit code, and
follows every chunk. The socket takes frames in the order in which they were sent. -/
def OutputBeforeBye (runner : Runner) (s : System) : Prop :=
  chunks s.sent <+: s.read ∧ s.written <+: s.sent ∧
    ∀ before sid code pid reason after, s.sent = before ++ Frame.bye sid code pid reason :: after →
      after = [] ∧ chunks before = s.read ∧ s.reader = .ended ∧ s.waiter = .ended code ∧
        sid = runner.sid ∧ pid = runner.pid ∧ reason = .exit

/-- Steps that a waiter still has to make. -/
def waiterRank : Waiter → ℕ
  | .waiting => 4
  | .reaped _ => 3
  | .grace _ => 2
  | .notifying _ => 1
  | .ended _ => 0

/-- Steps that the loop still has to make. -/
def phaseRank : Phase → ℕ
  | .running => 3
  | .draining _ => 2
  | .stopped _ _ => 1
  | .done => 0

/-- How far a session is from its goodbye: the steps of the waiter and the loop, what
the loop has to send, and the frames that wait. -/
def remaining (s : System) : ℕ :=
  2 * (waiterRank s.waiter + phaseRank s.phase + s.ptyData.length + s.hooks.length) +
    s.outbound.length

/-- The child is gone and everything was read. -/
def Ending (s : System) : Prop :=
  s.waiter ≠ .waiting ∧ (s.reader = .signalling ∨ s.reader = .ended)

/-- A session that is ending comes closer to its goodbye by some step, and by no
step but the arrival of a hook does it get farther away. -/
def ComesToBye (runner : Runner) (s : System) : Prop :=
  Ending s → s.phase ≠ .done →
    (∃ e, Calm s e ∧ remaining (step runner s e) < remaining s) ∧
      ∀ e, Calm s e → (∀ event, e ≠ .hookArrives event) →
        remaining (step runner s e) ≤ remaining s

end Statement

section Soundness

variable {runner : Runner} {s : System}

/-- The chunk in the reader's hands. -/
def held : Reader → List Octets
  | .holding chunk => [chunk]
  | .reading => []
  | .signalling => []
  | .ended => []

/-- None of the frames is a goodbye. -/
def NoBye (frames : List Frame) : Prop :=
  ∀ sid code pid reason, Frame.bye sid code pid reason ∉ frames

/-- What the loop has reached. -/
def PhaseSound (runner : Runner) (s : System) : Prop :=
  match s.phase with
  | .running => NoBye s.sent
  | .draining code => s.waiter = .ended code ∧ NoBye s.sent
  | .stopped code reason =>
    s.waiter = .ended code ∧ reason = .exit ∧ s.ptyData = [] ∧ NoBye s.sent
  | .done => ∃ before code, s.sent = before ++ [.bye runner.sid code runner.pid .exit] ∧
      NoBye before ∧ s.waiter = .ended code ∧ s.ptyData = []

/-- What holds in every state of a calm run. -/
structure Sound (runner : Runner) (s : System) : Prop where
  /-- Every chunk is sent, queued or in the reader's hands. -/
  output : s.read = chunks s.sent ++ s.ptyData ++ held s.reader
  socket : s.sent = s.written ++ s.outbound ∨
    s.phase = .done ∧ s.outbound = [] ∧ s.written <+: s.sent
  /-- The reader ends by meeting the waiter. -/
  met : s.reader = .ended → ∃ code, s.waiter = .notifying code ∨ s.waiter = .ended code
  /-- The waiter goes on by meeting the reader. -/
  told : ∀ code, s.waiter = .notifying code ∨ s.waiter = .ended code → s.reader = .ended
  code : ∀ code, s.ptyExit = some code → s.waiter = .ended code
  queued : ∀ code, s.waiter = .ended code → s.phase = .running → s.ptyExit = some code
  phase : PhaseSound runner s

/-- A frame that finds room is queued. -/
theorem send_of_room (hroom : Room s) (frame : Frame) :
    s.send frame = ({ s with outbound := s.outbound ++ [frame], sent := s.sent ++ [frame] }, true) :=
  if_pos hroom

theorem sendRecord_of_room (hroom : Room s) (frame : Frame) :
    s.sendRecord frame = { s with outbound := s.outbound ++ [frame], sent := s.sent ++ [frame] } := by
  rw [System.sendRecord, send_of_room hroom]
  rfl

/-- A queued chunk is sent before the loop stops. -/
theorem step_drain_cons {code : ℤ} (hdraining : s.phase = .draining code) {chunk : Octets}
    {ptyData : List Octets} (hdata : s.ptyData = chunk :: ptyData) (hroom : Room s) (ts : ℚ) :
    step runner s (.drain ts) =
      { s with
        ptyData
        outbound := s.outbound ++ [ioRecord runner.sid chunk ts]
        sent := s.sent ++ [ioRecord runner.sid chunk ts] } := by
  have hroom' : Room { s with ptyData } := hroom
  rw [step]
  split
  · split
    · rename_i hnil
      rw [hdata] at hnil
      cases hnil
    · rename_i hcons
      rw [hdata] at hcons
      cases hcons
      dsimp only
      rw [send_of_room hroom']
      rfl
  · rename_i hother
    exact absurd hdraining (hother code)

/-- The goodbye is sent when it finds room. -/
theorem step_bye {code : ℤ} {reason : ByeReason} (hstopped : s.phase = .stopped code reason)
    (hroom : Room s) :
    step runner s .bye =
      { s with
        phase := .done
        outbound := s.outbound ++ [.bye runner.sid code runner.pid reason]
        sent := s.sent ++ [.bye runner.sid code runner.pid reason] } := by
  rw [step]
  split
  · rename_i hstopped'
    rw [hstopped] at hstopped'
    cases hstopped'
    rw [send_of_room hroom]
  · rename_i hother
    exact absurd hstopped (hother code reason)

theorem noBye_concat_record {frames : List Frame} (h : NoBye frames) (msg : RecMsg)
    (binary : Option Octets) : NoBye (frames ++ [.record msg binary]) := by
  intro sid code pid reason hmem
  rcases List.mem_append.mp hmem with hold | hnew
  · exact h sid code pid reason hold
  · cases List.mem_singleton.mp hnew

theorem chunks_append (frames frames' : List Frame) :
    chunks (frames ++ frames') = chunks frames ++ chunks frames' :=
  List.filterMap_append

/-- The start is sound. -/
theorem sound_start (runner : Runner) : Sound runner (System.start runner) where
  output := rfl
  socket := .inl rfl
  met := fun h => by cases h
  told := fun code h => by rcases h with h | h <;> cases h
  code := fun code h => by cases h
  queued := fun code h => by cases h
  phase := fun sid code pid reason hmem => by cases List.mem_singleton.mp hmem

/-- While the loop runs, no goodbye was sent. -/
theorem phaseSound_running (hphase : s.phase = .running) : PhaseSound runner s ↔ NoBye s.sent := by
  rw [PhaseSound, hphase]

theorem phaseSound_draining {code : ℤ} (hphase : s.phase = .draining code) :
    PhaseSound runner s ↔ s.waiter = .ended code ∧ NoBye s.sent := by
  rw [PhaseSound, hphase]

theorem phaseSound_stopped {code : ℤ} {reason : ByeReason} (hphase : s.phase = .stopped code reason) :
    PhaseSound runner s ↔
      s.waiter = .ended code ∧ reason = .exit ∧ s.ptyData = [] ∧ NoBye s.sent := by
  rw [PhaseSound, hphase]

theorem phaseSound_done (hphase : s.phase = .done) :
    PhaseSound runner s ↔ ∃ before code, s.sent = before ++ [.bye runner.sid code runner.pid .exit] ∧
      NoBye before ∧ s.waiter = .ended code ∧ s.ptyData = [] := by
  rw [PhaseSound, hphase]

/-- While the loop runs, nothing else is asked of it. -/
theorem phaseSound_of_running (hphase : s.phase = .running) (hsent : NoBye s.sent) :
    PhaseSound runner s :=
  (phaseSound_running hphase).mpr hsent

theorem phaseSound_of_draining {code : ℤ} (hphase : s.phase = .draining code)
    (hended : s.waiter = .ended code) (hsent : NoBye s.sent) : PhaseSound runner s :=
  (phaseSound_draining hphase).mpr ⟨hended, hsent⟩

theorem Sound.noBye (h : Sound runner s) (hphase : s.phase = .running) : NoBye s.sent :=
  (phaseSound_running hphase).mp h.phase

/-- Until the waiter has passed the code on, the loop runs. -/
theorem Sound.running (h : Sound runner s) (hwaiter : ∀ code, s.waiter ≠ .ended code) :
    s.phase = .running := by
  have hphase := h.phase
  cases hp : s.phase with
  | running => rfl
  | draining code => exact absurd ((phaseSound_draining hp).mp hphase).1 (hwaiter code)
  | stopped code reason => exact absurd ((phaseSound_stopped hp).mp hphase).1 (hwaiter code)
  | done =>
    obtain ⟨before, code, -, -, hended, -⟩ := (phaseSound_done hp).mp hphase
    exact absurd hended (hwaiter code)

/-- While the reader is at work, the waiter has not passed the code on. -/
theorem Sound.not_ended (h : Sound runner s) (hreader : s.reader ≠ .ended) (code : ℤ) :
    s.waiter ≠ .ended code :=
  fun hended => hreader (h.told code (.inr hended))

/-- The waiter has not met a reader that is at work. -/
theorem Sound.told_of_ne (h : Sound runner s) (hreader : s.reader ≠ .ended) (reader : Reader)
    (code : ℤ) (hwaiter : s.waiter = .notifying code ∨ s.waiter = .ended code) : reader = .ended :=
  absurd (h.told code hwaiter) hreader

/-- The reader's own steps. -/
theorem Sound.reader_step (h : Sound runner s) {e : Event}
    (he : (∃ chunk, e = .readChunk chunk) ∨ e = .readEnd ∨ e = .onData) (hcalm : Calm s e) :
    Sound runner (step runner s e) := by
  rcases he with ⟨chunk, rfl⟩ | rfl | rfl
  · rw [step]
    split
    · rename_i hreading
      have hne : s.reader ≠ .ended := by rw [hreading]; exact Reader.noConfusion
      have houtput := h.output
      rw [hreading, held, List.append_nil] at houtput
      refine { h with output := ?_, met := fun hended => ?_, told := h.told_of_ne hne _ }
      · rw [houtput]
        rfl
      · cases hended
    · exact h
  · rw [step]
    split
    · rename_i hreading
      have hne : s.reader ≠ .ended := by rw [hreading]; exact Reader.noConfusion
      have houtput := h.output
      rw [hreading] at houtput
      refine { h with output := houtput, met := fun hended => ?_, told := h.told_of_ne hne _ }
      cases hended
    · exact h
  · rw [step]
    split
    · rename_i chunk hholding
      have hne : s.reader ≠ .ended := by rw [hholding]; exact Reader.noConfusion
      have hrunning := h.running (h.not_ended hne)
      rw [Calm, hholding] at hcalm
      have houtput := h.output
      rw [hholding, held] at houtput
      rw [if_pos hcalm]
      refine { h with output := ?_, met := fun hended => ?_, told := h.told_of_ne hne _, phase := ?_ }
      · rw [houtput]
        exact (List.append_assoc _ _ _).trans (List.append_nil _).symm
      · cases hended
      · exact phaseSound_of_running hrunning (h.noBye hrunning)
    · exact h

/-- The waiter has neither passed the code on nor is about to. -/
def Early (waiter : Waiter) : Prop := ∀ code, waiter ≠ .notifying code ∧ waiter ≠ .ended code

/-- The steps of a waiter that has not met the reader. -/
theorem Sound.early_step (h : Sound runner s) {waiter : Waiter} (hold : Early s.waiter)
    (hnew : Early waiter) (exited : Bool) : Sound runner { s with waiter, exited } := by
  have hrunning := h.running fun code => (hold code).2
  refine { h with met := ?_, told := ?_, code := ?_, queued := ?_, phase := ?_ }
  · intro hended
    obtain ⟨code, hcode | hcode⟩ := h.met hended
    · exact absurd hcode (hold code).1
    · exact absurd hcode (hold code).2
  · rintro code (hcode | hcode)
    · exact absurd hcode (hnew code).1
    · exact absurd hcode (hnew code).2
  · intro code hexit
    exact absurd (h.code code hexit) (hold code).2
  · intro code hended
    exact absurd hended (hnew code).2
  · exact phaseSound_of_running hrunning (h.noBye hrunning)

/-- The waiter meets the reader. -/
theorem Sound.rendezvous_step (h : Sound runner s) : Sound runner (step runner s .rendezvous) := by
  rw [step]
  split
  · rename_i code hgrace hsignalling
    have hne : s.reader ≠ .ended := by rw [hsignalling]; exact Reader.noConfusion
    have hrunning := h.running (h.not_ended hne)
    have houtput := h.output
    rw [hsignalling] at houtput
    refine { h with
      output := houtput, met := fun _ => ⟨code, .inl rfl⟩, told := fun _ _ => rfl, code := ?_,
      queued := ?_, phase := ?_ }
    · intro code' hexit
      exact absurd (h.code code' hexit) (h.not_ended hne code')
    · intro code' hended
      cases hended
    · exact phaseSound_of_running hrunning (h.noBye hrunning)
  · exact h

/-- The waiter passes the exit code on. -/
theorem Sound.onExit_step (h : Sound runner s) : Sound runner (step runner s .onExit) := by
  rw [step]
  split
  · rename_i code hnotifying
    have hrunning := h.running fun code => by rw [hnotifying]; exact Waiter.noConfusion
    have hexit : s.ptyExit = none := by
      cases hexit : s.ptyExit with
      | none => rfl
      | some code' =>
        have hended := h.code code' hexit
        rw [hnotifying] at hended
        cases hended
    have hreader := h.told code (.inl hnotifying)
    rw [hexit, Option.none_or]
    refine { h with
      met := fun _ => ⟨code, .inr rfl⟩, told := fun _ _ => hreader, code := ?_, queued := ?_,
      phase := ?_ }
    · intro code' hcode
      cases hcode
      rfl
    · intro code' hended _
      cases hended
      rfl
    · exact phaseSound_of_running hrunning (h.noBye hrunning)
  · exact h

/-- The steps of the waiter and its meeting with the reader. -/
theorem Sound.waiter_step (h : Sound runner s) {e : Event}
    (he : (∃ status, e = .childExits status) ∨ e = .markExited ∨ e = .rendezvous ∨
      e = .graceTimeout ∨ e = .signalFails ∨ e = .onExit) (hcalm : Calm s e) :
    Sound runner (step runner s e) := by
  rcases he with ⟨status, rfl⟩ | rfl | rfl | rfl | rfl | rfl
  · rw [step]
    split
    · rename_i hwaiting
      refine h.early_step ?_ ?_ s.exited
      · rw [hwaiting]
        exact fun code => ⟨Waiter.noConfusion, Waiter.noConfusion⟩
      · exact fun code => ⟨Waiter.noConfusion, Waiter.noConfusion⟩
    · exact h
  · rw [step]
    split
    · rename_i code hreaped
      refine h.early_step ?_ ?_ true
      · rw [hreaped]
        exact fun code => ⟨Waiter.noConfusion, Waiter.noConfusion⟩
      · exact fun code => ⟨Waiter.noConfusion, Waiter.noConfusion⟩
    · exact h
  · exact h.rendezvous_step
  · rw [step]
    split
    · rename_i code hgrace
      rw [Calm, hgrace] at hcalm
      exact hcalm.elim
    · exact h
  · rw [step]
    split
    · rename_i code hended hsignalling
      rw [h.told code (.inr hended)] at hsignalling
      cases hsignalling
    · exact h
  · exact h.onExit_step

/-- Until the runtime ends, what was sent is written or waits. -/
theorem Sound.socket_eq (h : Sound runner s) (hphase : s.phase ≠ .done) :
    s.sent = s.written ++ s.outbound :=
  h.socket.resolve_right fun hdone => hphase hdone.1

/-- One more frame is sent, then written or waits. -/
theorem Sound.socket_concat (h : Sound runner s) (hphase : s.phase ≠ .done) (frame : Frame) :
    s.sent ++ [frame] = s.written ++ (s.outbound ++ [frame]) := by
  rw [h.socket_eq hphase, List.append_assoc]

/-- The hook of the loop sends no chunk. -/
theorem Sound.hook_step (h : Sound runner s) {ts : ℚ} (hcalm : Calm s (.hook ts)) :
    Sound runner (step runner s (.hook ts)) := by
  rw [step]
  split
  · rename_i hrunning
    have hne : s.phase ≠ .done := by rw [hrunning]; exact Phase.noConfusion
    split
    · exact h
    · rename_i event hooks hhooks
      cases hname : event.hookEventName with
      | none =>
        rw [eventRecord, hname]
        exact { h with phase := phaseSound_of_running hrunning (h.noBye hrunning) }
      | some name =>
        have hroom : Room s := by
          refine hcalm hrunning ?_
          rw [hhooks, List.head?_cons, Option.bind_some, hname]
          exact Option.some_ne_none name
        rw [eventRecord, hname, Option.map_some]
        dsimp only
        rw [sendRecord_of_room (by exact hroom)]
        refine { h with output := ?_, socket := ?_, phase := ?_ }
        · rw [chunks_append]
          exact h.output.trans (by rw [chunks, chunks]; simp [Frame.chunk])
        · exact .inl (h.socket_concat hne _)
        · exact phaseSound_of_running hrunning (noBye_concat_record (h.noBye hrunning) _ _)
  · exact h

/-- A chunk that is sent leaves the queue. -/
theorem Sound.output_send (h : Sound runner s) {chunk : Octets} {ptyData : List Octets}
    (hdata : s.ptyData = chunk :: ptyData) (ts : ℚ) :
    s.read = chunks (s.sent ++ [ioRecord runner.sid chunk ts]) ++ ptyData ++ held s.reader := by
  have houtput := h.output
  rw [hdata] at houtput
  rw [houtput, chunks_append]
  have hchunk : chunks [ioRecord runner.sid chunk ts] = [chunk] := rfl
  rw [hchunk, List.append_assoc (chunks s.sent) [chunk] ptyData, List.singleton_append]

/-- The loop sends a chunk. -/
theorem Sound.data_step (h : Sound runner s) {ts : ℚ} (hcalm : Calm s (.data ts)) :
    Sound runner (step runner s (.data ts)) := by
  rw [step]
  split
  · rename_i hrunning
    have hne : s.phase ≠ .done := by rw [hrunning]; exact Phase.noConfusion
    split
    · exact h
    · rename_i chunk ptyData hdata
      have hroom : Room s := hcalm hrunning (by rw [hdata]; exact List.cons_ne_nil chunk ptyData)
      rw [sendRecord_of_room (by exact hroom)]
      refine { h with output := h.output_send hdata ts, socket := ?_, phase := ?_ }
      · exact .inl (h.socket_concat hne _)
      · exact phaseSound_of_running hrunning (noBye_concat_record (h.noBye hrunning) _ _)
  · exact h

/-- The loop finds the exit code. -/
theorem Sound.exit_step (h : Sound runner s) : Sound runner (step runner s .exit) := by
  rw [step]
  split
  · rename_i hrunning
    split
    · rename_i code hexit
      refine { h with socket := ?_, code := ?_, queued := ?_, phase := ?_ }
      · exact .inl (h.socket_eq (by rw [hrunning]; exact Phase.noConfusion))
      · intro code' hcode
        cases hcode
      · intro code' _ hphase
        cases hphase
      · exact (phaseSound_draining rfl).mpr ⟨h.code code hexit, h.noBye hrunning⟩
    · exact h
  · exact h

/-- The loop empties the queue. -/
theorem Sound.drain_step (h : Sound runner s) {ts : ℚ} (hcalm : Calm s (.drain ts)) :
    Sound runner (step runner s (.drain ts)) := by
  cases hphase : s.phase with
  | draining code =>
    have hne : s.phase ≠ .done := by rw [hphase]; exact Phase.noConfusion
    obtain ⟨hended, hbye⟩ := (phaseSound_draining hphase).mp h.phase
    rw [Calm, hphase] at hcalm
    cases hdata : s.ptyData with
    | nil =>
      have hstopped : step runner s (.drain ts) = { s with phase := .stopped code .exit } := by
        rw [step, hphase]
        dsimp only
        rw [hdata]
      rw [hstopped]
      refine { h with socket := .inl (h.socket_eq hne), queued := ?_, phase := ?_ }
      · intro code' _ hrunning
        cases hrunning
      · exact (phaseSound_stopped rfl).mpr ⟨hended, rfl, hdata, hbye⟩
    | cons chunk ptyData =>
      have hroom : Room s := hcalm (by rw [hdata]; exact List.cons_ne_nil chunk ptyData)
      rw [step_drain_cons hphase hdata hroom]
      refine { h with output := h.output_send hdata ts, socket := ?_, phase := ?_ }
      · exact .inl (h.socket_concat hne _)
      · exact phaseSound_of_draining hphase hended (noBye_concat_record hbye _ _)
  | running =>
    rw [step, hphase]
    exact h
  | stopped code reason =>
    rw [step, hphase]
    exact h
  | done =>
    rw [step, hphase]
    exact h

/-- The loop says goodbye. -/
theorem Sound.bye_step (h : Sound runner s) (hcalm : Calm s .bye) :
    Sound runner (step runner s .bye) := by
  cases hphase : s.phase with
  | stopped code reason =>
    have hne : s.phase ≠ .done := by rw [hphase]; exact Phase.noConfusion
    obtain ⟨hended, rfl, hdata, hbye⟩ := (phaseSound_stopped hphase).mp h.phase
    rw [Calm, hphase] at hcalm
    rw [step_bye hphase hcalm]
    refine { h with output := ?_, socket := ?_, queued := ?_, phase := ?_ }
    · rw [chunks_append]
      exact h.output.trans (by rw [chunks, chunks]; simp [Frame.chunk])
    · exact .inl (h.socket_concat hne _)
    · intro code' _ hrunning
      cases hrunning
    · exact (phaseSound_done rfl).mpr ⟨s.sent, code, rfl, hbye, hended, hdata⟩
  | running =>
    rw [step, hphase]
    exact h
  | draining code =>
    rw [step, hphase]
    exact h
  | done =>
    rw [step, hphase]
    exact h

/-- Writing and the end of the runtime change nothing that was sent. -/
theorem Sound.socket_step (h : Sound runner s) {e : Event} (he : e = .write ∨ e = .unwind) :
    Sound runner (step runner s e) := by
  rcases he with rfl | rfl
  · rw [step]
    split
    · exact h
    · rename_i frame outbound houtbound
      have hsocket : s.sent = s.written ++ [frame] ++ outbound := by
        rcases h.socket with hsent | ⟨-, hnil, -⟩
        · rw [hsent, houtbound, List.append_assoc, List.singleton_append]
        · rw [houtbound] at hnil
          cases hnil
      exact { h with socket := .inl hsocket, phase := h.phase }
  · rw [step]
    split
    · rename_i hdone
      have hprefix : s.written <+: s.sent := by
        rcases h.socket with hsent | ⟨-, -, hprefix⟩
        · rw [hsent]
          exact List.prefix_append s.written s.outbound
        · exact hprefix
      exact { h with socket := .inr ⟨hdone, rfl, hprefix⟩, phase := h.phase }
    · exact h

/-- Every step of a calm run keeps the state sound. -/
theorem Sound.next (h : Sound runner s) (e : Event) (hcalm : Calm s e) :
    Sound runner (step runner s e) := by
  cases e with
  | readChunk chunk => exact h.reader_step (.inl ⟨chunk, rfl⟩) hcalm
  | readEnd => exact h.reader_step (.inr (.inl rfl)) hcalm
  | onData => exact h.reader_step (.inr (.inr rfl)) hcalm
  | childExits status => exact h.waiter_step (.inl ⟨status, rfl⟩) hcalm
  | markExited => exact h.waiter_step (.inr (.inl rfl)) hcalm
  | rendezvous => exact h.waiter_step (.inr (.inr (.inl rfl))) hcalm
  | graceTimeout => exact h.waiter_step (.inr (.inr (.inr (.inl rfl)))) hcalm
  | signalFails => exact h.waiter_step (.inr (.inr (.inr (.inr (.inl rfl))))) hcalm
  | onExit => exact h.waiter_step (.inr (.inr (.inr (.inr (.inr rfl))))) hcalm
  | inbound => exact h
  | hookArrives event => exact { h with phase := h.phase }
  | hook ts => exact h.hook_step hcalm
  | data ts => exact h.data_step hcalm
  | exit => exact h.exit_step
  | drain ts => exact h.drain_step hcalm
  | closed =>
    rw [step, if_neg (by exact hcalm)]
    exact h
  | shutdown code =>
    rw [step, if_neg (by exact hcalm)]
    exact h
  | bye => exact h.bye_step hcalm
  | write => exact h.socket_step (.inl rfl)
  | unwind => exact h.socket_step (.inr rfl)

end Soundness

section Results

variable {runner : Runner} {s : System}

/-- Frames without a goodbye do not split at one. -/
theorem NoBye.not_split {frames before after : List Frame} {sid : String} {code : ℤ} {pid : ℕ}
    {reason : ByeReason} (h : NoBye frames) (hsplit : frames = before ++ .bye sid code pid reason :: after) :
    False :=
  h sid code pid reason (hsplit ▸ List.mem_append_right before List.mem_cons_self)

/-- The goodbye of a sound state is its last frame. -/
theorem Sound.done_of_bye (h : Sound runner s) {before after : List Frame} {sid : String} {code : ℤ}
    {pid : ℕ} {reason : ByeReason} (hsent : s.sent = before ++ .bye sid code pid reason :: after) :
    after = [] ∧ sid = runner.sid ∧ pid = runner.pid ∧ reason = .exit ∧ s.waiter = .ended code ∧
      s.ptyData = [] ∧ chunks s.sent = chunks before := by
  have hphase := h.phase
  cases hp : s.phase with
  | running => exact (((phaseSound_running hp).mp hphase).not_split hsent).elim
  | draining code' => exact (((phaseSound_draining hp).mp hphase).2.not_split hsent).elim
  | stopped code' reason' => exact (((phaseSound_stopped hp).mp hphase).2.2.2.not_split hsent).elim
  | done =>
    obtain ⟨before', code', hsent', hbye, hended, hdata⟩ := (phaseSound_done hp).mp hphase
    rw [hsent'] at hsent
    rcases List.append_eq_append_iff.mp hsent with ⟨rest, hbefore, hrest⟩ | ⟨rest, hbefore, hrest⟩
    · cases rest with
      | nil =>
        rw [List.nil_append, List.cons.injEq] at hrest
        obtain ⟨hframe, hafter⟩ := hrest
        cases hframe
        refine ⟨hafter.symm, rfl, rfl, rfl, hended, hdata, ?_⟩
        rw [hsent', hbefore, List.append_nil, chunks_append]
        exact List.append_nil _
      | cons frame rest =>
        rw [List.cons_append, List.cons.injEq] at hrest
        cases (List.append_eq_nil_iff.mp hrest.2.symm).2
    · cases rest with
      | nil =>
        rw [List.nil_append, List.cons.injEq] at hrest
        obtain ⟨hframe, hafter⟩ := hrest
        cases hframe
        refine ⟨hafter, rfl, rfl, rfl, hended, hdata, ?_⟩
        rw [hsent', hbefore, List.append_nil, chunks_append]
        exact List.append_nil _
      | cons frame rest =>
        rw [List.cons_append, List.cons.injEq] at hrest
        have hmem : Frame.bye sid code pid reason ∈ before' := by
          rw [hbefore, ← hrest.1]
          exact List.mem_append_right before List.mem_cons_self
        exact (hbye sid code pid reason hmem).elim

/-- A sound state sends its output before its goodbye. -/
theorem Sound.outputBeforeBye (h : Sound runner s) : OutputBeforeBye runner s := by
  refine ⟨?_, ?_, ?_⟩
  · rw [h.output, List.append_assoc]
    exact List.prefix_append _ _
  · rcases h.socket with hsent | ⟨-, -, hprefix⟩
    · rw [hsent]
      exact List.prefix_append _ _
    · exact hprefix
  · intro before sid code pid reason after hsent
    obtain ⟨hafter, hsid, hpid, hreason, hended, hdata, hchunks⟩ := h.done_of_bye hsent
    have hreader := h.told code (.inr hended)
    refine ⟨hafter, ?_, hreader, hended, hsid, hpid, hreason⟩
    have houtput := h.output
    rw [hdata, hreader, hchunks, List.append_nil] at houtput
    exact (houtput.trans (List.append_nil _)).symm

/-- What a frame that finds room adds. -/
theorem remaining_sendRecord (hroom : Room s) (frame : Frame) :
    remaining (s.sendRecord frame) = remaining s + 1 := by
  rw [sendRecord_of_room hroom, remaining, remaining, List.length_append]
  rfl

/-- The socket brings the goodbye closer when no frame finds room. -/
theorem remaining_write_lt (hroom : ¬Room s) : remaining (step runner s .write) < remaining s := by
  cases houtbound : s.outbound with
  | nil =>
    rw [Room, houtbound] at hroom
    exact absurd (by decide) hroom
  | cons frame outbound =>
    rw [step, houtbound, remaining, remaining, houtbound, List.length_cons]
    dsimp only
    omega

/-- A step of the loop that empties the queue brings the goodbye closer. -/
theorem remaining_drain_lt {code : ℤ} (hdraining : s.phase = .draining code) {ts : ℚ}
    (hcalm : Calm s (.drain ts)) : remaining (step runner s (.drain ts)) < remaining s := by
  rw [Calm, hdraining] at hcalm
  cases hdata : s.ptyData with
  | nil =>
    rw [step, hdraining]
    simp only [remaining, hdata, hdraining, phaseRank]
    omega
  | cons chunk ptyData =>
    have hroom : Room s := hcalm (by rw [hdata]; exact List.cons_ne_nil chunk ptyData)
    rw [step_drain_cons hdraining hdata hroom]
    simp only [remaining, hdata, List.length_append, List.length_cons, List.length_nil]
    omega

/-- The goodbye itself. -/
theorem remaining_bye_lt {code : ℤ} {reason : ByeReason} (hstopped : s.phase = .stopped code reason)
    (hroom : Room s) : remaining (step runner s .bye) < remaining s := by
  rw [step_bye hstopped hroom, remaining, remaining, hstopped, List.length_append]
  simp only [phaseRank, List.length_singleton]
  omega

/-- A waiter that goes on brings the goodbye closer. -/
theorem remaining_lt_of_waiter {s' : System} (hwaiter : waiterRank s'.waiter < waiterRank s.waiter)
    (hphase : s'.phase = s.phase) (hdata : s'.ptyData = s.ptyData) (hhooks : s'.hooks = s.hooks)
    (houtbound : s'.outbound = s.outbound) : remaining s' < remaining s := by
  rw [remaining, remaining, hphase, hdata, hhooks, houtbound]
  omega

/-- A sound session that is ending has a step that brings the goodbye closer. -/
theorem Sound.exists_closer (h : Sound runner s) (hending : Ending s) (hdone : s.phase ≠ .done) :
    ∃ e, Calm s e ∧ remaining (step runner s e) < remaining s := by
  obtain ⟨hwaiting, hreader⟩ := hending
  cases hw : s.waiter with
  | waiting => exact absurd hw hwaiting
  | reaped code =>
    refine ⟨.markExited, trivial, ?_⟩
    rw [step, hw]
    exact remaining_lt_of_waiter (by rw [hw]; exact Nat.lt_succ_self 2) rfl rfl rfl rfl
  | grace code =>
    have hsignalling : s.reader = .signalling := by
      refine hreader.resolve_right fun hended => ?_
      obtain ⟨code', hcode | hcode⟩ := h.met hended
      · rw [hw] at hcode
        cases hcode
      · rw [hw] at hcode
        cases hcode
    refine ⟨.rendezvous, trivial, ?_⟩
    rw [step, hw, hsignalling]
    exact remaining_lt_of_waiter (by rw [hw]; exact Nat.lt_succ_self 1) rfl rfl rfl rfl
  | notifying code =>
    refine ⟨.onExit, trivial, ?_⟩
    rw [step, hw]
    exact remaining_lt_of_waiter (by rw [hw]; exact Nat.lt_succ_self 0) rfl rfl rfl rfl
  | ended code =>
    by_cases hroom : Room s
    swap
    · exact ⟨.write, trivial, remaining_write_lt hroom⟩
    cases hp : s.phase with
    | running =>
      refine ⟨.exit, trivial, ?_⟩
      rw [step, hp, if_pos rfl, h.queued code hw hp, remaining, remaining, hp]
      simp only [phaseRank]
      omega
    | draining code' =>
      have hcalm : Calm s (.drain 0) := by
        rw [Calm, hp]
        exact fun _ => hroom
      exact ⟨.drain 0, hcalm, remaining_drain_lt hp hcalm⟩
    | stopped code' reason =>
      have hcalm : Calm s .bye := by
        rw [Calm, hp]
        exact hroom
      exact ⟨.bye, hcalm, remaining_bye_lt hp hroom⟩
    | done => exact absurd hp hdone

/-- Hooks that are sent bring the goodbye no farther away. -/
theorem remaining_hook_le {ts : ℚ} (hcalm : Calm s (.hook ts)) :
    remaining (step runner s (.hook ts)) ≤ remaining s := by
  rw [step]
  split
  · rename_i hrunning
    split
    · exact le_rfl
    · rename_i event hooks hhooks
      have hwaited : remaining { s with hooks } + 2 = remaining s := by
        rw [remaining, remaining, hhooks, List.length_cons]
        dsimp only
        omega
      cases hname : event.hookEventName with
      | none =>
        rw [eventRecord, hname, Option.map_none]
        dsimp only
        omega
      | some name =>
        have hroom : Room { s with hooks } := by
          refine hcalm hrunning ?_
          rw [hhooks, List.head?_cons, Option.bind_some, hname]
          exact Option.some_ne_none name
        rw [eventRecord, hname, Option.map_some]
        dsimp only
        rw [remaining_sendRecord hroom]
        omega
  · exact le_rfl

/-- Chunks that are sent bring the goodbye no farther away. -/
theorem remaining_data_le {ts : ℚ} (hcalm : Calm s (.data ts)) :
    remaining (step runner s (.data ts)) ≤ remaining s := by
  rw [step]
  split
  · rename_i hrunning
    split
    · exact le_rfl
    · rename_i chunk ptyData hdata
      have hwaited : remaining { s with ptyData } + 2 = remaining s := by
        rw [remaining, remaining, hdata, List.length_cons]
        dsimp only
        omega
      have hroom : Room { s with ptyData } :=
        hcalm hrunning (by rw [hdata]; exact List.cons_ne_nil chunk ptyData)
      rw [remaining_sendRecord hroom]
      omega
  · exact le_rfl

/-- The steps of the waiter bring the goodbye no farther away. -/
theorem remaining_waiter_le {e : Event} (hending : Ending s)
    (he : (∃ status, e = .childExits status) ∨ e = .markExited ∨ e = .rendezvous ∨
      e = .graceTimeout ∨ e = .signalFails ∨ e = .onExit) :
    remaining (step runner s e) ≤ remaining s := by
  rcases he with ⟨status, rfl⟩ | rfl | rfl | rfl | rfl | rfl
  · rw [step, if_neg hending.1]
  · rw [step]
    split
    · rename_i code hw
      exact le_of_lt (remaining_lt_of_waiter (by rw [hw]; exact Nat.lt_succ_self 2) rfl rfl rfl rfl)
    · exact le_rfl
  · rw [step]
    split
    · rename_i code hw _
      exact le_of_lt (remaining_lt_of_waiter (by rw [hw]; exact Nat.lt_succ_self 1) rfl rfl rfl rfl)
    · exact le_rfl
  · rw [step]
    split
    · rename_i code hw
      exact le_of_lt (remaining_lt_of_waiter (by rw [hw]; exact Nat.lt_succ_self 1) rfl rfl rfl rfl)
    · exact le_rfl
  · rw [step]
    split
    · exact le_rfl
    · exact le_rfl
  · rw [step]
    split
    · rename_i code hw
      exact le_of_lt (remaining_lt_of_waiter (by rw [hw]; exact Nat.lt_succ_self 0) rfl rfl rfl rfl)
    · exact le_rfl

/-- In a session that is ending no step but the arrival of a hook brings the goodbye
farther away. -/
theorem remaining_le {e : Event} (hending : Ending s) (hcalm : Calm s e)
    (hhook : ∀ event, e ≠ .hookArrives event) : remaining (step runner s e) ≤ remaining s := by
  have hreading : s.reader ≠ .reading := by
    rcases hending.2 with h | h
    · rw [h]
      exact Reader.noConfusion
    · rw [h]
      exact Reader.noConfusion
  cases e with
  | readChunk chunk => rw [step, if_neg hreading]
  | readEnd => rw [step, if_neg hreading]
  | onData =>
    rcases hending.2 with h | h
    · rw [step, h]
    · rw [step, h]
  | childExits status => exact remaining_waiter_le hending (.inl ⟨status, rfl⟩)
  | markExited => exact remaining_waiter_le hending (.inr (.inl rfl))
  | rendezvous => exact remaining_waiter_le hending (.inr (.inr (.inl rfl)))
  | graceTimeout => exact remaining_waiter_le hending (.inr (.inr (.inr (.inl rfl))))
  | signalFails => exact remaining_waiter_le hending (.inr (.inr (.inr (.inr (.inl rfl)))))
  | onExit => exact remaining_waiter_le hending (.inr (.inr (.inr (.inr (.inr rfl)))))
  | inbound => exact le_rfl
  | hookArrives event => exact absurd rfl (hhook event)
  | hook ts => exact remaining_hook_le hcalm
  | data ts => exact remaining_data_le hcalm
  | exit =>
    rw [step]
    split
    · rename_i hrunning
      split
      · rw [remaining, remaining, hrunning]
        simp only [phaseRank]
        omega
      · exact le_rfl
    · exact le_rfl
  | drain ts =>
    cases hp : s.phase with
    | draining code => exact (remaining_drain_lt hp hcalm).le
    | running => rw [step, hp]
    | stopped code reason => rw [step, hp]
    | done => rw [step, hp]
  | closed => rw [step, if_neg (by exact hcalm)]
  | shutdown code => rw [step, if_neg (by exact hcalm)]
  | bye =>
    cases hp : s.phase with
    | stopped code reason =>
      rw [Calm, hp] at hcalm
      exact (remaining_bye_lt hp hcalm).le
    | running => rw [step, hp]
    | draining code => rw [step, hp]
    | done => rw [step, hp]
  | write =>
    rw [step]
    split
    · exact le_rfl
    · rename_i frame outbound houtbound
      rw [remaining, remaining, houtbound, List.length_cons]
      dsimp only
      omega
  | unwind =>
    rw [step]
    split
    · rw [remaining, remaining]
      exact Nat.le_add_right _ _
    · exact le_rfl

/-- In every run of the threads and the loop in which the child ends by itself, the
reader ends within the grace and nothing overflows, the chunks are sent in the order
in which they were read, each once, and all before the goodbye, which carries the
child's exit code; and once everything was read the goodbye comes. -/
theorem final_output_before_bye (runner : Runner) {events : List Event}
    (hcalm : Meets (step runner) Calm (System.start runner) events) :
    OutputBeforeBye runner (runFrom (step runner) (System.start runner) events) ∧
      ComesToBye runner (runFrom (step runner) (System.start runner) events) := by
  have hsound := runFrom_induction_of_meets
    (fun s e (h : Sound runner s) hcalm => h.next e hcalm) (sound_start runner) hcalm
  refine ⟨hsound.outputBeforeBye, fun hending hdone => ⟨hsound.exists_closer hending hdone, ?_⟩⟩
  exact fun e he hhook => remaining_le hending he hhook

/-- A session. -/
def sampleRunner : Runner := ⟨"s1", "/work", none, 7⟩

/-- Two chunks and a hook: the child ends while the second chunk is in the reader's
hands, and the loop finds the exit code before the chunk. -/
def quickRun : List Event :=
  [.readChunk [1], .onData, .data 1, .hookArrives ⟨some "Stop", "e30="⟩, .readChunk [2],
    .childExits (some 3), .markExited, .onData, .readEnd, .rendezvous, .onExit, .write, .exit,
    .drain 2, .drain 2, .bye]

/-- Every step of it is one of a session that ends with its child. -/
theorem calm_quickRun :
    Meets (step sampleRunner) Calm (System.start sampleRunner) quickRun := by
  refine ⟨trivial, ?_, ?_, trivial, trivial, trivial, trivial, ?_, trivial, trivial, trivial,
    trivial, trivial, ?_, ?_, ?_, trivial⟩
  · exact Nat.zero_lt_succ 1023
  · exact fun _ _ => Nat.succ_lt_succ (Nat.zero_lt_succ 4094)
  · exact Nat.zero_lt_succ 1023
  · intro _
    decide +kernel
  · intro _
    decide +kernel
  · exact Nat.succ_lt_succ (Nat.succ_lt_succ (Nat.zero_lt_succ 4093))

/-- The chunk that the exit code overtook is in front of the goodbye. -/
theorem final_output_before_bye_quickRun :
    (runFrom (step sampleRunner) (System.start sampleRunner) quickRun).sent =
        [.hello "s1" "/work" none 7, ioRecord "s1" [1] 1, ioRecord "s1" [2] 2,
          .bye "s1" 3 7 .exit] ∧
      OutputBeforeBye sampleRunner
        (runFrom (step sampleRunner) (System.start sampleRunner) quickRun) ∧
      ComesToBye sampleRunner
        (runFrom (step sampleRunner) (System.start sampleRunner) quickRun) := by
  refine ⟨?_, final_output_before_bye sampleRunner calm_quickRun⟩
  decide +kernel

end Results

end Teleprompter.RunnerOutput
