import Teleprompter.FrameChunks
import Teleprompter.IpcMessages

/-!
# One connection of the local socket

The daemon reads a connection in pieces, decodes frames, reads each frame as
JSON and hands the messages that pass the guard to a handler. A handler may
panic; the panic is caught. It ends the loop over the frames of the piece and
not the loop over the pieces, so the connection stays open: the daemon waits
for the next piece, and what arrives later is handed out as well.
-/

namespace Teleprompter.IpcConnection

open FramedStreams FrameCodec StreamCuts JsonValues Wire

/-- What a read of the socket returns. -/
inductive ReadResult where
  /-- Bytes, of which there are none at the end of the stream. -/
  | ok (bytes : Bytes)
  /-- The read failed. -/
  | err
  deriving DecidableEq

/-- What happens on a connection, in order. -/
inductive ConnEvent where
  /-- The connection was registered. -/
  | connect
  /-- A read returned. -/
  | read (result : ReadResult)
  /-- The handler was called, with the session of the runner as it was known,
  and returned or panicked. -/
  | message (sid : Option String) (msg : IpcMessage) (binary : Option Bytes) (panicked : Bool)
  /-- The connection was given up. -/
  | close
  /-- The owner was told. -/
  | disconnect
  deriving DecidableEq

/-- A call of the handler. -/
def ConnEvent.isMessage : ConnEvent → Bool
  | .message .. => true
  | _ => false

/-- A call of the handler that panicked. -/
def ConnEvent.isPanic : ConnEvent → Bool
  | .message _ _ _ panicked => panicked
  | _ => false

/-- A connection: the state of the handler, the session of the runner and what
has happened. -/
structure Conn (σ : Type) where
  /-- What the handler keeps. -/
  state : σ
  /-- Session named by the last hello. -/
  sid : Option String
  /-- Events so far. -/
  events : List ConnEvent

section Model

variable {σ : Type} (readJson : Bytes → Option Json)
  (onMessage : σ → Option String → IpcMessage → Option Bytes → σ × Bool)

/-- The session of the runner after a message: a hello names it. -/
def trackSid (sid : Option String) : IpcMessage → Option String
  | .hello named _ _ _ _ => some named
  | _ => sid

/-- The message of a frame, when it is JSON and passes the guard. -/
def acceptedMessage (frame : DecodedFrame) : Option (IpcMessage × Option Bytes) :=
  ((readJson frame.json).bind parseIpcMessage).map fun msg => (msg, frame.binary)

/-- The loop over the frames of one read. A panic ends it. -/
def dispatchFrames : Conn σ → List DecodedFrame → Conn σ
  | conn, [] => conn
  | conn, frame :: frames =>
    match acceptedMessage readJson frame with
    | none => dispatchFrames conn frames
    | some (msg, binary) =>
      let sid := trackSid conn.sid msg
      let result := onMessage conn.state sid msg binary
      let next : Conn σ := ⟨result.1, sid, conn.events ++ [.message sid msg binary result.2]⟩
      if result.2 then next else dispatchFrames next frames

/-- The loop over the reads that have returned, and whether it has ended: at the
end of the stream, at a read that fails and at a frame that does not decode.
Otherwise the next read is pending. -/
def readLoop : FrameDecoder → Conn σ → List ReadResult → Conn σ × Bool
  | _, conn, [] => (conn, false)
  | decoder, conn, result :: results =>
    let conn := { conn with events := conn.events ++ [.read result] }
    match result with
    | .err => (conn, true)
    | .ok chunk =>
      if chunk = [] then (conn, true)
      else
        match decoder.decode chunk with
        | (.error _, _) => (conn, true)
        | (.ok frames, decoder) =>
          readLoop decoder (dispatchFrames readJson onMessage conn frames) results

/-- A connection from its start on. When the loop has ended it is closed, and the
owner is told if it was still registered, which it is unless the server was
stopped. -/
def handleConn (state : σ) (stopped : Bool) (results : List ReadResult) : List ConnEvent :=
  let loop := readLoop readJson onMessage .new ⟨state, none, [.connect]⟩ results
  if loop.2 then loop.1.events ++ if stopped then [.close] else [.close, .disconnect]
  else loop.1.events

/-- The calls that a list of messages should lead to: one after another, up to
the first that panics; and what the handler keeps. -/
def dispatchMessages : σ → Option String → List (IpcMessage × Option Bytes) →
    List ConnEvent × σ × Option String
  | state, sid, [] => ([], state, sid)
  | state, sid, (msg, binary) :: rest =>
    let sid := trackSid sid msg
    let result := onMessage state sid msg binary
    if result.2 then ([.message sid msg binary true], result.1, sid)
    else
      let later := dispatchMessages result.1 sid rest
      (.message sid msg binary false :: later.1, later.2)

/-- Some handler panics when the messages are handed out one after another. -/
def panics (state : σ) (messages : List (IpcMessage × Option Bytes)) : Bool :=
  (dispatchMessages onMessage state none messages).1.any ConnEvent.isPanic

/-- What comes behind the bytes of a stream. -/
inductive Ending where
  /-- The next read has not returned. -/
  | pending
  /-- The end of the stream. -/
  | eof
  /-- A read that fails. -/
  | failed
  deriving DecidableEq

/-- The reads of an ending. -/
def Ending.reads : Ending → List ReadResult
  | .pending => []
  | .eof => [.ok []]
  | .failed => [.err]

/-- What a connection should do: it makes the expected calls, closes right
after a panic without another read, and tells its owner once, at the latest when
the stream ends. -/
structure Disciplined (expected : List ConnEvent) (ending : Ending) (events : List ConnEvent) :
    Prop where
  /-- The calls of the handler. -/
  calls : events.filter ConnEvent.isMessage = expected
  /-- After a panic the connection is given up. -/
  closes : ∀ front e back, events = front ++ e :: back → e.isPanic →
    back = [.close, .disconnect]
  /-- The owner is not told twice. -/
  once : events.count .disconnect ≤ 1
  /-- The owner is told. -/
  told : ending ≠ .pending → .disconnect ∈ events

end Model

section Dispatch

variable {σ : Type} {readJson : Bytes → Option Json}
  {onMessage : σ → Option String → IpcMessage → Option Bytes → σ × Bool}

/-- The loop over frames makes the calls of their messages. -/
theorem dispatchFrames_eq (conn : Conn σ) (frames : List DecodedFrame) :
    dispatchFrames readJson onMessage conn frames =
      let calls := dispatchMessages onMessage conn.state conn.sid
        (frames.filterMap (acceptedMessage readJson))
      ⟨calls.2.1, calls.2.2, conn.events ++ calls.1⟩ := by
  induction frames generalizing conn with
  | nil => simp [dispatchFrames, dispatchMessages]
  | cons frame frames ih =>
    rw [dispatchFrames]
    cases hmsg : acceptedMessage readJson frame with
    | none => rw [List.filterMap_cons_none hmsg, ih]
    | some accepted =>
      obtain ⟨msg, binary⟩ := accepted
      rw [List.filterMap_cons_some hmsg]
      dsimp only
      rw [dispatchMessages]
      cases hpanic : (onMessage conn.state (trackSid conn.sid msg) msg binary).2 with
      | true => simp
      | false => simp [ih]

/-- A panic hides the messages behind it. -/
theorem dispatchMessages_append_of_panic {state : σ} {sid : Option String}
    {first : List (IpcMessage × Option Bytes)} (later : List (IpcMessage × Option Bytes))
    (h : (dispatchMessages onMessage state sid first).1.any ConnEvent.isPanic = true) :
    dispatchMessages onMessage state sid (first ++ later) =
      dispatchMessages onMessage state sid first := by
  induction first generalizing state sid with
  | nil => cases h
  | cons entry first ih =>
    obtain ⟨msg, binary⟩ := entry
    rw [dispatchMessages] at h
    rw [List.cons_append, dispatchMessages, dispatchMessages]
    cases hpanic : (onMessage state (trackSid sid msg) msg binary).2 with
    | true => rfl
    | false =>
      simp only [hpanic, Bool.false_eq_true, if_false, List.any_cons, ConnEvent.isPanic,
        Bool.false_or] at h
      simp only [Bool.false_eq_true, if_false, ih h]

/-- Without a panic the later messages follow. -/
theorem dispatchMessages_append_of_quiet {state : σ} {sid : Option String}
    {first : List (IpcMessage × Option Bytes)} (later : List (IpcMessage × Option Bytes))
    (h : (dispatchMessages onMessage state sid first).1.any ConnEvent.isPanic = false) :
    dispatchMessages onMessage state sid (first ++ later) =
      let calls := dispatchMessages onMessage state sid first
      let more := dispatchMessages onMessage calls.2.1 calls.2.2 later
      (calls.1 ++ more.1, more.2) := by
  induction first generalizing state sid with
  | nil => rfl
  | cons entry first ih =>
    obtain ⟨msg, binary⟩ := entry
    rw [dispatchMessages] at h
    rw [List.cons_append, dispatchMessages, dispatchMessages]
    cases hpanic : (onMessage state (trackSid sid msg) msg binary).2 with
    | true =>
      simp only [hpanic, if_true, List.any_cons, ConnEvent.isPanic, Bool.true_or] at h
      cases h
    | false =>
      simp only [hpanic, Bool.false_eq_true, if_false, List.any_cons, ConnEvent.isPanic,
        Bool.false_or] at h
      simp only [Bool.false_eq_true, if_false, ih h, List.cons_append]

variable (onMessage) in
/-- Calls of the handler are calls of the handler, and only the last one may
have panicked. -/
theorem dispatchMessages_shape (state : σ) (sid : Option String)
    (messages : List (IpcMessage × Option Bytes)) :
    (∀ e ∈ (dispatchMessages onMessage state sid messages).1, e.isMessage = true) ∧
      ∀ front e back, (dispatchMessages onMessage state sid messages).1 = front ++ e :: back →
        e.isPanic → back = [] := by
  induction messages generalizing state sid with
  | nil => simp [dispatchMessages]
  | cons entry messages ih =>
    obtain ⟨msg, binary⟩ := entry
    rw [dispatchMessages]
    cases hpanic : (onMessage state (trackSid sid msg) msg binary).2 with
    | true =>
      refine ⟨by simp [ConnEvent.isMessage], ?_⟩
      intro front e back heq _
      have hlength := congrArg List.length heq
      simp only [if_true, List.length_cons, List.length_nil, List.length_append] at hlength
      exact List.length_eq_zero_iff.mp (by omega)
    | false =>
      obtain ⟨hmessages, hlast⟩ := ih (onMessage state (trackSid sid msg) msg binary).1
        (trackSid sid msg)
      simp only [Bool.false_eq_true, if_false]
      refine ⟨?_, ?_⟩
      · intro e hmem
        rcases List.mem_cons.mp hmem with rfl | hmem
        · rfl
        · exact hmessages e hmem
      · intro front e back heq hpanics
        cases front with
        | nil =>
          rw [List.nil_append, List.cons.injEq] at heq
          rw [← heq.1] at hpanics
          cases hpanics
        | cons first front =>
          rw [List.cons_append, List.cons.injEq] at heq
          exact hlast front e back heq.2 hpanics

end Dispatch

section Loop

variable {σ : Type} {readJson : Bytes → Option Json}
  {onMessage : σ → Option String → IpcMessage → Option Bytes → σ × Bool}

/-- The messages of a piece of the stream, given what was seen before. -/
abbrev newMessages (readJson : Bytes → Option Json) (seen more : Bytes) :
    List (IpcMessage × Option Bytes) :=
  (framesOf (tailOf seen ++ more)).filterMap (acceptedMessage readJson)

theorem newMessages_nil (seen : Bytes) : newMessages readJson seen [] = [] := by
  rw [newMessages, List.append_nil, framesOf, Cutter.items_remainder, List.filterMap_nil]

/-- The messages of a longer piece are those of its parts. -/
theorem newMessages_append (seen chunk more : Bytes) :
    newMessages readJson seen (chunk ++ more) =
      newMessages readJson seen chunk ++ newMessages readJson (seen ++ chunk) more := by
  have htail : tailOf (tailOf seen ++ chunk) = tailOf (seen ++ chunk) :=
    (tailOf_append seen chunk).symm
  rw [newMessages, ← List.append_assoc, framesOf_append, htail, List.filterMap_append]

/-- A connection after a read and the calls of its messages. -/
def afterRead (onMessage : σ → Option String → IpcMessage → Option Bytes → σ × Bool)
    (conn : Conn σ) (chunk : Bytes) (messages : List (IpcMessage × Option Bytes)) : Conn σ :=
  let calls := dispatchMessages onMessage conn.state conn.sid messages
  ⟨calls.2.1, calls.2.2, conn.events ++ .read (.ok chunk) :: calls.1⟩

/-- A connection after several reads, given the bytes seen before. -/
def afterReads (readJson : Bytes → Option Json)
    (onMessage : σ → Option String → IpcMessage → Option Bytes → σ × Bool) :
    Bytes → Conn σ → List Bytes → Conn σ
  | _, conn, [] => conn
  | seen, conn, chunk :: chunks =>
    afterReads readJson onMessage (seen ++ chunk)
      (afterRead onMessage conn chunk (newMessages readJson seen chunk)) chunks

/-- The loop goes over reads of bytes that decode. -/
theorem readLoop_chunks {seen : Bytes} (chunks : List Bytes) (results : List ReadResult)
    (conn : Conn σ) (hne : ∀ chunk ∈ chunks, chunk ≠ [])
    (h : ¬Oversized (tailOf (seen ++ chunks.flatten))) :
    readLoop readJson onMessage ⟨tailOf seen⟩ conn (chunks.map .ok ++ results) =
      readLoop readJson onMessage ⟨tailOf (seen ++ chunks.flatten)⟩
        (afterReads readJson onMessage seen conn chunks) results := by
  induction chunks generalizing seen conn with
  | nil => rw [List.map_nil, List.nil_append, List.flatten_nil, List.append_nil, afterReads]
  | cons chunk chunks ih =>
    rw [List.flatten_cons, ← List.append_assoc] at h ⊢
    have hnow : ¬Oversized (tailOf (seen ++ chunk)) := fun hlarge => h (hlarge.tailOf_append _)
    have hread : dispatchFrames readJson onMessage
        { conn with events := conn.events ++ [.read (.ok chunk)] } (framesOf (tailOf seen ++ chunk)) =
        afterRead onMessage conn chunk (newMessages readJson seen chunk) := by
      rw [dispatchFrames_eq, afterRead]
      dsimp only
      rw [List.append_assoc, List.singleton_append]
    rw [List.map_cons, List.cons_append, readLoop, if_neg (hne chunk List.mem_cons_self),
      decode_tailOf hnow]
    dsimp only
    rw [hread, afterReads]
    exact ih _ (fun other hmem => hne other (List.mem_cons_of_mem _ hmem)) h

variable (readJson onMessage) in
/-- What has happened stays, and while bytes arrive the owner is not told. -/
theorem afterReads_events (seen : Bytes) (conn : Conn σ) (chunks : List Bytes) :
    ∃ later, (afterReads readJson onMessage seen conn chunks).events = conn.events ++ later ∧
      .disconnect ∉ later := by
  induction chunks generalizing seen conn with
  | nil => exact ⟨[], by rw [afterReads, List.append_nil], List.not_mem_nil⟩
  | cons chunk chunks ih =>
    obtain ⟨later, hlater, hmem⟩ := ih (seen ++ chunk)
      (afterRead onMessage conn chunk (newMessages readJson seen chunk))
    refine ⟨.read (.ok chunk) :: (dispatchMessages onMessage conn.state conn.sid
      (newMessages readJson seen chunk)).1 ++ later, ?_, ?_⟩
    · rw [afterReads, hlater, afterRead, List.append_assoc]
    · rw [List.cons_append, List.mem_cons, List.mem_append]
      rintro (hread | hcall | hrest)
      · cases hread
      · exact absurd ((dispatchMessages_shape _ _ _ _).1 _ hcall) (by decide)
      · exact hmem hrest

/-- Without a panic all messages are handed out, in order. -/
theorem afterReads_of_quiet (seen : Bytes) (conn : Conn σ) (chunks : List Bytes)
    (hquiet : (dispatchMessages onMessage conn.state conn.sid
      (newMessages readJson seen chunks.flatten)).1.any ConnEvent.isPanic = false) :
    ∃ later, (afterReads readJson onMessage seen conn chunks).events = conn.events ++ later ∧
      later.filter ConnEvent.isMessage = (dispatchMessages onMessage conn.state conn.sid
        (newMessages readJson seen chunks.flatten)).1 ∧
      later.any ConnEvent.isPanic = false := by
  induction chunks generalizing seen conn with
  | nil =>
    rw [List.flatten_nil, newMessages_nil, afterReads]
    exact ⟨[], (List.append_nil _).symm, rfl, rfl⟩
  | cons chunk chunks ih =>
    rw [List.flatten_cons, newMessages_append] at hquiet ⊢
    have hfirst : (dispatchMessages onMessage conn.state conn.sid
        (newMessages readJson seen chunk)).1.any ConnEvent.isPanic = false := by
      refine Bool.eq_false_iff.mpr fun hpanic => ?_
      rw [dispatchMessages_append_of_panic _ hpanic, hpanic] at hquiet
      cases hquiet
    rw [dispatchMessages_append_of_quiet _ hfirst] at hquiet ⊢
    dsimp only at hquiet ⊢
    rw [List.any_append, Bool.or_eq_false_iff] at hquiet
    obtain ⟨later, hlater, hcalls, hnone⟩ := ih (seen ++ chunk)
      (afterRead onMessage conn chunk (newMessages readJson seen chunk)) hquiet.2
    refine ⟨.read (.ok chunk) :: (dispatchMessages onMessage conn.state conn.sid
      (newMessages readJson seen chunk)).1 ++ later, ?_, ?_, ?_⟩
    · rw [afterReads, hlater, afterRead, List.append_assoc]
    · rw [List.cons_append, List.filter_cons_of_neg (by simp [ConnEvent.isMessage]),
        List.filter_append, hcalls, List.filter_eq_self.mpr (dispatchMessages_shape _ _ _ _).1]
      rfl
    · rw [List.cons_append, List.any_cons, List.any_append, hfirst, hnone]
      rfl

/-- A panic leaves its mark. -/
theorem afterReads_of_panic (seen : Bytes) (conn : Conn σ) (chunks : List Bytes)
    (hpanic : (dispatchMessages onMessage conn.state conn.sid
      (newMessages readJson seen chunks.flatten)).1.any ConnEvent.isPanic = true) :
    (afterReads readJson onMessage seen conn chunks).events.any ConnEvent.isPanic = true := by
  induction chunks generalizing seen conn with
  | nil =>
    rw [List.flatten_nil, newMessages_nil] at hpanic
    cases hpanic
  | cons chunk chunks ih =>
    rw [List.flatten_cons, newMessages_append] at hpanic
    rw [afterReads]
    cases hfirst : (dispatchMessages onMessage conn.state conn.sid
        (newMessages readJson seen chunk)).1.any ConnEvent.isPanic with
    | true =>
      obtain ⟨later, hlater, -⟩ := afterReads_events readJson onMessage (seen ++ chunk)
        (afterRead onMessage conn chunk (newMessages readJson seen chunk)) chunks
      rw [hlater, afterRead, List.any_append, List.any_append, List.any_cons, hfirst,
        Bool.or_true, Bool.or_true, Bool.true_or]
    | false =>
      rw [dispatchMessages_append_of_quiet _ hfirst] at hpanic
      dsimp only at hpanic
      rw [List.any_append, hfirst, Bool.false_or] at hpanic
      exact ih (seen ++ chunk) (afterRead onMessage conn chunk (newMessages readJson seen chunk))
        hpanic

end Loop

section Discipline

variable {σ : Type} {readJson : Bytes → Option Json}
  {onMessage : σ → Option String → IpcMessage → Option Bytes → σ × Bool}

/-- A part of well-framed bytes holds the frames that are complete in it. -/
theorem framesOf_of_encoded {frames : List (Bytes × Option Bytes)} {buf later : Bytes}
    (hfits : ∀ frame ∈ frames, Fits frame) (h : buf ++ later = encodeAll frameCode frames) :
    ¬Oversized (tailOf buf) ∧
      framesOf buf = (completed frameCode frames buf.length).map decodedFrame := by
  have hall : buf.drop 0 ++ later = encodeAll frameCode frames := by
    rw [List.drop_zero]
    exact h
  have hcompleted := decodeLoop_eq hfits hall []
  have hcut := decodeLoop_eq_framesOf buf 0 []
  rw [hcompleted, List.drop_zero] at hcut
  split at hcut
  · cases hcut
  · rename_i hsmall
    rw [Except.ok.injEq, Prod.mk.injEq, List.nil_append, List.nil_append, Nat.sub_zero] at hcut
    exact ⟨hsmall, hcut.1.symm⟩

/-- The bytes of well-framed messages hold these messages. -/
theorem framesOf_encodeAll {frames : List (Bytes × Option Bytes)} {stream : Bytes}
    (hfits : ∀ frame ∈ frames, Fits frame) (h : stream = encodeAll frameCode frames) :
    ¬Oversized (tailOf stream) ∧ framesOf stream = frames.map decodedFrame := by
  have hall : stream ++ [] = encodeAll frameCode frames := by rw [List.append_nil, h]
  obtain ⟨hsmall, hframes⟩ := framesOf_of_encoded hfits hall
  rw [h, completed_length] at hframes
  exact ⟨hsmall, h ▸ hframes⟩

/-- The decoder before its first byte. -/
theorem new_eq : FrameDecoder.new = ⟨tailOf []⟩ := by rw [tailOf_nil, FrameDecoder.new]

theorem newMessages_nil_left (stream : Bytes) : newMessages readJson [] stream =
    (framesOf stream).filterMap (acceptedMessage readJson) := by
  rw [newMessages, tailOf_nil, List.nil_append]

/-- What happens at an ending of a connection that is still open. -/
def Ending.events : Ending → List ConnEvent
  | .pending => []
  | .eof => [.read (.ok []), .close, .disconnect]
  | .failed => [.read .err, .close, .disconnect]

variable (readJson onMessage) in
/-- What a connection does over a stream in reads. -/
theorem handleConn_chunks (state : σ) {chunks : List Bytes} (hne : ∀ chunk ∈ chunks, chunk ≠ [])
    (h : ¬Oversized (tailOf chunks.flatten)) (ending : Ending) :
    handleConn readJson onMessage state false (chunks.map .ok ++ ending.reads) =
      (afterReads readJson onMessage [] ⟨state, none, [.connect]⟩ chunks).events ++
        ending.events := by
  rw [handleConn, new_eq, readLoop_chunks chunks ending.reads _ hne h]
  cases ending with
  | pending => simp [Ending.reads, Ending.events, readLoop]
  | eof => simp [Ending.reads, Ending.events, readLoop]
  | failed => simp [Ending.reads, Ending.events, readLoop]

/-- After a panic the connection is not closed: another read follows or is pending. -/
theorem not_disciplined_of_panic (state : σ) {chunks : List Bytes} (expected : List ConnEvent)
    (hne : ∀ chunk ∈ chunks, chunk ≠ []) (h : ¬Oversized (tailOf chunks.flatten))
    (hpanic : panics onMessage state
      ((framesOf chunks.flatten).filterMap (acceptedMessage readJson)) = true) (ending : Ending) :
    ¬Disciplined expected ending
      (handleConn readJson onMessage state false (chunks.map .ok ++ ending.reads)) := by
  intro hdisciplined
  rw [panics, ← newMessages_nil_left] at hpanic
  have hmark := afterReads_of_panic [] ⟨state, none, [.connect]⟩ chunks hpanic
  obtain ⟨later, hlater, hquiet⟩ := afterReads_events readJson onMessage []
    ⟨state, none, [.connect]⟩ chunks
  obtain ⟨e, hmem, he⟩ := List.any_eq_true.mp hmark
  obtain ⟨front, back, hsplit⟩ := List.append_of_mem hmem
  have hopen : ConnEvent.disconnect ∉ back := by
    intro hback
    have hall : ConnEvent.disconnect ∈ [ConnEvent.connect] ++ later := by
      rw [← hlater, hsplit]
      exact List.mem_append_right front (List.mem_cons_of_mem e hback)
    rw [List.singleton_append, List.mem_cons] at hall
    exact hquiet (hall.resolve_left ConnEvent.noConfusion)
  have hevents := handleConn_chunks readJson onMessage state hne h ending
  rw [hsplit, List.append_assoc, List.cons_append] at hevents
  have hend := hdisciplined.closes front e _ hevents he
  cases ending with
  | pending =>
    rw [Ending.events, List.append_nil] at hend
    exact hopen (hend ▸ by simp)
  | eof =>
    have hlength := congrArg List.length hend
    simp [Ending.events] at hlength
  | failed =>
    have hlength := congrArg List.length hend
    simp [Ending.events] at hlength

/-- Without a panic the connection does what it should. -/
theorem disciplined_of_quiet (state : σ) {chunks : List Bytes}
    (hne : ∀ chunk ∈ chunks, chunk ≠ []) (h : ¬Oversized (tailOf chunks.flatten))
    (hquiet : panics onMessage state
      ((framesOf chunks.flatten).filterMap (acceptedMessage readJson)) = false) (ending : Ending) :
    Disciplined (dispatchMessages onMessage state none
        ((framesOf chunks.flatten).filterMap (acceptedMessage readJson))).1 ending
      (handleConn readJson onMessage state false (chunks.map .ok ++ ending.reads)) := by
  rw [panics, ← newMessages_nil_left] at hquiet
  obtain ⟨later, hlater, hcalls, hnone⟩ :=
    afterReads_of_quiet [] ⟨state, none, [.connect]⟩ chunks hquiet
  obtain ⟨others, hothers, hopen⟩ := afterReads_events readJson onMessage []
    ⟨state, none, [.connect]⟩ chunks
  have hsame : later = others := List.append_cancel_left (hlater.symm.trans hothers)
  have hcount : ([ConnEvent.connect] ++ later).count ConnEvent.disconnect = 0 := by
    rw [hsame, List.count_append, List.count_eq_zero_of_not_mem hopen]
    rfl
  rw [← newMessages_nil_left, handleConn_chunks readJson onMessage state hne h ending, hlater]
  refine ⟨?_, ?_, ?_, ?_⟩
  · rw [List.filter_append, List.filter_append, hcalls]
    cases ending <;> simp [Ending.events, ConnEvent.isMessage]
  · intro front e back heq hpanic
    have hmem : e ∈ [ConnEvent.connect] ++ later ++ ending.events := by
      rw [heq]
      exact List.mem_append_right front List.mem_cons_self
    rcases List.mem_append.mp hmem with hbefore | hafter
    · have hany : ([ConnEvent.connect] ++ later).any ConnEvent.isPanic = true :=
        List.any_eq_true.mpr ⟨e, hbefore, hpanic⟩
      rw [List.any_append, hnone] at hany
      cases hany
    · have hending : ending.events.any ConnEvent.isPanic = false := by cases ending <;> rfl
      rw [List.any_eq_true.mpr ⟨e, hafter, hpanic⟩] at hending
      cases hending
  · rw [List.count_append, hcount]
    cases ending <;> decide
  · intro hended
    refine List.mem_append_right _ ?_
    cases ending with
    | pending => exact absurd rfl hended
    | eof => decide
    | failed => decide

/-- For well-framed messages in any reads, whatever follows them, and any
handler, the connection makes the calls of the accepted messages up to the first
panic, closes right after it and tells its owner once, exactly when no accepted
message panics. -/
theorem handleConn_disciplined_iff (readJson : Bytes → Option Json)
    (onMessage : σ → Option String → IpcMessage → Option Bytes → σ × Bool) (state : σ)
    (frames : List (Bytes × Option Bytes)) (hfits : ∀ frame ∈ frames, Fits frame)
    (chunks : List Bytes) (hne : ∀ chunk ∈ chunks, chunk ≠ [])
    (hcut : chunks.flatten = encodeAll frameCode frames) (ending : Ending) :
    Disciplined (dispatchMessages onMessage state none
        ((frames.map decodedFrame).filterMap (acceptedMessage readJson))).1 ending
      (handleConn readJson onMessage state false (chunks.map .ok ++ ending.reads)) ↔
    panics onMessage state
      ((frames.map decodedFrame).filterMap (acceptedMessage readJson)) = false := by
  obtain ⟨hsmall, hframes⟩ := framesOf_encodeAll hfits hcut
  rw [← hframes]
  constructor
  · intro hdisciplined
    refine Bool.eq_false_iff.mpr fun hpanic => ?_
    exact not_disciplined_of_panic state _ hne hsmall hpanic ending hdisciplined
  · intro hquiet
    exact disciplined_of_quiet state hne hsmall hquiet ending

/-- The text of a probe: an object with the type `doctor.probe`. -/
def probeJson : Bytes :=
  [123, 34, 116, 34, 58, 34, 100, 111, 99, 116, 111, 114, 46, 112, 114, 111, 98, 101, 34, 125]

/-- A reader of JSON that knows this text. -/
def readProbe (bytes : Bytes) : Option Json :=
  if bytes = probeJson then some (tagged "doctor.probe" []) else none

/-- A handler that panics on the first message and counts the messages. -/
def panicOnce (count : ℕ) (_ : Option String) (_ : IpcMessage) (_ : Option Bytes) : ℕ × Bool :=
  (count + 1, count = 0)

/-- Two probes. -/
def twoProbes : List (Bytes × Option Bytes) := [(probeJson, none), (probeJson, none)]

/-- A handler that panics no more is called for both probes, and the end of the
stream ends the connection. -/
theorem handleConn_twoProbes_quiet :
    Disciplined [.message none .doctorProbe none false, .message none .doctorProbe none false] .eof
      (handleConn readProbe panicOnce 1 false
        ((twoProbes.map frameCode).map .ok ++ Ending.eof.reads)) :=
  (handleConn_disciplined_iff readProbe panicOnce 1 twoProbes (by decide)
    (twoProbes.map frameCode) (by decide) rfl .eof).mpr (by decide +kernel)

/-- A panic on the first of two probes does not close the connection, and the
second one is handed out: the claimed behaviour fails for well-framed messages
in nonempty reads. -/
theorem handleConn_twoProbes_panic :
    (∀ frame ∈ twoProbes, Fits frame) ∧
      (∀ chunk ∈ twoProbes.map frameCode, chunk ≠ []) ∧
      (twoProbes.map frameCode).flatten = encodeAll frameCode twoProbes ∧
      ¬Disciplined (dispatchMessages panicOnce 0 none
          ((twoProbes.map decodedFrame).filterMap (acceptedMessage readProbe))).1 .eof
        (handleConn readProbe panicOnce 0 false
          ((twoProbes.map frameCode).map .ok ++ Ending.eof.reads)) := by
  have hfits : ∀ frame ∈ twoProbes, Fits frame := by decide
  have hcut : (twoProbes.map frameCode).flatten = encodeAll frameCode twoProbes := rfl
  obtain ⟨hsmall, hframes⟩ := framesOf_encodeAll hfits hcut
  refine ⟨hfits, by decide, hcut, ?_⟩
  refine not_disciplined_of_panic 0 _ (by decide) hsmall ?_ .eof
  rw [hframes]
  decide +kernel

end Discipline

end Teleprompter.IpcConnection
