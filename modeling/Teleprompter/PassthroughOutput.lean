import Mathlib.Data.List.Infix
import Mathlib.Order.Basic
import Teleprompter.SessionRecords
import Teleprompter.StepRuns

/-!
# Output of a passthrough session

The passthrough command shows the terminal output of a runner that the daemon
records. It polls the database of the session: each time it writes the io
records above the last number it has seen, at most a page of them. When the
runner has exited it reads one more page and returns. What a reader of a growing log
has written is the rendering of a front of the log, and two places give the same text
exactly when all entries between them render to nothing.
-/

namespace Teleprompter.PassthroughOutput

open SessionRecords StepRuns

section Reading

variable {α β : Type} {render : α → List β}

/-- What a reader has written when it has come to a place. -/
def written (render : α → List β) (log : List α) (place : ℕ) : List β :=
  (log.take place).flatMap render

/-- Entries that render to nothing. -/
def Silent (render : α → List β) (entries : List α) : Prop := ∀ x ∈ entries, render x = []

/-- The entries between two places, whichever is the first one. -/
def between (log : List α) (a b : ℕ) : List α := (log.take (max a b)).drop (min a b)

theorem flatMap_eq_nil_iff_silent {entries : List α} :
    entries.flatMap render = [] ↔ Silent render entries := by
  rw [List.flatMap_eq_nil_iff, Silent]

/-- What is appended behind the place changes nothing. -/
theorem written_append {log : List α} {place : ℕ} (h : place ≤ log.length) (more : List α) :
    written render (log ++ more) place = written render log place := by
  rw [written, written, List.take_append_of_le_length h]

/-- Going on writes the next entries. -/
theorem written_add (log : List α) (place count : ℕ) :
    written render log (place + count) =
      written render log place ++ ((log.drop place).take count).flatMap render := by
  rw [written, written, List.take_add, List.flatMap_append]

/-- There is nothing to write behind the end. -/
theorem written_min_length (log : List α) (place : ℕ) :
    written render log (min log.length place) = written render log place := by
  rw [written, written, Nat.min_comm, ← List.take_take, List.take_length]

/-- At the end of an earlier log everything in it has been written. -/
theorem written_length {earlier log : List α} (h : earlier <+: log) :
    written render log earlier.length = earlier.flatMap render := by
  obtain ⟨more, rfl⟩ := h
  rw [written, List.take_left]

theorem between_of_le (log : List α) {a b : ℕ} (h : a ≤ b) :
    between log a b = (log.drop a).take (b - a) := by
  rw [between, max_eq_right h, min_eq_left h, List.drop_take]

theorem between_comm (log : List α) (a b : ℕ) : between log a b = between log b a := by
  rw [between, between, max_comm, min_comm]

/-- A later place has the same text when only silent entries are passed. -/
theorem written_eq_iff_of_le {log : List α} {a b : ℕ} (h : a ≤ b) :
    written render log a = written render log b ↔ Silent render (between log a b) := by
  have hadd := @written_add _ _ render log a (b - a)
  rw [Nat.add_sub_cancel' h] at hadd
  rw [hadd, List.self_eq_append_right, between_of_le log h, flatMap_eq_nil_iff_silent]

/-- Two places have the same text when the entries between them are silent. -/
theorem written_eq_iff (log : List α) (a b : ℕ) :
    written render log a = written render log b ↔ Silent render (between log a b) := by
  obtain hle | hle := Nat.le_total a b
  · exact written_eq_iff_of_le hle
  · rw [between_comm, eq_comm]
    exact written_eq_iff_of_le hle

end Reading

section Model

/-- Rows of one page. -/
def pageLimit : ℕ := 1000

/-- What a record puts on the terminal. -/
def ioBytes (record : StoredRecord) : Octets := if record.kind = "io" then record.payload else []

/-- The rows of a query: those that it gives before it ends or fails. -/
def recordsFrom (db : SessionDb) (afterSeq limit served : ℕ) : List StoredRecord :=
  (db.getRecordsFrom afterSeq limit).take served

/-- Write the new io records and remember the number of the last record. The
database may not open; else the query gives so many rows. -/
def drainIo (db : SessionDb) (reads : Option ℕ) (lastSeq : ℕ) (stdout : Octets) : ℕ × Octets :=
  match reads with
  | none => (lastSeq, stdout)
  | some served =>
    (recordsFrom db lastSeq pageLimit served).foldl
      (fun (state : ℕ × Octets) record =>
        (record.seq, if record.kind = "io" then state.2 ++ record.payload else state.2))
      (lastSeq, stdout)

/-- The exit code of the command for the one of the runner, if it has one. -/
def exitCodeOf : Option ℤ → ℕ
  | some code => (code % 256).toNat
  | none => 1

/-- Where the loop stands. -/
inductive Phase where
  /-- Before the drain of a round. -/
  | draining
  /-- Before the size of the terminal is read. -/
  | sampling
  /-- Before the runner is asked whether it has exited. -/
  | waiting
  /-- The runner has exited; the records that were there then are kept for
  the specification. -/
  | lastDrain (code : ℕ) (present : List StoredRecord)
  /-- The command has returned. -/
  | returned (code : ℕ) (present : List StoredRecord)
  /-- The command has returned, for the runner cannot be waited for. -/
  | unreaped

/-- A passthrough session. -/
structure State where
  /-- The database of the session. -/
  db : SessionDb
  /-- The number of the last record seen. -/
  lastSeq : ℕ
  /-- The size of the terminal that the runner knows. -/
  lastSize : ℕ × ℕ
  /-- The daemon is connected. -/
  connected : Bool
  /-- What has been written. -/
  stdout : Octets
  /-- The resize messages that have been sent. -/
  resizes : List (ℕ × ℕ)
  /-- Where the loop stands. -/
  phase : Phase

/-- What waiting for the runner gives. -/
inductive Wait where
  | running
  | exited (status : Option ℤ)
  | error

/-- What the command finds when it goes on. -/
structure Seen where
  /-- The rows that a query gives, if the database opens. -/
  reads : Option ℕ
  /-- The size of the terminal. -/
  size : ℕ × ℕ
  /-- The state of the runner. -/
  wait : Wait

/-- The daemon stores a record, or the command goes on. -/
inductive Event where
  | append (kind : String) (ts : ℤ) (payload : Octets) (ns name : Option String)
  | proceed (seen : Seen)

/-- The runner has been spawned. -/
def start (db : SessionDb) (size : ℕ × ℕ) (connected : Bool) : State :=
  ⟨db, 0, size, connected, [], [], .draining⟩

/-- Drain and go to a phase. -/
def State.drain (s : State) (reads : Option ℕ) (phase : Phase) : State :=
  let drained := drainIo s.db reads s.lastSeq s.stdout
  { s with lastSeq := drained.1, stdout := drained.2, phase := phase }

/-- Tell the runner a new size of the terminal. -/
def State.sample (s : State) (size : ℕ × ℕ) : State :=
  if s.connected ∧ size ≠ s.lastSize then
    { s with lastSize := size, resizes := s.resizes ++ [size], phase := .waiting }
  else { s with phase := .waiting }

/-- Ask whether the runner has exited. -/
def State.tryWait (s : State) : Wait → State
  | .running => { s with phase := .draining }
  | .exited status => { s with phase := .lastDrain (exitCodeOf status) s.db.rows }
  | .error => { s with phase := .unreaped }

/-- One step of the session. -/
def step (s : State) : Event → State
  | .append kind ts payload ns name => { s with db := (s.db.append kind ts payload ns name).1 }
  | .proceed seen =>
    match s.phase with
    | .draining => s.drain seen.reads .sampling
    | .sampling => s.sample seen.size
    | .waiting => s.tryWait seen.wait
    | .lastDrain code present => s.drain seen.reads (.returned code present)
    | .returned _ _ => s
    | .unreaped => s

end Model

section Drains

theorem foldl_drain {records : List StoredRecord} {lastSeq count : ℕ} (stdout : Octets)
    (h : records.map StoredRecord.seq = List.range' (lastSeq + 1) count) :
    records.foldl
        (fun (state : ℕ × Octets) record =>
          (record.seq, if record.kind = "io" then state.2 ++ record.payload else state.2))
        (lastSeq, stdout) =
      (lastSeq + records.length, stdout ++ records.flatMap ioBytes) := by
  induction records generalizing lastSeq count stdout with
  | nil => rw [List.foldl_nil, List.length_nil, List.flatMap_nil, List.append_nil, Nat.add_zero]
  | cons record records ih =>
    cases count with
    | zero => cases h
    | succ count =>
      rw [List.map_cons, List.range'_succ, List.cons.injEq] at h
      have hbytes : (if record.kind = "io" then stdout ++ record.payload else stdout) =
          stdout ++ ioBytes record := by
        rw [ioBytes]
        split
        · rfl
        · rw [List.append_nil]
      rw [List.foldl_cons, hbytes, h.1, ih _ h.2, List.length_cons, List.flatMap_cons,
        List.append_assoc, Nat.add_right_comm, Nat.add_assoc]

/-- The rows of a page are the next ones of the table. -/
theorem recordsFrom_eq (db : SessionDb) (afterSeq limit served : ℕ) :
    recordsFrom db afterSeq limit served = (db.rows.drop afterSeq).take (min served limit) := by
  rw [recordsFrom, db.getRecordsFrom_eq, List.take_take]

theorem recordsFrom_seqs (db : SessionDb) (afterSeq limit served : ℕ) :
    ∃ count, (recordsFrom db afterSeq limit served).map StoredRecord.seq =
      List.range' (afterSeq + 1) count := by
  rw [recordsFrom, List.map_take, db.getRecordsFrom_seqs_eq, take_range'_eq]
  exact ⟨_, rfl⟩

/-- Where a drain comes to when there are rows enough. -/
def drainEnd (lastSeq : ℕ) : Option ℕ → ℕ
  | none => lastSeq
  | some served => lastSeq + min served pageLimit

/-- A drain goes on with what has been written, and stops at the last row. -/
theorem drainIo_eq (db : SessionDb) (reads : Option ℕ) {lastSeq : ℕ} {stdout : Octets}
    (hseq : lastSeq ≤ db.rows.length) (hout : stdout = written ioBytes db.rows lastSeq) :
    (drainIo db reads lastSeq stdout).1 = min db.rows.length (drainEnd lastSeq reads) ∧
      (drainIo db reads lastSeq stdout).2 = written ioBytes db.rows (drainEnd lastSeq reads) := by
  cases reads with
  | none => exact ⟨(Nat.min_eq_right hseq).symm, hout⟩
  | some served =>
    obtain ⟨count, hcount⟩ := recordsFrom_seqs db lastSeq pageLimit served
    rw [drainIo, foldl_drain stdout hcount, recordsFrom_eq]
    dsimp only
    rw [drainEnd, written_add, hout, List.length_take, List.length_drop]
    exact ⟨by omega, rfl⟩

end Drains

section Invariant

/-- What has been written is what a front of the table renders to; at the last
drain the rows that were there at the exit are a front of it. -/
structure Inv (s : State) : Prop where
  /-- Only rows of the table have been seen. -/
  seq_le : s.lastSeq ≤ s.db.rows.length
  /-- They have been written. -/
  stdout_eq : s.stdout = written ioBytes s.db.rows s.lastSeq
  /-- The table has only grown since the exit. -/
  present_le : ∀ code present, s.phase = .lastDrain code present → present <+: s.db.rows

theorem inv_start (db : SessionDb) (size : ℕ × ℕ) (connected : Bool) :
    Inv (start db size connected) :=
  ⟨Nat.zero_le _, rfl, fun _ _ h => by cases h⟩

theorem inv_drain {s : State} (h : Inv s) (reads : Option ℕ) {phase : Phase}
    (hphase : ∀ code present, phase ≠ .lastDrain code present) : Inv (s.drain reads phase) := by
  obtain ⟨hseq, hout⟩ := drainIo_eq s.db reads h.seq_le h.stdout_eq
  refine ⟨?_, ?_, ?_⟩
  · rw [State.drain]
    dsimp only
    rw [hseq]
    exact Nat.min_le_left _ _
  · rw [State.drain]
    dsimp only
    rw [hseq, hout, written_min_length]
  · intro code present heq
    exact absurd heq (hphase code present)

theorem inv_append {s : State} (h : Inv s) (kind : String) (ts : ℤ) (payload : Octets)
    (ns name : Option String) : Inv (step s (.append kind ts payload ns name)) := by
  refine ⟨?_, ?_, ?_⟩
  · exact h.seq_le.trans (List.prefix_append _ _).length_le
  · exact h.stdout_eq.trans (written_append h.seq_le _).symm
  · intro code present heq
    exact (h.present_le code present heq).trans (List.prefix_append _ _)

theorem inv_sample {s : State} (h : Inv s) (size : ℕ × ℕ) : Inv (s.sample size) := by
  rw [State.sample]
  split
  · exact ⟨h.seq_le, h.stdout_eq, fun _ _ heq => by cases heq⟩
  · exact ⟨h.seq_le, h.stdout_eq, fun _ _ heq => by cases heq⟩

theorem inv_tryWait {s : State} (h : Inv s) (wait : Wait) : Inv (s.tryWait wait) := by
  cases wait with
  | running => exact ⟨h.seq_le, h.stdout_eq, fun _ _ heq => by cases heq⟩
  | exited status =>
    refine ⟨h.seq_le, h.stdout_eq, ?_⟩
    intro code present heq
    cases heq
    exact List.prefix_refl _
  | error => exact ⟨h.seq_le, h.stdout_eq, fun _ _ heq => by cases heq⟩

theorem inv_step (s : State) (e : Event) (h : Inv s) : Inv (step s e) := by
  cases e with
  | append kind ts payload ns name => exact inv_append h kind ts payload ns name
  | proceed seen =>
    rw [step]
    split
    · exact inv_drain h _ (fun _ _ heq => by cases heq)
    · exact inv_sample h _
    · exact inv_tryWait h _
    · exact inv_drain h _ (fun _ _ heq => by cases heq)
    · exact h
    · exact h

end Invariant

section Output

/-- After the runner's exit the command has written all output that was
recorded then, in order and once. -/
def PrintsWhole (s : State) : Prop :=
  ∀ code present, s.phase = .returned code present → s.stdout = present.flatMap ioBytes

/-- At the last drain there are no bytes between the end of the page and the
last record that was there at the exit, whichever comes first. -/
def LastDrainComplete (s : State) : Event → Prop
  | .append _ _ _ _ _ => True
  | .proceed seen => ∀ code present, s.phase = .lastDrain code present →
      Silent ioBytes (between s.db.rows (drainEnd s.lastSeq seen.reads) present.length)

/-- In any case the output is that of the first records, in order and once. -/
theorem stdout_run (db : SessionDb) (size : ℕ × ℕ) (connected : Bool) (events : List Event) :
    let s := runFrom step (start db size connected) events
    s.stdout = (s.db.rows.take s.lastSeq).flatMap ioBytes :=
  (runFrom_induction inv_step (inv_start db size connected) events).stdout_eq

theorem printsWhole_of_phase {s : State} (h : ∀ code present, s.phase ≠ .returned code present) :
    PrintsWhole s :=
  fun code present heq => absurd heq (h code present)

/-- The last drain decides. -/
theorem printsWhole_lastDrain {s : State} (hinv : Inv s) {code : ℕ} {present : List StoredRecord}
    (hphase : s.phase = .lastDrain code present) (reads : Option ℕ) :
    PrintsWhole (s.drain reads (.returned code present)) ↔
      Silent ioBytes (between s.db.rows (drainEnd s.lastSeq reads) present.length) := by
  have hout : (s.drain reads (.returned code present)).stdout =
      written ioBytes s.db.rows (drainEnd s.lastSeq reads) :=
    (drainIo_eq s.db reads hinv.seq_le hinv.stdout_eq).2
  have hwhole := @written_length _ _ ioBytes _ _ (hinv.present_le code present hphase)
  rw [← written_eq_iff, hwhole]
  constructor
  · intro h
    rw [← hout]
    exact h code present rfl
  · intro h code' present' heq
    cases heq
    rw [hout, h]

/-- Only the last drain makes the command return. -/
theorem phase_of_returned {s : State} {seen : Seen} {code : ℕ} {present : List StoredRecord}
    (h : (step s (.proceed seen)).phase = .returned code present) :
    s.phase = .lastDrain code present ∨ s.phase = .returned code present := by
  rw [step] at h
  split at h
  · cases h
  · rw [State.sample] at h
    split at h <;> cases h
  · cases hwait : seen.wait with
    | running => rw [hwait] at h; cases h
    | exited status => rw [hwait] at h; cases h
    | error => rw [hwait] at h; cases h
  · next hphase =>
    cases h
    exact .inl hphase
  · exact .inr h
  · exact .inr h

/-- A step keeps the output whole exactly under the condition. -/
theorem printsWhole_step (s : State) (e : Event) (hinv : Inv s) (h : PrintsWhole s) :
    PrintsWhole (step s e) ↔ LastDrainComplete s e := by
  cases e with
  | append kind ts payload ns name => exact iff_of_true h trivial
  | proceed seen =>
    by_cases hlast : ∃ code present, s.phase = .lastDrain code present
    · obtain ⟨code, present, hphase⟩ := hlast
      have hstep : step s (.proceed seen) = s.drain seen.reads (.returned code present) := by
        rw [step, hphase]
      rw [hstep, printsWhole_lastDrain hinv hphase, LastDrainComplete]
      constructor
      · intro hsilent code' present' heq
        cases hphase.symm.trans heq
        exact hsilent
      · intro hall
        exact hall code present hphase
    · refine iff_of_true ?_ (fun code present heq => absurd ⟨code, present, heq⟩ hlast)
      intro code present heq
      obtain hdrain | hreturned := phase_of_returned heq
      · exact absurd ⟨code, present, hdrain⟩ hlast
      · have hstep : step s (.proceed seen) = s := by rw [step, hreturned]
        rw [hstep]
        exact h code present hreturned

/-- The output is whole in every state of a run exactly when its last drain is
complete. -/
theorem printsWhole_run_iff (db : SessionDb) (size : ℕ × ℕ) (connected : Bool)
    (events : List Event) :
    (∀ before, before <+: events →
        PrintsWhole (runFrom step (start db size connected) before)) ↔
      Meets step LastDrainComplete (start db size connected) events :=
  forall_prefix_iff_meets inv_step printsWhole_step (inv_start db size connected)
    (printsWhole_of_phase fun _ _ heq => by cases heq) events

end Output

section FastRunner

/-- Everything can be read and the runner is in some state. -/
def seenWith (wait : Wait) : Event := .proceed ⟨some pageLimit, (80, 24), wait⟩

/-- A record of one byte. -/
def oneByte : Event := .append "io" 0 [10] none none

/-- A runner that reports all its output after the first drain and exits. -/
def fastRunner (count : ℕ) : List Event :=
  [seenWith .running, seenWith .running] ++
    (List.replicate count oneByte ++ [seenWith (.exited (some 0)), seenWith .running])

theorem runFrom_oneByte (s : State) (count : ℕ) :
    ∃ db : SessionDb, runFrom step s (List.replicate count oneByte) = { s with db := db } ∧
      ∃ more, db.rows = s.db.rows ++ more ∧ more.length = count ∧
        ∀ row ∈ more, ioBytes row = [10] := by
  induction count generalizing s with
  | zero => exact ⟨s.db, rfl, [], (List.append_nil _).symm, rfl, fun row hrow => by cases hrow⟩
  | succ count ih =>
    obtain ⟨db, hrun, more, hrows, hlength, hbytes⟩ := ih (step s oneByte)
    refine ⟨db, ?_, ⟨s.db.rows.length + 1, "io", 0, none, none, [10]⟩ :: more, ?_, ?_, ?_⟩
    · rw [List.replicate_succ, runFrom_cons, hrun]
      rfl
    · rw [List.append_cons]
      exact hrows
    · rw [List.length_cons, hlength]
    · intro row hrow
      cases hrow with
      | head => rfl
      | tail _ hmore => exact hbytes row hmore

/-- One record more than a page is left at the exit, and it is not written. -/
theorem printsWhole_fastRunner :
    ¬PrintsWhole (runFrom step (start .empty (80, 24) false) (fastRunner 1001)) := by
  have hfirst : runFrom step (start .empty (80, 24) false)
      [seenWith .running, seenWith .running] =
        { start .empty (80, 24) false with phase := .waiting } := rfl
  obtain ⟨db, hrun, more, hrows, hlength, hbytes⟩ :=
    runFrom_oneByte { start .empty (80, 24) false with phase := .waiting } 1001
  have hmore : db.rows = more := hrows
  rw [fastRunner, runFrom_append, hfirst, runFrom_append, hrun]
  have hinv : Inv { start db (80, 24) false with phase := .lastDrain 0 db.rows } :=
    ⟨Nat.zero_le _, rfl, fun _ _ heq => by cases heq; exact List.prefix_refl _⟩
  intro hwhole
  have hsilent := (printsWhole_lastDrain hinv rfl (some pageLimit)).mp hwhole
  obtain ⟨last, hlast⟩ : ∃ last, last ∈ between db.rows 1000 db.rows.length := by
    apply List.exists_mem_of_length_pos
    rw [between_of_le _ (by rw [hmore]; omega), List.length_take, List.length_drop, hmore]
    omega
  have hnone : ioBytes last = [] := hsilent last hlast
  have hmem : last ∈ more := by
    rw [between] at hlast
    rw [← hmore]
    exact List.mem_of_mem_take (List.mem_of_mem_drop hlast)
  rw [hbytes last hmem] at hnone
  cases hnone

end FastRunner

end Teleprompter.PassthroughOutput
