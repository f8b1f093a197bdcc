import Teleprompter.DisplayedTimes
import Teleprompter.JsonValues
import Teleprompter.LossyUtf8
import Teleprompter.PassthroughOutput

/-!
# Following a session in the logs

The logs command follows the database of a session. It polls it forever: each
time it takes the records above the last number it has seen, writes the
terminal output among them and describes the events on the other stream. Unlike
a passthrough session it decodes the output of each record by itself.
-/

namespace Teleprompter.LogsTail

open DisplayedTimes JsonValues LossyUtf8 PassthroughOutput SessionRecords StepRuns

section Model

/-- A field of an event. What is no object has no fields. -/
def eventField (event : Json) (key : String) : Json :=
  (event.asObject.bind fun fields => fields.get key).getD .null

/-- What an event prints. -/
def describeEvent (ts : ℤ) (event : Json) : List String :=
  let name := ((eventField event "hook_event_name").asStr.orElse
    fun _ => (eventField event "name").asStr).getD "unknown"
  let said := match (eventField event "last_assistant_message").asStr with
    | some lam => ["  → " ++ String.ofList (lam.toList.take 200)]
    | none => []
  let used := match (eventField event "tool_name").asStr with
    | some tool => ["  tool: " ++ tool]
    | none => []
  ["\n[" ++ formatTimeOfDay ts ++ "] event " ++ name] ++ said ++ used

/-- What has been printed on the two streams, behind the last number seen. -/
structure Printed where
  lastSeq : ℕ
  stdout : Octets
  stderr : List String

/-- Print a record. `parse` reads a JSON text. -/
def printRecord (parse : List Char → Option Json) (printed : Printed) (r : StoredRecord) :
    Printed :=
  match r.kind with
  | "io" =>
    { printed with lastSeq := r.seq, stdout := printed.stdout ++ encode (fromUtf8Lossy r.payload) }
  | "event" =>
    match parse (fromUtf8Lossy r.payload) with
    | none => { printed with lastSeq := r.seq }
    | some event =>
      { printed with lastSeq := r.seq, stderr := printed.stderr ++ describeEvent r.ts event }
  | _ => { printed with lastSeq := r.seq }

/-- One poll. The database may not open; else the query gives so many rows. -/
def tick (parse : List Char → Option Json) (db : SessionDb) (reads : Option ℕ)
    (printed : Printed) : Printed :=
  match reads with
  | none => printed
  | some served =>
    (recordsFrom db printed.lastSeq pageLimit served).foldl (printRecord parse) printed

/-- A session that is followed. -/
structure State where
  /-- The database of the session. -/
  db : SessionDb
  /-- What has been printed. -/
  printed : Printed

/-- The daemon stores a record, or the command polls. -/
inductive Event where
  | append (kind : String) (ts : ℤ) (payload : Octets) (ns name : Option String)
  | poll (reads : Option ℕ)

/-- The command has printed its banner. -/
def start (db : SessionDb) : State := ⟨db, ⟨0, [], []⟩⟩

/-- One step. -/
def step (parse : List Char → Option Json) (s : State) : Event → State
  | .append kind ts payload ns name => { s with db := (s.db.append kind ts payload ns name).1 }
  | .poll reads => { s with printed := tick parse s.db reads s.printed }

end Model

section Rendering

variable {parse : List Char → Option Json}

/-- The terminal output of a record, decoded and written again. -/
def ioText (r : StoredRecord) : Octets :=
  if r.kind = "io" then encode (fromUtf8Lossy r.payload) else []

/-- The lines of a record. -/
def eventLines (parse : List Char → Option Json) (r : StoredRecord) : List String :=
  if r.kind = "event" then
    match parse (fromUtf8Lossy r.payload) with
    | none => []
    | some event => describeEvent r.ts event
  else []

/-- Every record moves the place, and adds to one stream at most. -/
theorem printRecord_eq (printed : Printed) (r : StoredRecord) :
    printRecord parse printed r =
      ⟨r.seq, printed.stdout ++ ioText r, printed.stderr ++ eventLines parse r⟩ := by
  rw [printRecord, ioText, eventLines]
  split
  · next hkind =>
    rw [hkind, if_pos rfl, if_neg (by decide), List.append_nil]
  · next hkind =>
    rw [hkind, if_neg (by decide), if_pos rfl, List.append_nil]
    split
    · rw [List.append_nil]
    · rfl
  · next hio hevent =>
    rw [if_neg hio, if_neg hevent, List.append_nil, List.append_nil]

/-- Records with consecutive numbers are printed one behind the other. -/
theorem foldl_printRecord {records : List StoredRecord} {printed : Printed} {count : ℕ}
    (h : records.map StoredRecord.seq = List.range' (printed.lastSeq + 1) count) :
    records.foldl (printRecord parse) printed =
      ⟨printed.lastSeq + records.length, printed.stdout ++ records.flatMap ioText,
        printed.stderr ++ records.flatMap (eventLines parse)⟩ := by
  induction records generalizing printed count with
  | nil =>
    rw [List.foldl_nil, List.length_nil, List.flatMap_nil, List.flatMap_nil, List.append_nil,
      List.append_nil, Nat.add_zero]
  | cons r records ih =>
    cases count with
    | zero => cases h
    | succ count =>
      rw [List.map_cons, List.range'_succ, List.cons.injEq] at h
      have hrest : records.map StoredRecord.seq = List.range' (r.seq + 1) count := by
        rw [h.1]
        exact h.2
      rw [List.foldl_cons, printRecord_eq, ih hrest, List.length_cons, List.flatMap_cons,
        List.flatMap_cons, List.append_assoc, List.append_assoc]
      dsimp only
      rw [h.1, Nat.add_right_comm, Nat.add_assoc]

end Rendering

section Invariant

variable {parse : List Char → Option Json}

/-- What has been printed is what a front of the table renders to. -/
structure Inv (parse : List Char → Option Json) (s : State) : Prop where
  /-- Only rows of the table have been seen. -/
  seq_le : s.printed.lastSeq ≤ s.db.rows.length
  stdout_eq : s.printed.stdout = written ioText s.db.rows s.printed.lastSeq
  stderr_eq : s.printed.stderr = written (eventLines parse) s.db.rows s.printed.lastSeq

/-- A poll goes on with what has been printed, and stops at the last row. -/
theorem tick_eq {s : State} (h : Inv parse s) (reads : Option ℕ) :
    (tick parse s.db reads s.printed).lastSeq =
        min s.db.rows.length (drainEnd s.printed.lastSeq reads) ∧
      (tick parse s.db reads s.printed).stdout =
        written ioText s.db.rows (drainEnd s.printed.lastSeq reads) ∧
      (tick parse s.db reads s.printed).stderr =
        written (eventLines parse) s.db.rows (drainEnd s.printed.lastSeq reads) := by
  cases reads with
  | none => exact ⟨(Nat.min_eq_right h.seq_le).symm, h.stdout_eq, h.stderr_eq⟩
  | some served =>
    obtain ⟨count, hcount⟩ := recordsFrom_seqs s.db s.printed.lastSeq pageLimit served
    have hle := h.seq_le
    rw [tick, foldl_printRecord hcount, recordsFrom_eq]
    dsimp only
    rw [drainEnd, written_add, written_add, h.stdout_eq, h.stderr_eq, List.length_take,
      List.length_drop]
    exact ⟨by omega, rfl, rfl⟩

theorem inv_start (db : SessionDb) : Inv parse (start db) := ⟨Nat.zero_le _, rfl, rfl⟩

theorem inv_step (s : State) (e : Event) (h : Inv parse s) : Inv parse (step parse s e) := by
  cases e with
  | append kind ts payload ns name =>
    refine ⟨?_, ?_, ?_⟩
    · exact h.seq_le.trans (List.prefix_append _ _).length_le
    · exact h.stdout_eq.trans (written_append h.seq_le _).symm
    · exact h.stderr_eq.trans (written_append h.seq_le _).symm
  | poll reads =>
    obtain ⟨hseq, hstdout, hstderr⟩ := tick_eq h reads
    refine ⟨?_, ?_, ?_⟩
    · rw [step, hseq]
      exact Nat.min_le_left _ _
    · rw [step, hseq, hstdout, written_min_length]
    · rw [step, hseq, hstderr, written_min_length]

end Invariant

section Output

/-- The payloads of the terminal output among the records. -/
def ioPayloads (records : List StoredRecord) : List Octets :=
  (records.filter fun r => r.kind = "io").map StoredRecord.payload

theorem flatMap_ioText (records : List StoredRecord) :
    records.flatMap ioText =
      (ioPayloads records).flatMap fun chunk => encode (fromUtf8Lossy chunk) := by
  induction records with
  | nil => rfl
  | cons r records ih =>
    rw [List.flatMap_cons, ih, ioText, ioPayloads, ioPayloads, List.filter_cons]
    by_cases hkind : r.kind = "io"
    · rw [if_pos hkind, if_pos (by rw [hkind]; rfl), List.map_cons, List.flatMap_cons]
    · rw [if_neg hkind, if_neg (by rw [decide_eq_false hkind]; decide), List.nil_append]

theorem flatMap_ioBytes (records : List StoredRecord) :
    records.flatMap ioBytes = (ioPayloads records).flatten := by
  induction records with
  | nil => rfl
  | cons r records ih =>
    rw [List.flatMap_cons, ih, ioBytes, ioPayloads, ioPayloads, List.filter_cons]
    by_cases hkind : r.kind = "io"
    · rw [if_pos hkind, if_pos (by rw [hkind]; rfl), List.map_cons, List.flatten_cons]
    · rw [if_neg hkind, if_neg (by rw [decide_eq_false hkind]; decide), List.nil_append]

theorem encode_injective {a b : List Char} (h : encode a = encode b) : a = b := by
  rw [← fromUtf8Lossy_encode a, h, fromUtf8Lossy_encode]

theorem flatMap_encode (chunks : List Octets) :
    (chunks.flatMap fun chunk => encode (fromUtf8Lossy chunk)) =
      encode (chunks.flatMap fromUtf8Lossy) := by
  rw [encode, List.flatMap_assoc]
  rfl

/-- After every run the two streams hold the records up to the last one seen, in order and
once. The output is the text of the whole terminal stream exactly when no record ends
inside a character that the output behind it goes on with; it is the bytes that a
passthrough session writes exactly when each record is UTF-8 by itself. -/
theorem printed_run (parse : List Char → Option Json) (db : SessionDb) (events : List Event) :
    let s := runFrom (step parse) (start db) events
    let seen := s.db.rows.take s.printed.lastSeq
    s.printed.stdout = seen.flatMap ioText ∧
      s.printed.stderr = seen.flatMap (eventLines parse) ∧
      (s.printed.stdout = encode (fromUtf8Lossy (seen.flatMap ioBytes)) ↔
        Uncut (ioPayloads seen)) ∧
      (s.printed.stdout = seen.flatMap ioBytes ↔
        ∀ chunk ∈ ioPayloads seen, ∃ text, chunk = encode text) := by
  intro s seen
  have hinv : Inv parse s := runFrom_induction inv_step (inv_start db) events
  have hout : s.printed.stdout = seen.flatMap ioText := hinv.stdout_eq
  refine ⟨hout, hinv.stderr_eq, ?_, ?_⟩
  · rw [hout, flatMap_ioText, flatMap_ioBytes, flatMap_encode, ← (flatMap_fromUtf8Lossy _).2]
    exact ⟨encode_injective, congrArg encode⟩
  · rw [hout, flatMap_ioText, flatMap_ioBytes]
    exact (flatMap_encode_fromUtf8Lossy_iff _).2

end Output

section Progress

/-- The database opens and the query gives a whole page. -/
def Event.readsPage : Event → Bool
  | .append _ _ _ _ _ => false
  | .poll none => false
  | .poll (some served) => decide (pageLimit ≤ served)

/-- A step never goes back, and a whole page goes on to its end. -/
theorem lastSeq_step {parse : List Char → Option Json} {s : State} (h : Inv parse s) (e : Event)
    (count : ℕ) :
    min s.db.rows.length (s.printed.lastSeq + pageLimit * (count + bif e.readsPage then 1 else 0)) ≤
      min (step parse s e).db.rows.length
        ((step parse s e).printed.lastSeq + pageLimit * count) := by
  cases e with
  | append kind ts payload ns name =>
    have hgrows : s.db.rows.length ≤ (s.db.append kind ts payload ns name).1.rows.length :=
      (List.prefix_append _ _).length_le
    simp only [Event.readsPage, cond_false, Nat.add_zero, step]
    omega
  | poll reads =>
    have hseq := (tick_eq h reads).1
    have hle := h.seq_le
    simp only [step, hseq]
    cases reads with
    | none =>
      simp only [Event.readsPage, cond_false, Nat.add_zero, drainEnd]
      omega
    | some served =>
      simp only [Event.readsPage, drainEnd]
      by_cases hserved : pageLimit ≤ served
      · rw [decide_eq_true hserved, cond_true, Nat.mul_add, Nat.mul_one]
        omega
      · rw [decide_eq_false hserved, cond_false, Nat.add_zero]
        omega

/-- Behind a state, so many whole pages come to the end of its table, whatever is appended and
whichever polls fail in between. -/
theorem lastSeq_run (parse : List Char → Option Json) (db : SessionDb)
    (before events : List Event) :
    let s := runFrom (step parse) (start db) before
    min s.db.rows.length (s.printed.lastSeq + pageLimit * events.countP Event.readsPage) ≤
      (runFrom (step parse) s events).printed.lastSeq := by
  intro s
  have hinv : Inv parse s := runFrom_induction inv_step (inv_start db) before
  clear_value s
  induction events generalizing s with
  | nil =>
    rw [runFrom_nil, List.countP_nil, Nat.mul_zero, Nat.add_zero]
    exact Nat.min_le_right _ _
  | cons e events ih =>
    have hrest := ih (step parse s e) (inv_step s e hinv)
    have hstep := lastSeq_step hinv e (events.countP Event.readsPage)
    rw [runFrom_cons, List.countP_cons]
    have hcount : (if e.readsPage = true then 1 else 0) = (bif e.readsPage then 1 else 0) := by
      cases e.readsPage <;> rfl
    rw [hcount]
    omega

end Progress

end Teleprompter.LogsTail
