import Mathlib.Tactic.NormNum
import Teleprompter.Base64
import Teleprompter.SessionRecords
import Teleprompter.StepRuns

/-!
# Live and replayed records

A frontend sees a record twice: live, in the words of the runner's message,
and again in the answer to a later resume, rebuilt from the stored row. The
row keeps the bytes of the payload and an integer timestamp, so the two agree
exactly when the timestamp is a whole 64-bit number and the payload is really
base64.
-/

namespace Teleprompter.RecordReplay

open SessionRecords StepRuns

/-- What is relied on of the base64 library: a text decodes to some bytes
exactly when it is their canonical text. -/
structure Lawful (codec : Base64Codec) : Prop where
  /-- The decoder inverts the encoder and accepts nothing else. -/
  decode_iff : ∀ text octets, codec.decode text = some octets ↔ codec.encode octets = text

/-- The standard alphabet with required padding. -/
def standardCodec : Base64Codec := ⟨Base64.encode, Base64.decode⟩

/-- The standard codec is canonical. -/
theorem standardCodec_lawful : Lawful standardCodec := ⟨Base64.decode_eq_some_iff⟩

/-- What is relied on where the text itself matters: it consists of digits of
the alphabet with padding to groups of four. -/
structure StandardText (codec : Base64Codec) : Prop extends Lawful codec where
  /-- The form of a text. -/
  form : ∀ octets, ∃ body pads,
    Base64.TextForm octets.length (codec.encode octets).toList body pads

/-- The standard codec writes standard text. -/
theorem standardCodec_standardText : StandardText standardCodec where
  toLawful := standardCodec_lawful
  form := fun octets => by
    have htext : (standardCodec.encode octets).toList = Base64.encodeChars octets :=
      String.toList_ofList
    rw [htext]
    exact Base64.encodeChars_form octets

/-- What may happen to the store after a record was published. -/
inductive RecordEvent where
  /-- A runner reports a record. -/
  | report (msg : RecMsg) (binary : Option Octets) (disk : DiskOutcome)
  /-- A frontend asks for the rows above a cursor. -/
  | resume (sid : String) (cursor : ℕ) (disk : DiskOutcome)

/-- The store after one event. -/
def recordStep (codec : Base64Codec) (store : RecordStore) : RecordEvent → RecordStore
  | .report msg binary disk => (handleRec codec store msg binary disk).1
  | .resume sid cursor disk => (handleRelayResume codec store sid cursor disk).1

/-- A timestamp that a 64-bit integer holds. -/
def WholeI64 (ts : ℚ) : Prop :=
  ts.den = 1 ∧ -9223372036854775808 ≤ ts.num ∧ ts.num ≤ 9223372036854775807

instance : DecidablePred WholeI64 := fun _ => inferInstanceAs (Decidable (_ ∧ _ ∧ _))

/-- The bytes of the payload are beside the message, or its text is base64. -/
def HasBytes (codec : Base64Codec) (msg : RecMsg) (binary : Option Octets) : Prop :=
  binary.isSome = true ∨ (codec.decode msg.payload).isSome = true

/-- The row that a record is stored in. -/
def storedRow (codec : Base64Codec) (msg : RecMsg) (binary : Option Octets) (seq : ℕ) :
    StoredRecord :=
  { seq
    kind := recordKindStr msg.kind
    ts := asI64 msg.ts
    ns := msg.ns.map namespaceStr
    name := msg.name
    payload := (payloadForms codec msg binary).1 }

/-- After any further events, the row of a published record is there to be
read, and every read of it shows what was published. -/
def Replays (codec : Base64Codec) (store : RecordStore) (sid : String) (live : SessionRec) : Prop :=
  ∀ later cursor limit,
    let rows := ((runFrom (recordStep codec) store later).sessionDb sid).getRecordsFrom cursor limit
    (cursor < live.seq → live.seq ≤ cursor + limit → ∃ row ∈ rows, row.seq = live.seq) ∧
      ∀ row ∈ rows, row.seq = live.seq → toSessionRec codec sid row = live

/-- Truncation keeps exactly the whole 64-bit timestamps. -/
theorem asI64_eq_iff (ts : ℚ) : (asI64 ts : ℚ) = ts ↔ WholeI64 ts := by
  constructor
  · intro h
    have hden : ts.den = 1 := by
      rw [← h]
      exact Rat.den_intCast _
    have hnum : asI64 ts = ts.num := by
      have hcast := congrArg Rat.num h
      rw [Rat.num_intCast] at hcast
      exact hcast
    unfold asI64 at hnum
    refine ⟨hden, ?_, ?_⟩ <;> omega
  · rintro ⟨hden, hlow, hhigh⟩
    have hnum : asI64 ts = ts.num := by
      unfold asI64
      rw [hden, Int.ofNat_one, Int.tdiv_one]
      omega
    rw [hnum]
    exact Rat.coe_int_num_of_den_eq_one hden

/-- Published text and stored bytes agree exactly when the bytes are known. -/
theorem encode_payloadForms_iff {codec : Base64Codec} (hc : Lawful codec) (msg : RecMsg)
    (binary : Option Octets) :
    codec.encode (payloadForms codec msg binary).1 = (payloadForms codec msg binary).2 ↔
      HasBytes codec msg binary := by
  cases binary with
  | some bytes => simp [payloadForms, HasBytes]
  | none =>
    have hempty : codec.decode (codec.encode []) = some [] := (hc.decode_iff _ _).mpr rfl
    cases hdecode : codec.decode msg.payload with
    | none =>
      simp only [payloadForms, HasBytes, hdecode, Option.getD_none, Option.isSome_none,
        Bool.false_eq_true, or_self, iff_false]
      intro heq
      rw [heq, hdecode] at hempty
      contradiction
    | some bytes =>
      have htext := (hc.decode_iff _ _).mp hdecode
      simp [payloadForms, HasBytes, hdecode, htext]

/-- A stored row shows what was published exactly when the timestamp is whole
and the bytes are known. -/
theorem toSessionRec_storedRow_iff {codec : Base64Codec} (hc : Lawful codec) (msg : RecMsg)
    (binary : Option Octets) (seq : ℕ) :
    toSessionRec codec msg.sid (storedRow codec msg binary seq) =
        liveRec msg seq (payloadForms codec msg binary).2 ↔
      WholeI64 msg.ts ∧ HasBytes codec msg binary := by
  rw [← asI64_eq_iff, ← encode_payloadForms_iff hc, toSessionRec, storedRow, liveRec]
  simp only [SessionRec.mk.injEq, toNamespace_namespaceStr, true_and]
  exact and_comm

/-- Later events lose no row. -/
theorem recordStep_extends (codec : Base64Codec) (store : RecordStore) (later : List RecordEvent) :
    (runFrom (recordStep codec) store later).Extends store := by
  have hstep : ∀ s e, RecordStore.Extends s store → (recordStep codec s e).Extends store := by
    intro s e hs sid
    cases e with
    | report msg binary disk =>
      exact (hs sid).trans (handleRec_extends codec s msg binary disk sid)
    | resume sid' cursor disk =>
      exact (hs sid).trans (handleRelayResume_extends codec s sid' cursor disk sid)
  exact runFrom_induction hstep store.extends_refl later

/-- What a published record looks like, and which row it is stored in. -/
theorem handleRec_stored {codec : Base64Codec} {store : RecordStore} {msg : RecMsg}
    {binary : Option Octets} {disk : DiskOutcome} {live : SessionRec}
    (h : (handleRec codec store msg binary disk).2.2 = some (.record live)) :
    live = liveRec msg live.seq (payloadForms codec msg binary).2 ∧
      storedRow codec msg binary live.seq ∈
        ((handleRec codec store msg binary disk).1.sessionDb msg.sid).rows := by
  unfold handleRec at h ⊢
  by_cases ho : disk.opens = true
  · by_cases hx : disk.executes = true
    · simp only [ho, hx, if_true, Option.some.injEq, SessionFrame.record.injEq] at h ⊢
      subst h
      refine ⟨rfl, ?_⟩
      have hdb : ∀ db : SessionDb, (store.setSessionDb msg.sid db).sessionDb msg.sid = db :=
        fun db => (store.sessionDb_setSessionDb msg.sid msg.sid db).trans (if_pos rfl)
      have hrow : ∀ db : SessionDb, (if disk.updatesRow = true then
          (store.setSessionDb msg.sid db).updateLastSeq msg.sid
            ((store.sessionDb msg.sid).rows.length + 1)
          else store.setSessionDb msg.sid db).sessionDb msg.sid = db := by
        intro db
        by_cases hu : disk.updatesRow = true
        · rw [if_pos hu]
          exact hdb db
        · rw [if_neg hu]
          exact hdb db
      have hmem : ∀ seq, seq = (store.sessionDb msg.sid).rows.length + 1 →
          storedRow codec msg binary seq ∈ ((store.sessionDb msg.sid).append
            (recordKindStr msg.kind) (asI64 msg.ts) (payloadForms codec msg binary).1
            (msg.ns.map namespaceStr) msg.name).1.rows := by
        intro seq hseq
        rw [hseq]
        exact List.mem_append_right _ (List.mem_singleton.mpr rfl)
      have hstored := hmem _ rfl
      rw [← hrow ((store.sessionDb msg.sid).append _ _ _ _ _).1] at hstored
      exact hstored
    · simp [ho, hx] at h
  · simp [ho] at h

/-- Rows of one database have different numbers. -/
theorem row_eq_of_seq_eq (db : SessionDb) {row row' : StoredRecord} (h : row ∈ db.rows)
    (h' : row' ∈ db.rows) (hseq : row.seq = row'.seq) : row = row' := by
  have hnodup : (db.rows.map StoredRecord.seq).Nodup := by
    rw [db.numbered]
    exact List.nodup_range'
  exact List.inj_on_of_nodup_map hnodup h h' hseq

/-- The row of a number above the cursor and within the limit is read. -/
theorem exists_mem_getRecordsFrom (db : SessionDb) {row : StoredRecord} (h : row ∈ db.rows)
    {cursor limit : ℕ} (hlow : cursor < row.seq) (hhigh : row.seq ≤ cursor + limit) :
    ∃ read ∈ db.getRecordsFrom cursor limit, read.seq = row.seq := by
  have hnumber : row.seq ∈ db.rows.map StoredRecord.seq := List.mem_map_of_mem h
  rw [db.numbered, List.mem_range'_1] at hnumber
  have hread : row.seq ∈ (db.getRecordsFrom cursor limit).map StoredRecord.seq := by
    rw [db.getRecordsFrom_seqs_eq, List.mem_range'_1]
    omega
  exact List.mem_map.mp hread

/-- A published record is replayed as it was seen live exactly when its
timestamp is a whole 64-bit number and its payload is base64. -/
theorem replay_eq_live_iff {codec : Base64Codec} (hc : Lawful codec) {store : RecordStore}
    {msg : RecMsg} {binary : Option Octets} {disk : DiskOutcome} {live : SessionRec}
    (h : (handleRec codec store msg binary disk).2.2 = some (.record live)) :
    Replays codec (handleRec codec store msg binary disk).1 msg.sid live ↔
      WholeI64 msg.ts ∧ HasBytes codec msg binary := by
  obtain ⟨hlive, hrow⟩ := handleRec_stored h
  rw [← toSessionRec_storedRow_iff hc msg binary live.seq, ← hlive]
  have hkept : ∀ later, storedRow codec msg binary live.seq ∈ ((runFrom (recordStep codec)
      (handleRec codec store msg binary disk).1 later).sessionDb msg.sid).rows :=
    fun later => (recordStep_extends codec _ later msg.sid).subset hrow
  have hread : ∀ later cursor limit, cursor < live.seq → live.seq ≤ cursor + limit →
      ∃ row ∈ ((runFrom (recordStep codec) (handleRec codec store msg binary disk).1
        later).sessionDb msg.sid).getRecordsFrom cursor limit, row.seq = live.seq :=
    fun later cursor limit => exists_mem_getRecordsFrom _ (hkept later)
  have hunique : ∀ later cursor limit, ∀ row ∈ ((runFrom (recordStep codec)
      (handleRec codec store msg binary disk).1 later).sessionDb msg.sid).getRecordsFrom
        cursor limit, row.seq = live.seq → row = storedRow codec msg binary live.seq := by
    intro later cursor limit row hmem hseq
    have hin := List.mem_of_mem_filter (List.mem_of_mem_take hmem)
    exact row_eq_of_seq_eq _ hin (hkept later) hseq
  constructor
  · intro hreplays
    have hpos : 0 < live.seq := by
      have hnumber := List.mem_map_of_mem (f := StoredRecord.seq) (hkept [])
      rw [SessionDb.numbered, List.mem_range'_1] at hnumber
      exact hnumber.1
    obtain ⟨row, hmem, hseq⟩ := hread [] 0 live.seq hpos (by omega)
    have hshown := (hreplays [] 0 live.seq).2 row hmem hseq
    rw [hunique [] 0 live.seq row hmem hseq] at hshown
    exact hshown
  · intro hshown later cursor limit
    refine ⟨hread later cursor limit, ?_⟩
    intro row hmem hseq
    rw [hunique later cursor limit row hmem hseq]
    exact hshown

/-- A store without sessions. -/
def emptyRecordStore : RecordStore := ⟨∅, ∅⟩

/-- An event of the session `s`, with three zero bytes as its payload. -/
def sampleEvent (ts : ℚ) : RecMsg := ⟨"s", .event, ts, some .claude, none, "AAAA"⟩

/-- A record with a whole timestamp and base64 text is replayed unchanged. -/
theorem replay_eq_live_whole :
    Replays standardCodec
      (handleRec standardCodec emptyRecordStore (sampleEvent 2) none workingDisk).1 "s"
      (liveRec (sampleEvent 2) 1 "AAAA") :=
  (replay_eq_live_iff standardCodec_lawful rfl).mpr
    ⟨by decide, Or.inr (by decide +kernel)⟩

/-- A record of one and a half milliseconds is replayed as one. -/
theorem replay_ne_live_fraction :
    (handleRec standardCodec emptyRecordStore (sampleEvent (3 / 2)) none workingDisk).2.2 =
        some (.record (liveRec (sampleEvent (3 / 2)) 1 "AAAA")) ∧
      ¬Replays standardCodec
        (handleRec standardCodec emptyRecordStore (sampleEvent (3 / 2)) none workingDisk).1 "s"
        (liveRec (sampleEvent (3 / 2)) 1 "AAAA") := by
  refine ⟨rfl, fun hreplays => ?_⟩
  have hshown := (hreplays [] 0 1).2 ⟨1, "event", 1, some "claude", none, [0, 0, 0]⟩
    (by decide +kernel) rfl
  have hts : ((1 : ℤ) : ℚ) = 3 / 2 := congrArg SessionRec.ts hshown
  norm_num at hts

end Teleprompter.RecordReplay
