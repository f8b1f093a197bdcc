import Teleprompter.RecordIngest

/-!
# The terminal history of a client

A client keeps the terminal bytes of each session for views that open later. The
store takes a record only above its cursor; the history takes the terminal records
of every frame, those of a batch under the session of the batch. The two agree
exactly when no terminal record is delivered twice or below the cursor and each is
delivered under its own session.
-/

namespace Teleprompter.TerminalHistory

open FiniteDictionary StepRuns SessionRecords AppSessionStore RecordIngest

variable (decoders : PayloadDecoders)

section Model

/-- The bytes of the sessions' terminals, by session. -/
abbrev IoHistory := Dict String Octets

/-- Add the bytes of a terminal record to the history of a session. -/
def accumulate (sid : String) (ioHistory : IoHistory) (rec : SessionRec) : IoHistory :=
  if rec.k = "io" then
    match ioData decoders rec with
    | some d => ioHistory.insert sid ((ioHistory.lookup sid).getD [] ++ d)
    | none => ioHistory
  else ioHistory

/-- A client's history beside its store, and what the store took. -/
structure Terminal where
  ledger : Ledger
  ioHistory : IoHistory

/-- A client before its first frame. -/
def Terminal.initial : Terminal := ⟨⟨SessionStore.empty, []⟩, ∅⟩

/-- A batch is taken by the store, then added to the history of its session. -/
def onBatch (terminal : Terminal) (sid : String) (recs : List SessionRec) : Terminal :=
  ⟨terminal.ledger.offer decoders recs,
    recs.foldl (accumulate decoders sid) terminal.ioHistory⟩

/-- A live record is taken by the store, then added to the history of its session. -/
def onRec (terminal : Terminal) (rec : SessionRec) : Terminal :=
  ⟨terminal.ledger.offer decoders [rec], accumulate decoders rec.sid terminal.ioHistory rec⟩

/-- A client handles a frame. -/
def handleFrame (terminal : Terminal) : SessionFrame → Terminal
  | .record rec => onRec decoders terminal rec
  | .batch sid recs => onBatch decoders terminal sid recs
  | .err _ _ => terminal

end Model

section Statement

/-- The bytes of a terminal record; none of another record or of a payload that does
not decode. -/
def ioBytes (rec : SessionRec) : Octets :=
  if rec.k = "io" then (ioData decoders rec).getD [] else []

/-- The terminal bytes that the store took for a session. -/
def appliedBytes (applied : List SessionRec) (sid : String) : Octets :=
  (applied.filter (·.sid = sid)).flatMap (ioBytes decoders)

/-- The bytes in the history of a session. -/
def historyOf (ioHistory : IoHistory) (sid : String) : Octets := (ioHistory.lookup sid).getD []

/-- The history of each session holds what the store took for it. -/
def HistoryMatches (terminal : Terminal) : Prop :=
  ∀ sid, historyOf terminal.ioHistory sid = appliedBytes decoders terminal.ledger.applied sid

/-- A terminal record with bytes is delivered under its session and above the
cursor. -/
def Fresh (sid : String) (store : SessionStore) (rec : SessionRec) : Prop :=
  ioBytes decoders rec ≠ [] → rec.sid = sid ∧ store.cursor rec.sid < rec.seq

/-- The terminal records of a frame are fresh when the store meets them. -/
def FreshFrame (terminal : Terminal) : SessionFrame → Prop
  | .record rec => Fresh decoders rec.sid terminal.ledger.store rec
  | .batch sid recs =>
    Meets (SessionStore.appendRec decoders) (Fresh decoders sid) terminal.ledger.store recs
  | .err _ _ => True

end Statement

section Batches

/-- What one record adds to the histories. -/
theorem historyOf_accumulate (sid : String) (ioHistory : IoHistory) (rec : SessionRec) (sid' : String) :
    historyOf (accumulate decoders sid ioHistory rec) sid' =
      historyOf ioHistory sid' ++ if sid' = sid then ioBytes decoders rec else [] := by
  rw [accumulate, ioBytes]
  split
  · cases ioData decoders rec with
    | none => simp
    | some d =>
      dsimp only
      rw [historyOf, lookup_insert_eq]
      split
      · rename_i hsid
        rw [hsid]
        rfl
      · exact (List.append_nil _).symm
  · simp

/-- What a batch adds to the histories. -/
theorem historyOf_foldl_accumulate (sid : String) (recs : List SessionRec) (ioHistory : IoHistory)
    (sid' : String) :
    historyOf (recs.foldl (accumulate decoders sid) ioHistory) sid' =
      historyOf ioHistory sid' ++ if sid' = sid then recs.flatMap (ioBytes decoders) else [] := by
  induction recs generalizing ioHistory with
  | nil => simp
  | cons rec recs ih =>
    rw [List.foldl_cons, ih, historyOf_accumulate, List.append_assoc]
    congr 1
    split
    · rw [List.flatMap_cons]
    · rfl

/-- The bytes that a store takes out of a list for a session. -/
def takenBytes (store : SessionStore) (recs : List SessionRec) (sid : String) : Octets :=
  appliedBytes decoders (taken decoders store recs) sid

/-- The first record of a list is taken above the cursor. -/
theorem takenBytes_cons (store : SessionStore) (rec : SessionRec) (recs : List SessionRec)
    (sid : String) :
    takenBytes decoders store (rec :: recs) sid =
      (if rec.sid = sid ∧ store.cursor rec.sid < rec.seq then ioBytes decoders rec else []) ++
        takenBytes decoders (store.appendRec decoders rec) recs sid := by
  rw [takenBytes, taken, appliedBytes, List.filter_append, List.flatMap_append]
  congr 1
  by_cases hseq : rec.seq ≤ store.cursor rec.sid
  · rw [if_pos hseq, if_neg fun h => absurd h.2 (not_lt.mpr hseq)]
    rfl
  · rw [if_neg hseq]
    by_cases hsid : rec.sid = sid
    · have hsingle : [rec].filter (·.sid = sid) = [rec] := by simp [hsid]
      rw [if_pos ⟨hsid, not_le.mp hseq⟩, hsingle, List.flatMap_singleton]
    · have hsingle : [rec].filter (·.sid = sid) = [] := by simp [hsid]
      rw [if_neg fun h => hsid h.1, hsingle, List.flatMap_nil]

/-- A store takes no more bytes than it is offered. -/
theorem length_takenBytes_le (store : SessionStore) (recs : List SessionRec) (sid : String) :
    (takenBytes decoders store recs sid).length ≤ (recs.flatMap (ioBytes decoders)).length := by
  induction recs generalizing store with
  | nil => exact le_rfl
  | cons rec recs ih =>
    rw [takenBytes_cons, List.flatMap_cons, List.length_append, List.length_append]
    refine Nat.add_le_add ?_ (ih _)
    split
    · exact le_rfl
    · exact Nat.zero_le _

/-- All bytes of a batch are taken for its session exactly when its records are
fresh. -/
theorem takenBytes_eq_iff (store : SessionStore) (recs : List SessionRec) (sid : String) :
    recs.flatMap (ioBytes decoders) = takenBytes decoders store recs sid ↔
      Meets (SessionStore.appendRec decoders) (Fresh decoders sid) store recs := by
  induction recs generalizing store with
  | nil => exact ⟨fun _ => trivial, fun _ => rfl⟩
  | cons rec recs ih =>
    have hrest := length_takenBytes_le decoders (store.appendRec decoders rec) recs sid
    rw [Meets, ← ih, takenBytes_cons, List.flatMap_cons]
    constructor
    · intro heq
      by_cases htaken : rec.sid = sid ∧ store.cursor rec.sid < rec.seq
      · rw [if_pos htaken] at heq
        exact ⟨fun _ => htaken, List.append_cancel_left heq⟩
      · rw [if_neg htaken, List.nil_append] at heq
        have hlength := congrArg List.length heq
        rw [List.length_append] at hlength
        have hempty : ioBytes decoders rec = [] := List.eq_nil_of_length_eq_zero (by omega)
        rw [hempty, List.nil_append] at heq
        exact ⟨fun hne => absurd hempty hne, heq⟩
    · rintro ⟨hfresh, heq⟩
      by_cases hempty : ioBytes decoders rec = []
      · rw [hempty, ite_self, heq]
      · rw [if_pos (hfresh hempty), heq]

/-- Fresh records are taken for no other session. -/
theorem takenBytes_eq_nil {sid sid' : String} (hother : sid' ≠ sid) {store : SessionStore}
    {recs : List SessionRec}
    (hfresh : Meets (SessionStore.appendRec decoders) (Fresh decoders sid) store recs) :
    takenBytes decoders store recs sid' = [] := by
  induction recs generalizing store with
  | nil => rfl
  | cons rec recs ih =>
    rw [takenBytes_cons, ih hfresh.2, List.append_nil]
    split
    · rename_i htaken
      by_contra hne
      exact hother (htaken.1.symm.trans (hfresh.1 hne).1)
    · rfl

end Batches

section Runs

variable {terminal : Terminal}

/-- A batch keeps the histories in step exactly when its records are fresh. -/
theorem historyMatches_onBatch_iff (h : HistoryMatches decoders terminal) (sid : String)
    (recs : List SessionRec) :
    HistoryMatches decoders (onBatch decoders terminal sid recs) ↔
      Meets (SessionStore.appendRec decoders) (Fresh decoders sid) terminal.ledger.store recs := by
  have hstep : ∀ sid', historyOf (onBatch decoders terminal sid recs).ioHistory sid' =
      appliedBytes decoders (onBatch decoders terminal sid recs).ledger.applied sid' ↔
        (if sid' = sid then recs.flatMap (ioBytes decoders) else []) =
          takenBytes decoders terminal.ledger.store recs sid' := by
    intro sid'
    have happlied : appliedBytes decoders (onBatch decoders terminal sid recs).ledger.applied sid' =
        appliedBytes decoders terminal.ledger.applied sid' ++
          takenBytes decoders terminal.ledger.store recs sid' := by
      rw [onBatch, Ledger.offer, appliedBytes, List.filter_append, List.flatMap_append]
      rfl
    rw [happlied, onBatch, historyOf_foldl_accumulate, h sid']
    exact List.append_right_inj _
  constructor
  · intro hmatches
    have hsid := (hstep sid).mp (hmatches sid)
    rw [if_pos rfl] at hsid
    exact (takenBytes_eq_iff decoders _ recs sid).mp hsid
  · intro hfresh sid'
    refine (hstep sid').mpr ?_
    split
    · rename_i hsid
      rw [hsid]
      exact (takenBytes_eq_iff decoders _ recs sid).mpr hfresh
    · rename_i hother
      exact (takenBytes_eq_nil decoders hother hfresh).symm

/-- A live record is a batch of its own session. -/
theorem onRec_eq_onBatch (rec : SessionRec) :
    onRec decoders terminal rec = onBatch decoders terminal rec.sid [rec] := rfl

/-- A frame keeps the histories in step exactly when its terminal records are fresh. -/
theorem historyMatches_handleFrame_iff (h : HistoryMatches decoders terminal) (frame : SessionFrame) :
    HistoryMatches decoders (handleFrame decoders terminal frame) ↔
      FreshFrame decoders terminal frame := by
  cases frame with
  | record rec =>
    rw [handleFrame, onRec_eq_onBatch, historyMatches_onBatch_iff decoders h]
    exact and_iff_left trivial
  | batch sid recs => exact historyMatches_onBatch_iff decoders h sid recs
  | err e m => exact ⟨fun _ => trivial, fun _ => h⟩

/-- For every sequence of frames, the histories hold at each of its points what the
store took exactly when every terminal record with bytes is delivered under its own
session and above the cursor that it meets. -/
theorem history_matches_iff_fresh (frames : List SessionFrame) :
    (∀ before, before <+: frames →
      HistoryMatches decoders (runFrom (handleFrame decoders) Terminal.initial before)) ↔
      Meets (handleFrame decoders) (FreshFrame decoders) Terminal.initial frames := by
  have hbase : ∀ (terminal : Terminal) (frame : SessionFrame), True → True := fun _ _ h => h
  have hstep : ∀ (terminal : Terminal) (frame : SessionFrame), True →
      HistoryMatches decoders terminal →
        (HistoryMatches decoders (handleFrame decoders terminal frame) ↔
          FreshFrame decoders terminal frame) :=
    fun _ frame _ h => historyMatches_handleFrame_iff decoders h frame
  exact forall_prefix_iff_meets hbase hstep trivial (fun _ => rfl) frames

/-- Decoders that read one byte from every payload. -/
def byteDecoders : PayloadDecoders := ⟨fun _ => some [97], fun _ => "a", fun _ => none⟩

/-- The first terminal record of a session. -/
def firstRec : SessionRec := ⟨"s", 1, "io", none, none, "YQ==", 0⟩

/-- A record that arrives live and again in a batch is in the history twice. -/
theorem replayed_record_doubles :
    let terminal := runFrom (handleFrame byteDecoders) Terminal.initial
      [.record firstRec, .batch "s" [firstRec]]
    historyOf terminal.ioHistory "s" = [97, 97] ∧
      appliedBytes byteDecoders terminal.ledger.applied "s" = [97] ∧
        ¬HistoryMatches byteDecoders terminal := by
  refine ⟨by decide +kernel, by decide +kernel, fun h => ?_⟩
  have hdoubled := h "s"
  revert hdoubled
  decide +kernel

end Runs

end Teleprompter.TerminalHistory
